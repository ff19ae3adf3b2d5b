import BarberHub.Analytics.Dashboards

/-!
# The order of the rows

A query answers in the order in which the tables are scanned, where no
`ORDER BY` tells its rows apart.  The joins and the groups of the dashboards are
the same up to that order, and the popular service is the same if one of the
services leads.
-/

namespace BarberHub

open KeyedTable Grouping Database

/-- The same rows, with the barbers, the services and the appointments in
another order. -/
structure Database.Reordered (db db' : Database) : Prop where
  barbers : db.barbers.Perm db'.barbers
  services : db.services.Perm db'.services
  appointments : db.appointments.Perm db'.appointments
  others : db' = { db with
    barbers := db'.barbers
    services := db'.services
    appointments := db'.appointments }

/-- No service is booked more often, and none that is booked as often has a name
before it. -/
def Database.Leads (db : Database) (collation : Collation) (scope : Scope)
    (period : ℤ × ℤ) (g : (Uuid × String) × ℕ) : Prop :=
  g ∈ db.serviceCounts scope period ∧
    ∀ c ∈ db.serviceCounts scope period, collation.byPopularity g c

/-- At most one service leads. -/
def Database.OneLeader (db : Database) (collation : Collation) (scope : Scope)
    (period : ℤ × ℤ) : Prop :=
  ∀ g g', db.Leads collation scope period g →
    db.Leads collation scope period g' → g = g'

/-! ## Joined rows -/

section

variable {db db' : Database} {collation : Collation} {scope : Scope}
  {period : ℤ × ℤ} {g : (Uuid × String) × ℕ}

theorem mem_booked {a : Appointment} {b : Barber} :
    (a, b) ∈ db.booked scope period ↔
      a ∈ db.appointments ∧ b ∈ db.barbers ∧ b.id = a.barberId ∧
        scope a b = true ∧ period.1 ≤ a.startTime ∧ a.startTime < period.2 := by
  simp only [booked, List.mem_flatMap, List.mem_map, List.mem_filter,
    decide_eq_true_eq, Prod.mk.injEq]
  constructor
  · rintro ⟨_, ha, _, ⟨hb, hjoined⟩, rfl, rfl⟩
    exact ⟨ha, hb, hjoined⟩
  · rintro ⟨ha, hb, hjoined⟩
    exact ⟨a, ha, b, ⟨hb, hjoined⟩, rfl, rfl⟩

theorem mem_servicesBooked {a : Appointment} {s : Service} :
    (a, s) ∈ db.servicesBooked scope period ↔
      (∃ b, (a, b) ∈ db.booked scope period) ∧ a.status ≠ .cancelled ∧
        s ∈ db.services ∧ s.id = a.serviceId := by
  simp only [servicesBooked, List.mem_flatMap, List.mem_map, List.mem_filter,
    decide_eq_true_eq, Prod.mk.injEq]
  constructor
  · rintro ⟨⟨_, b⟩, ⟨hbooked, hstatus⟩, _, ⟨hs, hservice⟩, rfl, rfl⟩
    exact ⟨⟨b, hbooked⟩, hstatus, hs, hservice⟩
  · rintro ⟨⟨b, hbooked⟩, hstatus, hs, hservice⟩
    exact ⟨(a, b), ⟨hbooked, hstatus⟩, s, ⟨hs, hservice⟩, rfl, rfl⟩

/-- The services that are grouped are those that were booked. -/
theorem mem_serviceCounts_key (hg : g ∈ db.serviceCounts scope period) :
    ∃ a s, (a, s) ∈ db.servicesBooked scope period ∧ g.1 = (s.id, s.name) := by
  obtain ⟨⟨a, s⟩, hrow, hkey⟩ := mem_keys.mp (mem_groupBy.mp hg).1
  exact ⟨a, s, hrow, hkey.symm⟩

/-! ## Another order -/

theorem Database.Reordered.symm (h : db.Reordered db') : db'.Reordered db where
  barbers := h.barbers.symm
  services := h.services.symm
  appointments := h.appointments.symm
  others := by
    rw [h.others]

theorem booked_perm (h : db.Reordered db') :
    (db.booked scope period).Perm (db'.booked scope period) :=
  h.appointments.flatMap fun _ _ => (h.barbers.filter _).map _

theorem earning_perm (h : db.Reordered db') :
    (db.earning scope period).Perm (db'.earning scope period) :=
  (booked_perm h).filter _

theorem servicesBooked_perm (h : db.Reordered db') :
    (db.servicesBooked scope period).Perm (db'.servicesBooked scope period) :=
  ((booked_perm h).filter _).flatMap fun _ _ => (h.services.filter _).map _

theorem statusCounts_perm (h : db.Reordered db') :
    (db.statusCounts scope period).Perm (db'.statusCounts scope period) :=
  groupBy_perm (fun _ _ => List.Perm.length_eq) (booked_perm h)

theorem serviceCounts_perm (h : db.Reordered db') :
    (db.serviceCounts scope period).Perm (db'.serviceCounts scope period) :=
  groupBy_perm (fun _ _ => List.Perm.length_eq) (servicesBooked_perm h)

theorem sumPrices_perm
    {α : Type} {appointment : α → Appointment} {rows rows' : List α}
    (h : rows.Perm rows') :
    sumPrices appointment rows = sumPrices appointment rows' :=
  (h.map _).sum_eq

/-! ## The popular service -/

theorem Collation.preorders_byPopularity (collation : Collation) :
    Preorders collation.byPopularity := by
  apply Preorders.thenBy
  · exact ⟨fun a b => le_total b.2 a.2, fun hab hbc => le_trans hbc hab⟩
  · exact ⟨fun a b => collation.preorders.total a.1.2 b.1.2,
      fun hab hbc => collation.preorders.trans hab hbc⟩

/-- Services that neither of the two comes before are booked equally often and
have one name. -/
theorem Collation.byPopularity_antisymm {a b : (Uuid × String) × ℕ}
    (hab : collation.byPopularity a b) (hba : collation.byPopularity b a) :
    a.1.2 = b.1.2 ∧ a.2 = b.2 :=
  ⟨collation.antisymm (hab.2 hba.1) (hba.2 hab.1), le_antisymm hba.1 hab.1⟩

theorem leads_reordered (h : db.Reordered db')
    (hg : db.Leads collation scope period g) :
    db'.Leads collation scope period g := by
  have hperm : (db.serviceCounts scope period).Perm
      (db'.serviceCounts scope period) := serviceCounts_perm h
  refine ⟨hperm.mem_iff.mp hg.1, ?_⟩
  intro c hc
  exact hg.2 c (hperm.mem_iff.mpr hc)

theorem Database.OneLeader.reordered (hone : db.OneLeader collation scope period)
    (h : db.Reordered db') : db'.OneLeader collation scope period := by
  intro g g' hg hg'
  exact hone g g' (leads_reordered h.symm hg) (leads_reordered h.symm hg')

/-- A service leads if any was booked. -/
theorem exists_leads (hne : db.serviceCounts scope period ≠ []) :
    ∃ g, db.Leads collation scope period g := by
  cases hfirst : first collation.byPopularity (db.serviceCounts scope period) with
  | none => exact absurd (first_eq_none_iff.mp hfirst) hne
  | some g =>
      refine ⟨g, mem_of_first hfirst, ?_⟩
      intro c hc
      exact le_of_first collation.preorders_byPopularity hfirst hc

/-- The service shown is the one that leads, in every order of the rows. -/
theorem popularService_reordered (hone : db.OneLeader collation scope period)
    (h : db.Reordered db') :
    db'.popularService collation scope period =
      db.popularService collation scope period := by
  rw [popularService, popularService]
  congr 1
  symm
  apply first_perm collation.preorders_byPopularity (serviceCounts_perm h)
  intro a ha b hb hleads hleads'
  exact hone a b ⟨ha, hleads⟩ ⟨hb, hleads'⟩

end

end BarberHub
