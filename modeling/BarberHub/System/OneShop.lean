import BarberHub.Analytics.ScanOrder
import BarberHub.System.TwoChairs

/-!
# Services stay in their shop

No constraint of the schema says that the barber and the service of a link, or
of an appointment, are of one shop.  In any interleaving of everything they are,
so the services that a dashboard groups are of one shop, and the index on their
names tells them apart.
-/

namespace BarberHub

open KeyedTable Grouping ReadCommitted Program Pool Fallible Database

variable {ι : Type} [DecidableEq ι]

namespace Database

/-- Every link and every appointment joins a barber and a service of one shop. -/
structure ServicesAtHome (db : Database) : Prop where
  links : ∀ link ∈ db.barberServices, db.AtOneShop link.1 link.2
  appointments : ∀ a ∈ db.appointments, db.AtOneShop a.barberId a.serviceId

/-- The services grouped for a scope have different names, one of them leads
if there are any, and it is the one that is shown in every order of the rows. -/
structure PopularDetermined (db : Database) (scope : Scope) : Prop where
  names : ∀ period, ∀ g ∈ db.serviceCounts scope period,
    ∀ g' ∈ db.serviceCounts scope period, g.1.2 = g'.1.2 → g = g'
  leader : ∀ collation period, db.serviceCounts scope period ≠ [] →
    ∃! g, db.Leads collation scope period g
  stable : ∀ collation period db', db.Reordered db' →
    db'.popularService collation scope period =
      db.popularService collation scope period

/-- Barbers and services are joined within one shop, and what the dashboard of a
shop or of a barber shows as popular is determined. -/
structure ShopsApart (db : Database) : Prop where
  atHome : db.ServicesAtHome
  shop : ∀ shopId, db.PopularDetermined (shopScope shopId)
  barber : ∀ barberId, db.PopularDetermined (barberScope barberId)

/-- Services stay in their shop, and the keys are unique. -/
structure Catalogued (env : Env) (db : Database) : Prop where
  barbers : UniqueKeys Barber.id db.barbers
  services : UniqueKeys Service.id db.services
  names : db.NamesUnique env
  atHome : db.ServicesAtHome

/-- The barbers of the scope work at the shop. -/
def ScopedTo (db : Database) (scope : Scope) (shopId : Uuid) : Prop :=
  ∀ a, ∀ b ∈ db.barbers, b.id = a.barberId → scope a b = true → b.shopId = shopId

end Database

/-! ## One commit -/

section

variable {env : Env} {s s' : Database} {work : Work}

theorem WorkCommit.namesUnique
    (h : WorkCommit env s s' work) (hkeys : UniqueKeys Service.id s.services)
    (hnames : s.NamesUnique env) :
    UniqueKeys Service.id s'.services ∧ s'.NamesUnique env := by
  rcases h.services_cases with heq | ⟨id, u, hflush⟩ | ⟨row, hinsert⟩
  · rw [NamesUnique, heq]
    exact ⟨hkeys, hnames⟩
  · exact namesUnique_flushService hkeys hnames hflush
  · obtain ⟨rfl, hfresh, hfree⟩ := insertService_eq_ok hinsert
    refine ⟨hkeys.append_singleton hfresh, hnames.append_singleton ?_⟩
    intro other hother hsame
    obtain ⟨hshop, hname⟩ := Prod.mk.inj hsame
    exact hfree other hother hshop hname

/-- No commit joins a barber and a service of different shops. -/
theorem WorkCommit.servicesAtHome
    (h : WorkCommit env s s' work) (hs : s.ServicesAtHome) :
    s'.ServicesAtHome where
  links link hlink := by
    refine AtOneShop.stable ?_ h.persists
    rcases h.links_cases with heq | ⟨barberId, removed, added, hshop, hflush⟩
    · rw [heq] at hlink
      exact hs.links link hlink
    · rcases mem_of_flushBarberServices hflush hlink with hkept | ⟨rfl, hadded⟩
      · exact hs.links link hkept
      · exact hshop link.2 hadded
  appointments a' ha' := by
    refine AtOneShop.stable ?_ h.persists
    rcases h.continues_or_atOneShop ha' with ⟨a, ha, hcontinues⟩ | hshop
    · rw [hcontinues.barber_eq, hcontinues.service_eq]
      exact hs.appointments a ha
    · exact hshop

theorem WorkCommit.catalogued
    (h : WorkCommit env s s' work) (hs : s.Catalogued env) :
    s'.Catalogued env where
  barbers := h.barber_keys hs.barbers
  services := (h.namesUnique hs.services hs.names).1
  names := (h.namesUnique hs.services hs.names).2
  atHome := h.servicesAtHome hs.atHome

end

/-! ## What a dashboard groups -/

section

variable {env : Env} {db : Database} {scope : Scope} {shopId : Uuid}
  {period : ℤ × ℤ}

theorem scopedTo_shopScope (db : Database) (shopId : Uuid) :
    db.ScopedTo (shopScope shopId) shopId := by
  intro a b _ _ hscope
  simpa [shopScope] using hscope

/-- The appointments of a barber are of the barber's shop. -/
theorem exists_scopedTo_barberScope
    (hkeys : UniqueKeys Barber.id db.barbers) (barberId : Uuid) :
    ∃ shopId, db.ScopedTo (barberScope barberId) shopId := by
  have hid : ∀ (a : Appointment) (b : Barber), b.id = a.barberId →
      barberScope barberId a b = true → b.id = barberId := by
    intro a b hjoined hscope
    rw [barberScope, decide_eq_true_eq] at hscope
    rw [hjoined, hscope]
  cases hrow : db.barber? barberId with
  | none =>
      refine ⟨0, ?_⟩
      intro a b hb hjoined hscope
      exact absurd (hid a b hjoined hscope) (lookup_eq_none_iff.mp hrow b hb)
  | some barber =>
      refine ⟨barber.shopId, ?_⟩
      intro a b hb hjoined hscope
      have hsame : db.barber? barberId = some b :=
        hkeys.lookup_eq_some_iff.mpr ⟨hb, hid a b hjoined hscope⟩
      rw [Option.some.inj (hrow.symm.trans hsame)]

/-- A service booked in a scope of one shop is sold at that shop. -/
theorem Database.Catalogued.shop_of_servicesBooked
    (h : db.Catalogued env) (hscope : db.ScopedTo scope shopId)
    {a : Appointment} {s : Service} (hrow : (a, s) ∈ db.servicesBooked scope period) :
    s ∈ db.services ∧ s.shopId = shopId := by
  obtain ⟨⟨b, hbooked⟩, -, hs, hservice⟩ := mem_servicesBooked.mp hrow
  obtain ⟨ha, hb, hjoined, hin, -⟩ := mem_booked.mp hbooked
  obtain ⟨userId, shop, ⟨barber, hbarber, -, hworks⟩, ⟨service, hsold, hshop⟩⟩ :=
    h.atHome.appointments a ha
  have hbarber' : barber = b :=
    h.barbers.eq_of_mem (mem_of_lookup hbarber) hb
      ((key_of_lookup hbarber).trans hjoined.symm)
  have hservice' : service = s :=
    h.services.eq_of_mem (mem_of_lookup hsold) hs
      ((key_of_lookup hsold).trans hservice.symm)
  subst hbarber' hservice'
  refine ⟨hs, ?_⟩
  rw [hshop, ← hworks]
  exact hscope a barber hb hjoined hin

/-- The services grouped for a scope of one shop have different names. -/
theorem Database.Catalogued.names_of_serviceCounts
    (h : db.Catalogued env) (hscope : db.ScopedTo scope shopId)
    {g g' : (Uuid × String) × ℕ} (hg : g ∈ db.serviceCounts scope period)
    (hg' : g' ∈ db.serviceCounts scope period) (hname : g.1.2 = g'.1.2) :
    g = g' := by
  obtain ⟨a, s, hrow, hkey⟩ := mem_serviceCounts_key hg
  obtain ⟨a', s', hrow', hkey'⟩ := mem_serviceCounts_key hg'
  obtain ⟨hs, hshop⟩ := h.shop_of_servicesBooked hscope hrow
  obtain ⟨hs', hshop'⟩ := h.shop_of_servicesBooked hscope hrow'
  have hsame : s = s' := by
    apply h.names.eq_of_mem hs hs'
    rw [hkey, hkey'] at hname
    change s.name = s'.name at hname
    rw [hshop, hshop', hname]
  apply groupBy_inj hg hg'
  rw [hkey, hkey', hsame]

theorem Database.Catalogued.popularDetermined
    (h : db.Catalogued env) (hscope : db.ScopedTo scope shopId) :
    db.PopularDetermined scope := by
  have hone : ∀ collation period, db.OneLeader collation scope period := by
    intro collation period g g' hg hg'
    have hname : g.1.2 = g'.1.2 :=
      (Collation.byPopularity_antisymm (hg.2 g' hg'.1) (hg'.2 g hg.1)).1
    exact h.names_of_serviceCounts hscope hg.1 hg'.1 hname
  constructor
  · intro period g hg g' hg' hname
    exact h.names_of_serviceCounts hscope hg hg' hname
  · intro collation period hne
    obtain ⟨g, hg⟩ : ∃ g, db.Leads collation scope period g := exists_leads hne
    exact ⟨g, hg, fun g' hg' => hone collation period g' g hg' hg⟩
  · intro collation period db' hreordered
    exact popularService_reordered (hone collation period) hreordered

end

theorem Database.Catalogued.apart {env : Env} {db : Database}
    (h : db.Catalogued env) : db.ShopsApart where
  atHome := h.atHome
  shop shopId := h.popularDetermined (scopedTo_shopScope db shopId)
  barber barberId := by
    obtain ⟨shopId, hscope⟩ := exists_scopedTo_barberScope h.barbers barberId
    exact h.popularDetermined hscope

/-! ## Every interleaving -/

/-- In every state of every interleaving of everything, barbers and services are
joined within one shop, and the popular service of every dashboard is
determined. -/
theorem shopsApart
    (env : Env) (works : ι → Work) (db : Database) (hvalid : db.Valid)
    (hnames : db.NamesUnique env) (hhome : db.ServicesAtHome)
    (schedule : List ι) :
    ((workPool env works db).exec schedule).committed.ShopsApart := by
  have hcatalogued : db.Catalogued env :=
    ⟨hvalid.keys.barbers, hvalid.keys.services, hnames, hhome⟩
  exact (workPool_invariant env works hcatalogued
    (fun _ _ _ hs h => h.catalogued hs) schedule).apart

/-- Two shops that take on the same person. -/
theorem shopsApart_twoChairs :
    ((workPool Sample.env twoChairs twoShopsDb).exec
      oneAfterTheOther).committed.ShopsApart := by
  apply shopsApart Sample.env twoChairs twoShopsDb twoShopsDb_valid
  · rw [NamesUnique]
    decide
  · constructor
    · intro link hlink
      exact absurd hlink List.not_mem_nil
    · intro a ha
      exact absurd ha List.not_mem_nil

end BarberHub
