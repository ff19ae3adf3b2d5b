import BarberHub.Analytics.RowOrder

/-!
# Figures that add up

The queries of the dashboards describe the same rows.  The counts and the
revenue of a period are the sums of those of its parts, those of a shop the sums
of those of its barbers; the average is the revenue divided by the number of the
completed bookings, to half a hundredth; and no barber of the shop has earned
more than the top barber.
-/

namespace BarberHub

open KeyedTable Grouping ReadCommitted Program Database Rounding

/-- What PostgreSQL can store of the appointments: a `NUMERIC(10, 2)` has ten
digits, and a table is no larger than 32 TB. -/
structure Database.Storable (db : Database) : Prop where
  prices : ∀ a ∈ db.appointments, a.totalPrice < 10 ^ 10
  rows : db.appointments.length ≤ 2 ^ 45

section

variable {db : Database} {scope : Scope} {period : ℤ × ℤ} {shopId : Uuid}

/-! ## Joined rows -/

/-- The join repeats no row. -/
theorem Database.KeysUnique.nodup_booked (hdb : db.KeysUnique) (scope : Scope)
    (period : ℤ × ℤ) : (db.booked scope period).Nodup := by
  rw [booked, List.nodup_flatMap]
  constructor
  · intro a _
    apply List.Nodup.map
    · intro b b' h
      exact congrArg Prod.snd h
    · exact (List.Nodup.of_map _ hdb.barbers).filter _
  · apply (List.Nodup.of_map _ hdb.appointments).imp
    intro a a' hne row hrow hrow'
    obtain ⟨b, -, rfl⟩ := List.mem_map.mp hrow
    obtain ⟨b', -, heq⟩ := List.mem_map.mp hrow'
    exact hne (congrArg Prod.fst heq).symm

/-- An appointment has one barber. -/
theorem Database.KeysUnique.nodup_map_booked (hdb : db.KeysUnique)
    (scope : Scope) (period : ℤ × ℤ) :
    ((db.booked scope period).map Prod.fst).Nodup := by
  apply (hdb.nodup_booked scope period).map_on
  rintro ⟨a, b⟩ hrow ⟨a', b'⟩ hrow' heq
  obtain ⟨-, hb, hjoined, -⟩ := mem_booked.mp hrow
  obtain ⟨-, hb', hjoined', -⟩ := mem_booked.mp hrow'
  obtain rfl : a = a' := heq
  rw [hdb.barbers.eq_of_mem hb hb' (hjoined.trans hjoined'.symm)]

/-- The rows of a period are those of its parts. -/
theorem booked_append (hdb : db.KeysUnique) (scope : Scope) {a b c : ℤ}
    (hab : a ≤ b) (hbc : b ≤ c) :
    (db.booked scope (a, c)).Perm
      (db.booked scope (a, b) ++ db.booked scope (b, c)) := by
  have hdisjoint : (db.booked scope (a, b)).Disjoint
      (db.booked scope (b, c)) := by
    rintro ⟨x, y⟩ hrow hrow'
    obtain ⟨-, -, -, -, -, hlt⟩ := mem_booked.mp hrow
    obtain ⟨-, -, -, -, hle, -⟩ := mem_booked.mp hrow'
    exact absurd hlt (not_lt.mpr hle)
  rw [List.perm_ext_iff_of_nodup (hdb.nodup_booked scope _)
    (List.Nodup.append (hdb.nodup_booked scope _) (hdb.nodup_booked scope _)
      hdisjoint)]
  rintro ⟨x, y⟩
  rw [List.mem_append, mem_booked, mem_booked, mem_booked]
  dsimp only
  constructor
  · rintro ⟨hx, hy, hjoined, hscope, hlow, hhigh⟩
    rcases lt_or_ge x.startTime b with hlt | hge
    · exact Or.inl ⟨hx, hy, hjoined, hscope, hlow, hlt⟩
    · exact Or.inr ⟨hx, hy, hjoined, hscope, hge, hhigh⟩
  · rintro (⟨hx, hy, hjoined, hscope, hlow, hhigh⟩ |
      ⟨hx, hy, hjoined, hscope, hlow, hhigh⟩)
    · exact ⟨hx, hy, hjoined, hscope, hlow, hhigh.trans_le hbc⟩
    · exact ⟨hx, hy, hjoined, hscope, hab.trans hlow, hhigh⟩

/-- The rows of a shop are those of its barbers. -/
theorem booked_shop (hdb : db.KeysUnique) (shopId : Uuid) (period : ℤ × ℤ) :
    (db.booked (shopScope shopId) period).Perm
      ((db.barbers.filter fun b => b.shopId = shopId).flatMap fun b =>
        db.booked (barberScope b.id) period) := by
  have hbarbers : (db.barbers.filter fun b => b.shopId = shopId).Nodup :=
    (List.Nodup.of_map _ hdb.barbers).filter _
  have hparts : ((db.barbers.filter fun b => b.shopId = shopId).flatMap fun b =>
      db.booked (barberScope b.id) period).Nodup := by
    rw [List.nodup_flatMap]
    refine ⟨fun b _ => hdb.nodup_booked _ _, ?_⟩
    have hids : UniqueKeys Barber.id
        (db.barbers.filter fun b => b.shopId = shopId) :=
      List.Nodup.sublist (List.filter_sublist.map _) hdb.barbers
    rw [UniqueKeys, List.Nodup, List.pairwise_map] at hids
    apply hids.imp
    rintro b b' hne ⟨x, y⟩ hrow hrow'
    obtain ⟨-, -, -, hscope, -⟩ := mem_booked.mp hrow
    obtain ⟨-, -, -, hscope', -⟩ := mem_booked.mp hrow'
    rw [barberScope, decide_eq_true_eq] at hscope hscope'
    exact hne (hscope.symm.trans hscope')
  rw [List.perm_ext_iff_of_nodup (hdb.nodup_booked _ _) hparts]
  rintro ⟨x, y⟩
  simp only [List.mem_flatMap, List.mem_filter, mem_booked, shopScope,
    barberScope, decide_eq_true_eq]
  constructor
  · rintro ⟨hx, hy, hjoined, hshop, hperiod⟩
    exact ⟨y, ⟨hy, hshop⟩, hx, hy, hjoined, hjoined.symm, hperiod⟩
  · rintro ⟨b, ⟨hb, hshop⟩, hx, hy, hjoined, hbarber, hperiod⟩
    obtain rfl := hdb.barbers.eq_of_mem hy hb (hjoined.trans hbarber)
    exact ⟨hx, hy, hjoined, hshop, hperiod⟩

/-! ## Counts -/

theorem countOf_append (hdb : db.KeysUnique) (scope : Scope) {a b c : ℤ}
    (hab : a ≤ b) (hbc : b ≤ c) (status : AppointmentStatus) :
    countOf (db.statusCounts scope (a, c)) status =
      countOf (db.statusCounts scope (a, b)) status +
        countOf (db.statusCounts scope (b, c)) status := by
  rw [countOf_statusCounts, countOf_statusCounts, countOf_statusCounts,
    ((booked_append hdb scope hab hbc).filter _).length_eq, List.filter_append,
    List.length_append]

theorem countOf_shop (hdb : db.KeysUnique) (shopId : Uuid) (period : ℤ × ℤ)
    (status : AppointmentStatus) :
    countOf (db.statusCounts (shopScope shopId) period) status =
      ((db.barbers.filter fun b => b.shopId = shopId).map fun b =>
        countOf (db.statusCounts (barberScope b.id) period) status).sum := by
  simp only [countOf_statusCounts]
  rw [((booked_shop hdb shopId period).filter _).length_eq, List.filter_flatMap,
    List.length_flatMap]

/-- Every status counted, every appointment is. -/
theorem sum_statusCounts (db : Database) (scope : Scope) (period : ℤ × ℤ) :
    ((db.statusCounts scope period).map Prod.snd).sum =
      (db.booked scope period).length :=
  sum_length_groupBy _ _

theorem countOf_completed (db : Database) (scope : Scope) (period : ℤ × ℤ) :
    countOf (db.statusCounts scope period) .completed =
      (db.earning scope period).length :=
  countOf_statusCounts db scope period .completed

/-- An appointment of the scope is counted once. -/
theorem length_booked (hdb : db.Valid) {counted : Appointment → Bool}
    (hcounted : ∀ a ∈ db.appointments, counted a = true ↔
      ∃ b ∈ db.barbers, b.id = a.barberId ∧ scope a b = true) :
    (db.booked scope period).length =
      (db.appointments.filter fun a => counted a = true ∧
        period.1 ≤ a.startTime ∧ a.startTime < period.2).length := by
  rw [← List.length_map Prod.fst]
  apply List.Perm.length_eq
  rw [List.perm_ext_iff_of_nodup (hdb.keys.nodup_map_booked scope period)
    ((List.Nodup.of_map _ hdb.keys.appointments).filter _)]
  intro a
  rw [List.mem_map, List.mem_filter, decide_eq_true_eq]
  constructor
  · rintro ⟨⟨_, b⟩, hrow, rfl⟩
    obtain ⟨ha, hb, hjoined, hscope, hperiod⟩ := mem_booked.mp hrow
    exact ⟨ha, (hcounted _ ha).mpr ⟨b, hb, hjoined, hscope⟩, hperiod⟩
  · rintro ⟨ha, hcount, hperiod⟩
    obtain ⟨b, hb, hjoined, hscope⟩ := (hcounted a ha).mp hcount
    exact ⟨(a, b), mem_booked.mpr ⟨ha, hb, hjoined, hscope, hperiod⟩, rfl⟩

/-! ## Money -/

theorem sumPrices_append {α : Type} (appointment : α → Appointment)
    (rows rows' : List α) :
    sumPrices appointment (rows ++ rows') =
      sumPrices appointment rows + sumPrices appointment rows' := by
  rw [sumPrices, List.map_append, List.sum_append]
  rfl

theorem sumPrices_flatMap {α β : Type} (appointment : α → Appointment)
    (groups : List β) (f : β → List α) :
    sumPrices appointment (groups.flatMap f) =
      (groups.map fun g => sumPrices appointment (f g)).sum := by
  induction groups with
  | nil => rfl
  | cons g groups ih =>
      rw [List.flatMap_cons, sumPrices_append, ih, List.map_cons, List.sum_cons]

theorem sumPrices_earning_append (hdb : db.KeysUnique) (scope : Scope)
    {a b c : ℤ} (hab : a ≤ b) (hbc : b ≤ c) :
    sumPrices Prod.fst (db.earning scope (a, c)) =
      sumPrices Prod.fst (db.earning scope (a, b)) +
        sumPrices Prod.fst (db.earning scope (b, c)) := by
  rw [← sumPrices_append, earning, earning, earning, ← List.filter_append]
  exact sumPrices_perm ((booked_append hdb scope hab hbc).filter _)

theorem sumPrices_earning_shop (hdb : db.KeysUnique) (shopId : Uuid)
    (period : ℤ × ℤ) :
    sumPrices Prod.fst (db.earning (shopScope shopId) period) =
      ((db.barbers.filter fun b => b.shopId = shopId).map fun b =>
        sumPrices Prod.fst (db.earning (barberScope b.id) period)).sum := by
  have hrows := (booked_shop hdb shopId period).filter
    fun row => row.1.status = .completed
  rw [List.filter_flatMap] at hrows
  rw [earning, sumPrices_perm hrows, sumPrices_flatMap]
  rfl

/-- The revenue of rows that the database can store has at most 27 digits. -/
theorem Database.Storable.earning_lt (hstorable : db.Storable)
    (hdb : db.KeysUnique) (scope : Scope) (period : ℤ × ℤ) :
    10 * sumPrices Prod.fst (db.earning scope period) < 10 ^ 28 := by
  have hrows : (db.earning scope period).length ≤ db.appointments.length := by
    have hbooked : ((db.booked scope period).map Prod.fst).Subperm
        db.appointments := by
      apply List.subperm_of_subset (hdb.nodup_map_booked scope period)
      intro a ha
      obtain ⟨⟨_, b⟩, hrow, rfl⟩ := List.mem_map.mp ha
      exact (mem_booked.mp hrow).1
    have hlength := hbooked.length_le
    rw [List.length_map] at hlength
    exact (List.length_filter_le _ _).trans hlength
  have hsum : sumPrices Prod.fst (db.earning scope period) ≤
      (db.earning scope period).length * 10 ^ 10 := by
    have hle := List.sum_le_card_nsmul
      ((db.earning scope period).map fun row => row.1.totalPrice) (10 ^ 10) (by
        intro price hprice
        obtain ⟨⟨a, b⟩, hrow, rfl⟩ := List.mem_map.mp hprice
        exact (hstorable.prices a (mem_earning hrow).1).le)
    rw [List.length_map, nsmul_eq_mul] at hle
    exact hle
  have hbound : ((db.earning scope period).length : ℤ) ≤ 2 ^ 45 := by
    exact_mod_cast hrows.trans hstorable.rows
  omega

/-- The revenue and the average are always computed, the revenue as the sum of
the prices. -/
theorem run_revenue (hdb : db.Valid) (hstorable : db.Storable) (scope : Scope)
    (hbindable : Bindable period) :
    ∃ average, (revenue scope period).run db =
      (.ok (sumPrices Prod.fst (db.earning scope period), average), db) := by
  have hfits := hstorable.earning_lt hdb.keys scope period
  have hnonneg := hdb.keyed.earning_nonneg scope period
  obtain ⟨⟨total, average⟩, hmoney⟩ : ∃ money,
      moneyOf (sumPrices Prod.fst (db.earning scope period))
        (db.earning scope period).length = .ok money :=
    (exists_moneyOf_iff hnonneg).mpr (by omega)
  obtain rfl : total = _ := (moneyOf_eq_ok hmoney).2
  exact ⟨average, run_revenue_eq_ok_iff.mpr ⟨hbindable, rfl, hmoney⟩⟩

theorem revenue_eq_of_run {money : ℤ × ℤ}
    (h : (revenue scope period).run db = (.ok money, db)) :
    money.1 = sumPrices Prod.fst (db.earning scope period) :=
  (moneyOf_eq_ok (run_revenue_eq_ok_iff.mp h).2.2).2

/-- The average ticket is the revenue divided by the number of the bookings, to
half a hundredth. -/
theorem abs_average_sub_le {total : ℤ} {count : ℕ} {money : ℤ × ℤ}
    (htotal : 0 ≤ total) (hfits : 10 * total < 10 ^ 28)
    (hnone : count = 0 → total = 0) (h : moneyOf total count = .ok money) :
    |(money.2 : ℚ) / 100 * count - (money.1 : ℚ) / 100| ≤ count * (5 / 1000) := by
  obtain ⟨-, hrevenue⟩ := moneyOf_eq_ok h
  rcases Nat.eq_zero_or_pos count with hcount | hcount
  · rw [hrevenue, hnone hcount, hcount]
    norm_num
  · have haverage : money.2 = halfEven (toDigits 28 ((total : ℚ) / count)) := by
      rw [moneyOf, if_neg hcount.ne'] at h
      simp only [Fallible.bind_eq_ok_iff] at h
      obtain ⟨average, hquantize, _, -, hmoney⟩ := h
      obtain rfl := Except.ok.inj hmoney
      rw [quantize] at hquantize
      split at hquantize
      · exact (Except.ok.inj hquantize).symm
      · cases hquantize
    have hclose := abs_halfEven_toDigits_sub_le hcount htotal hfits
    rw [← haverage] at hclose
    have hpos : (0 : ℚ) < count := by exact_mod_cast hcount
    have hcancel : (total : ℚ) / count * count = total :=
      div_mul_cancel₀ _ hpos.ne'
    calc |(money.2 : ℚ) / 100 * count - (money.1 : ℚ) / 100|
        = |((money.2 : ℚ) - (total : ℚ) / count) * (count / 100)| := by
          rw [hrevenue, sub_mul, ← mul_div_assoc, ← mul_div_assoc, hcancel,
            div_mul_eq_mul_div]
      _ = |(money.2 : ℚ) - (total : ℚ) / count| * (count / 100) := by
          rw [abs_mul, abs_of_pos (by positivity : (0 : ℚ) < count / 100)]
      _ ≤ 1 / 2 * (count / 100) :=
          mul_le_mul_of_nonneg_right hclose (by positivity)
      _ = count * (5 / 1000) := by ring

/-! ## The top barber -/

theorem mem_earning_iff {a : Appointment} {b : Barber} :
    (a, b) ∈ db.earning scope period ↔
      (a, b) ∈ db.booked scope period ∧ a.status = .completed := by
  rw [earning, List.mem_filter, decide_eq_true_eq]

theorem Database.KeysUnique.nodup_earners (hdb : db.KeysUnique) (shopId : Uuid)
    (period : ℤ × ℤ) : (db.earners shopId period).Nodup := by
  rw [earners, List.nodup_flatMap]
  constructor
  · intro row _
    apply List.Nodup.map
    · intro u u' h
      exact (Prod.mk.inj (Prod.mk.inj h).2).2
    · exact (List.Nodup.of_map _ hdb.users).filter _
  · apply ((hdb.nodup_booked _ _).filter _).imp
    rintro ⟨a, b⟩ ⟨a', b'⟩ hne row hrow hrow'
    obtain ⟨u, -, rfl⟩ := List.mem_map.mp hrow
    obtain ⟨u', -, heq⟩ := List.mem_map.mp hrow'
    obtain ⟨rfl, hrest⟩ := Prod.mk.inj heq
    obtain ⟨rfl, -⟩ := Prod.mk.inj hrest
    exact hne rfl

/-- The rows of a group are those that the barber has earned. -/
theorem groupOf_earners (hdb : db.Valid) {b : Barber} {u : User}
    (hb : b ∈ db.barbers) (hshop : b.shopId = shopId) (hu : u ∈ db.users)
    (huser : u.id = b.userId) :
    ((groupOf (fun row : Appointment × Barber × User =>
        (row.2.1.id, row.2.2.firstName, row.2.2.lastName))
        (db.earners shopId period) (b.id, u.firstName, u.lastName)).map
      fun row => (row.1, row.2.1)).Perm (db.earning (barberScope b.id) period) := by
  have hnodup : ((groupOf (fun row : Appointment × Barber × User =>
      (row.2.1.id, row.2.2.firstName, row.2.2.lastName))
      (db.earners shopId period) (b.id, u.firstName, u.lastName)).map
        fun row => (row.1, row.2.1)).Nodup := by
    apply ((hdb.keys.nodup_earners shopId period).filter _).map_on
    rintro ⟨a, c, v⟩ hrow ⟨a', c', v'⟩ hrow' heq
    obtain ⟨-, hv, hjoined⟩ := mem_earners.mp (List.mem_of_mem_filter hrow)
    obtain ⟨-, hv', hjoined'⟩ := mem_earners.mp (List.mem_of_mem_filter hrow')
    obtain ⟨rfl, rfl⟩ := Prod.mk.inj heq
    rw [hdb.keys.users.eq_of_mem hv hv' (hjoined.trans hjoined'.symm)]
  have hearning : (db.earning (barberScope b.id) period).Nodup :=
    (hdb.keys.nodup_booked _ _).filter _
  rw [List.perm_ext_iff_of_nodup hnodup hearning]
  rintro ⟨a, c⟩
  rw [List.mem_map]
  constructor
  · rintro ⟨⟨a', c', v⟩, hrow, heq⟩
    obtain ⟨rfl, rfl⟩ := Prod.mk.inj heq
    obtain ⟨hrow, hkey⟩ := List.mem_filter.mp hrow
    have hid : c'.id = b.id := congrArg Prod.fst (of_decide_eq_true hkey)
    obtain ⟨hearning, -, -⟩ := mem_earners.mp hrow
    obtain ⟨hbooked, hstatus⟩ := mem_earning_iff.mp hearning
    obtain ⟨ha, hc, hjoined, -, hperiod⟩ := mem_booked.mp hbooked
    refine mem_earning_iff.mpr ⟨mem_booked.mpr ⟨ha, hc, hjoined, ?_, hperiod⟩,
      hstatus⟩
    exact decide_eq_true (hjoined.symm.trans hid)
  · intro hearning
    obtain ⟨hbooked, hstatus⟩ := mem_earning_iff.mp hearning
    obtain ⟨ha, hc, hjoined, hscope, hperiod⟩ := mem_booked.mp hbooked
    obtain rfl : c = b := hdb.keys.barbers.eq_of_mem hc hb
      (hjoined.trans (of_decide_eq_true hscope))
    refine ⟨(a, c, u), List.mem_filter.mpr ⟨?_, decide_eq_true rfl⟩, rfl⟩
    refine mem_earners.mpr ⟨mem_earning_iff.mpr ⟨?_, hstatus⟩, hu, huser⟩
    exact mem_booked.mpr ⟨ha, hc, hjoined, decide_eq_true hshop, hperiod⟩

/-- A group is of a barber of the shop, with what the barber has earned. -/
theorem barber_of_mem_barberEarnings (hdb : db.Valid)
    {g : (Uuid × String × String) × ℕ × ℤ}
    (hg : g ∈ db.barberEarnings shopId period) :
    ∃ b ∈ db.barbers, b.id = g.1.1 ∧ b.shopId = shopId ∧
      g.2.2 = sumPrices Prod.fst (db.earning (barberScope b.id) period) := by
  obtain ⟨hkey, hsum⟩ := mem_groupBy.mp hg
  obtain ⟨⟨a, b, u⟩, hrow, hkey⟩ := mem_keys.mp hkey
  obtain ⟨hearning, hu, huser⟩ := mem_earners.mp hrow
  obtain ⟨-, hb, -, hscope, -⟩ := mem_booked.mp (mem_earning_iff.mp hearning).1
  have hshop : b.shopId = shopId := of_decide_eq_true hscope
  refine ⟨b, hb, congrArg Prod.fst hkey, hshop, ?_⟩
  rw [hsum, ← hkey, ← sumPrices_perm (groupOf_earners hdb hb hshop hu huser),
    sumPrices, sumPrices, List.map_map]
  rfl

/-- A barber of the shop who has earned has a group. -/
theorem exists_mem_barberEarnings (hdb : db.Valid) {a : Appointment}
    {b : Barber} (hrow : (a, b) ∈ db.earning (shopScope shopId) period) :
    ∃ g ∈ db.barberEarnings shopId period, g.1.1 = b.id := by
  obtain ⟨-, hb, -⟩ := mem_earning hrow
  obtain ⟨u, hfound⟩ := Option.isSome_iff_exists.mp
    (hdb.references.barbers b hb).1
  have hearner : (a, b, u) ∈ db.earners shopId period :=
    mem_earners.mpr ⟨hrow, mem_of_lookup hfound, key_of_lookup hfound⟩
  have hgroup : ∃ g ∈ db.barberEarnings shopId period,
      g.1 = (b.id, u.firstName, u.lastName) := exists_mem_groupBy hearner
  obtain ⟨g, hg, hkey⟩ := hgroup
  exact ⟨g, hg, congrArg Prod.fst hkey⟩

/-- There is a top barber when a booking was completed. -/
theorem first_byRevenue_eq_none_iff (hdb : db.Valid) :
    first byRevenue (db.barberEarnings shopId period) = none ↔
      db.earning (shopScope shopId) period = [] := by
  rw [first_eq_none_iff]
  constructor
  · intro hnone
    by_contra hsome
    obtain ⟨⟨a, b⟩, hrow⟩ := List.exists_mem_of_ne_nil _ hsome
    obtain ⟨g, hg, -⟩ := exists_mem_barberEarnings hdb hrow
    rw [hnone] at hg
    exact List.not_mem_nil hg
  · intro hnone
    rw [barberEarnings, earners, hnone]
    rfl

/-- No barber of the shop has earned more than the first group. -/
theorem le_of_first_byRevenue (hdb : db.Valid)
    {g : (Uuid × String × String) × ℕ × ℤ}
    (hfirst : first byRevenue (db.barberEarnings shopId period) = some g)
    {b : Barber} (hb : b ∈ db.barbers) (hshop : b.shopId = shopId) :
    sumPrices Prod.fst (db.earning (barberScope b.id) period) ≤ g.2.2 := by
  obtain ⟨top, -, -, -, htop⟩ := barber_of_mem_barberEarnings hdb
    (mem_of_first hfirst)
  cases hrows : db.earning (barberScope b.id) period with
  | nil =>
      rw [htop]
      exact hdb.keyed.earning_nonneg _ _
  | cons row rows =>
      obtain ⟨a, c⟩ := row
      have hrow : (a, c) ∈ db.earning (barberScope b.id) period :=
        hrows ▸ List.mem_cons_self
      obtain ⟨hbooked, hstatus⟩ := mem_earning_iff.mp hrow
      obtain ⟨ha, hc, hjoined, hscope, hperiod⟩ := mem_booked.mp hbooked
      obtain rfl : c = b := hdb.keys.barbers.eq_of_mem hc hb
        (hjoined.trans (of_decide_eq_true hscope))
      have hearning : (a, c) ∈ db.earning (shopScope shopId) period :=
        mem_earning_iff.mpr ⟨mem_booked.mpr ⟨ha, hc, hjoined,
          decide_eq_true hshop, hperiod⟩, hstatus⟩
      obtain ⟨g', hg', hid⟩ := exists_mem_barberEarnings hdb hearning
      obtain ⟨b', hb', hid', -, hsum⟩ := barber_of_mem_barberEarnings hdb hg'
      obtain rfl := hdb.keys.barbers.eq_of_mem hb' hc (hid'.trans hid)
      rw [← hrows, ← hsum]
      exact (le_of_first preorders_byRevenue hfirst hg').1

/-! ## The payloads -/

theorem FiguresOf.average {collation : Collation} {tz : Zone}
    {dateFrom dateTo : Option ℤ} {now : ℤ} {f : Figures} (hdb : db.Valid)
    (hstorable : db.Storable)
    (h : FiguresOf db collation scope tz dateFrom dateTo now f) :
    |(f.averageTicket : ℚ) / 100 * countOf f.counts .completed -
        (f.revenue : ℚ) / 100| ≤ countOf f.counts .completed * (5 / 1000) := by
  rw [h.counts, countOf_completed]
  apply abs_average_sub_le (hdb.keyed.earning_nonneg scope f.period)
    (hstorable.earning_lt hdb.keys scope f.period) _ h.money
  intro hnone
  rw [List.length_eq_zero_iff.mp hnone]
  rfl

theorem TopOf.isSome_iff {top : Option TopBarber} (hdb : db.Valid)
    (h : TopOf db shopId period top) :
    top.isSome ↔ 0 < countOf (db.statusCounts (shopScope shopId) period)
      .completed := by
  rw [countOf_completed, List.length_pos_iff, ne_eq,
    ← first_byRevenue_eq_none_iff hdb]
  rw [TopOf] at h
  cases hfirst : first byRevenue (db.barberEarnings shopId period) with
  | none =>
      rw [hfirst] at h
      simp [h]
  | some g =>
      rw [hfirst] at h
      obtain ⟨_, -, rfl⟩ := h
      simp

/-- The top barber has earned what is shown, and no other one more. -/
theorem TopOf.greatest {top : TopBarber} (hdb : db.Valid)
    (h : TopOf db shopId period (some top)) :
    (∃ b ∈ db.barbers, b.id = top.id ∧ b.shopId = shopId ∧
      top.revenue = sumPrices Prod.fst (db.earning (barberScope b.id) period)) ∧
      ∀ b ∈ db.barbers, b.shopId = shopId →
        sumPrices Prod.fst (db.earning (barberScope b.id) period) ≤
          top.revenue := by
  rw [TopOf] at h
  cases hfirst : first byRevenue (db.barberEarnings shopId period) with
  | none =>
      rw [hfirst] at h
      cases h
  | some g =>
      rw [hfirst] at h
      obtain ⟨shown, hshown, htop⟩ := h
      obtain rfl := Option.some.inj htop
      obtain rfl := (quantize_intCast_eq_ok_iff.mp hshown).2
      obtain ⟨b, hb, hid, hshop, hsum⟩ := barber_of_mem_barberEarnings hdb
        (mem_of_first hfirst)
      refine ⟨⟨b, hb, hid, hshop, hsum⟩, ?_⟩
      exact fun b' hb' hshop' => le_of_first_byRevenue hdb hfirst hb' hshop'

end

/-- For every database the schema admits: the counts and the revenue of a period
are the sums of those of its two parts, and those of a shop the sums of those of
its barbers; and a dashboard counts every appointment of the period, shows an
average that agrees with the revenue to half a hundredth a booking, and a top
barber exactly when a booking was completed, whose revenue no barber of the shop
exceeds. -/
theorem figures_add_up (db : Database) (hdb : db.Valid)
    (hstorable : db.Storable) :
    (∀ scope period, Bindable period →
      ∃ money, (revenue scope period).run db = (.ok money, db)) ∧
    (∀ (scope : Scope) (a b c : ℤ), a ≤ b → b ≤ c →
      (∀ status, countOf (db.statusCounts scope (a, c)) status =
        countOf (db.statusCounts scope (a, b)) status +
          countOf (db.statusCounts scope (b, c)) status) ∧
      ∀ whole first last,
        (revenue scope (a, c)).run db = (.ok whole, db) →
        (revenue scope (a, b)).run db = (.ok first, db) →
        (revenue scope (b, c)).run db = (.ok last, db) →
        whole.1 = first.1 + last.1) ∧
    (∀ (shopId : Uuid) (period : ℤ × ℤ),
      (∀ status, countOf (db.statusCounts (shopScope shopId) period) status =
        ((db.barbers.filter fun b => b.shopId = shopId).map fun b =>
          countOf (db.statusCounts (barberScope b.id) period) status).sum) ∧
      ∀ whole (part : Barber → ℤ × ℤ),
        (revenue (shopScope shopId) period).run db = (.ok whole, db) →
        (∀ b ∈ db.barbers, b.shopId = shopId →
          (revenue (barberScope b.id) period).run db = (.ok (part b), db)) →
        whole.1 = ((db.barbers.filter fun b => b.shopId = shopId).map fun b =>
          (part b).1).sum) ∧
    (∀ (env : Env) (collation : Collation) (user : User) (shopId : Uuid)
      (dateFrom dateTo : Option ℤ) (now : ℤ) (d : ShopDashboard),
      (shopDashboard env collation user shopId dateFrom dateTo now).run db =
        (.ok d, db) →
      d.totalAppointments = (db.appointments.filter fun a =>
        db.AtShop shopId a = true ∧ d.period.dateFrom ≤ a.startTime ∧
          a.startTime < d.period.dateTo).length ∧
      |(d.averageTicket : ℚ) / 100 * d.completedAppointments -
          (d.monthlyRevenue : ℚ) / 100| ≤
        d.completedAppointments * (5 / 1000) ∧
      (d.topBarber.isSome ↔ 0 < d.completedAppointments) ∧
      ∀ top, d.topBarber = some top →
        (∃ b ∈ db.barbers, b.id = top.id ∧ b.shopId = shopId) ∧
        ∀ b ∈ db.barbers, b.shopId = shopId → ∀ money,
          (revenue (barberScope b.id) (d.period.dateFrom, d.period.dateTo)).run
            db = (.ok money, db) →
          money.1 ≤ top.revenue ∧ (b.id = top.id → money.1 = top.revenue)) ∧
    ∀ (env : Env) (collation : Collation) (user : User)
      (dateFrom dateTo : Option ℤ) (now : ℤ) (d : BarberDashboard),
      (barberDashboard env collation user dateFrom dateTo now).run db =
        (.ok d, db) →
      d.totalAppointments = (db.appointments.filter fun a =>
        (a.barberId == d.barberId) = true ∧ d.period.dateFrom ≤ a.startTime ∧
          a.startTime < d.period.dateTo).length ∧
      |(d.averageTicket : ℚ) / 100 * d.completedAppointments -
          (d.revenue : ℚ) / 100| ≤ d.completedAppointments * (5 / 1000) := by
  refine ⟨?_, ?_, ?_, ?_, ?_⟩
  · intro scope period hbindable
    obtain ⟨average, hrun⟩ := run_revenue hdb hstorable scope hbindable
    exact ⟨_, hrun⟩
  · intro scope a b c hab hbc
    refine ⟨countOf_append hdb.keys scope hab hbc, ?_⟩
    intro whole first last hwhole hfirst hlast
    rw [revenue_eq_of_run hwhole, revenue_eq_of_run hfirst,
      revenue_eq_of_run hlast]
    exact sumPrices_earning_append hdb.keys scope hab hbc
  · intro shopId period
    refine ⟨countOf_shop hdb.keys shopId period, ?_⟩
    intro whole part hwhole hparts
    rw [revenue_eq_of_run hwhole, sumPrices_earning_shop hdb.keys]
    congr 1
    apply List.map_congr_left
    intro b hb
    obtain ⟨hmem, hshop⟩ := List.mem_filter.mp hb
    exact (revenue_eq_of_run (hparts b hmem (of_decide_eq_true hshop))).symm
  · intro env collation user shopId dateFrom dateTo now d h
    obtain ⟨-, shop, f, top, -, -, hf, htop, rfl⟩ :=
      run_shopDashboard_eq_ok_iff.mp h
    refine ⟨?_, hf.average hdb hstorable, ?_, ?_⟩
    · rw [shopPayload]
      dsimp only
      rw [hf.counts, sum_statusCounts]
      apply length_booked hdb
      intro a _
      rw [Database.AtShop, Option.any_eq_true]
      constructor
      · rintro ⟨b, hb, hshop⟩
        obtain ⟨hmem, hid⟩ := hdb.keys.barbers.lookup_eq_some_iff.mp hb
        exact ⟨b, hmem, hid, hshop⟩
      · rintro ⟨b, hmem, hid, hshop⟩
        exact ⟨b, hdb.keys.barbers.lookup_eq_some_iff.mpr ⟨hmem, hid⟩, hshop⟩
    · have hsome := htop.isSome_iff hdb
      rw [← hf.counts] at hsome
      exact hsome
    · intro shown hshown
      obtain rfl : top = some shown := hshown
      obtain ⟨⟨b, hb, hid, hshop, hsum⟩, hgreatest⟩ := htop.greatest hdb
      refine ⟨⟨b, hb, hid, hshop⟩, ?_⟩
      intro b' hb' hshop' money hmoney
      rw [revenue_eq_of_run hmoney]
      refine ⟨hgreatest b' hb' hshop', ?_⟩
      intro hsame
      rw [hsum, hdb.keys.barbers.eq_of_mem hb' hb (hsame.trans hid.symm)]
      rfl
  · intro env collation user dateFrom dateTo now d h
    obtain ⟨-, barber, f, hbarber, hf, rfl⟩ := run_barberDashboard_eq_ok_iff.mp h
    refine ⟨?_, hf.average hdb hstorable⟩
    rw [barberPayload]
    dsimp only
    rw [hf.counts, sum_statusCounts]
    apply length_booked hdb
    intro a ha
    rw [beq_iff_eq]
    constructor
    · intro hid
      obtain ⟨b, hb⟩ := Option.isSome_iff_exists.mp
        (hdb.references.appointments a ha).2.1
      exact ⟨b, mem_of_lookup hb, key_of_lookup hb, decide_eq_true hid⟩
    · rintro ⟨_, -, -, hscope⟩
      exact of_decide_eq_true hscope

/-- The sample Monday, before noon and after it. -/
theorem figures_add_up_monday :
    (∃ money, (revenue (shopScope 10) (Sample.clock 0 0, Sample.clock 20 0)).run
      Sample.bookedDb = (.ok money, Sample.bookedDb)) ∧
    ∀ status, countOf (Sample.bookedDb.statusCounts (shopScope 10)
        (Sample.clock 0 0, Sample.clock 20 0)) status =
      countOf (Sample.bookedDb.statusCounts (shopScope 10)
        (Sample.clock 0 0, Sample.clock 12 0)) status +
      countOf (Sample.bookedDb.statusCounts (shopScope 10)
        (Sample.clock 12 0, Sample.clock 20 0)) status := by
  obtain ⟨hrevenue, hparts, -⟩ := figures_add_up Sample.bookedDb
    Sample.bookedDb_valid ⟨by decide +kernel, by decide +kernel⟩
  constructor
  · exact hrevenue _ _ ⟨by decide +kernel, by decide +kernel⟩
  · exact (hparts (shopScope 10) (Sample.clock 0 0) (Sample.clock 12 0)
      (Sample.clock 20 0) (by decide +kernel) (by decide +kernel)).1

end BarberHub
