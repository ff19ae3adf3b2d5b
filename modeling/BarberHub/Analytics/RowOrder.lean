import BarberHub.Analytics.ScanOrder
import BarberHub.System.TwoChairs
import Mathlib.Algebra.Order.BigOperators.Group.List

/-!
# Dashboards and the order of the rows

The dashboards are the same in every order in which the barbers, the services
and the appointments may be scanned, except where a query with `LIMIT 1` has no
first row of its own: the row of an account that is a barber at several shops,
and services that share the first place and the name.
-/

namespace BarberHub

open KeyedTable Grouping ReadCommitted Program Database Rounding

/-! ## Payloads -/

section

variable (env : Env) (collation : Collation) (db : Database) (user : User)
  (shopId : Uuid) (dateFrom dateTo : Option ℤ) (now : ℤ)

/-- The payload of the dashboard of a shop, if there is one. -/
def shopDashboard? : Option ShopDashboard :=
  ((shopDashboard env collation user shopId dateFrom dateTo now).run db).1.toOption

/-- The payload of the dashboard of a barber, if there is one. -/
def barberDashboard? : Option BarberDashboard :=
  ((barberDashboard env collation user dateFrom dateTo now).run db).1.toOption

/-- Neither dashboard depends on the order in which the rows are scanned. -/
structure OrderFree : Prop where
  shop : ∀ db₁ db₂, db.Reordered db₁ → db.Reordered db₂ →
    shopDashboard? env collation db₁ user shopId dateFrom dateTo now =
      shopDashboard? env collation db₂ user shopId dateFrom dateTo now
  barber : ∀ db₁ db₂, db.Reordered db₁ → db.Reordered db₂ →
    barberDashboard? env collation db₁ user dateFrom dateTo now =
      barberDashboard? env collation db₂ user dateFrom dateTo now

/-- The figures over the period can be computed: the clock and the bounds are in
the range of the calendar, and the revenue has no more than 28 digits. -/
structure Computable (scope : Scope) (tz : Zone) (period : ℤ × ℤ) : Prop where
  resolves : resolvePeriod dateFrom dateTo tz now = .ok period
  bindable : Bindable period
  today : ∃ bounds, todayBounds tz now = .ok bounds ∧ Bindable bounds
  revenue : sumPrices Prod.fst (db.earning scope period) < 10 ^ 28

/-- Where the dashboard of the shop can be computed for the user, one service
leads; where that of a barber's row of the user can, it is the only row, and one
service leads. -/
structure Unambiguous : Prop where
  shop : ∀ shop, db.barbershop? shopId = some shop →
    user.role = .admin ∨ shop.ownerId = user.id → ∀ period,
      Computable db dateFrom dateTo now (shopScope shopId) (env.shopTimezone shop)
        period →
      db.OneLeader collation (shopScope shopId) period
  barber : ∀ barber ∈ db.barbers, barber.userId = user.id → ∀ period,
    Computable db dateFrom dateTo now (barberScope barber.id)
      (db.barberZone env barber) period →
    (∀ other ∈ db.barbers, other.userId = user.id → other = barber) ∧
      db.OneLeader collation (barberScope barber.id) period

end

/-- The keys are unique, and no price is negative. -/
structure Database.Keyed (db : Database) : Prop where
  users : UniqueKeys User.id db.users
  barbers : UniqueKeys Barber.id db.barbers
  services : UniqueKeys Service.id db.services
  prices : ∀ a ∈ db.appointments, 0 ≤ a.totalPrice

section

variable {env : Env} {collation : Collation} {db db' : Database} {user : User}
  {shopId : Uuid} {scope : Scope} {tz : Zone} {dateFrom dateTo : Option ℤ}
  {now : ℤ} {period : ℤ × ℤ}

theorem Database.Valid.keyed (h : db.Valid) : db.Keyed where
  users := h.keys.users
  barbers := h.keys.barbers
  services := h.keys.services
  prices a ha := (h.checks.appointments a ha).2

theorem Database.Reordered.users_eq (h : db.Reordered db') :
    db'.users = db.users := by
  rw [h.others]

theorem Database.Reordered.barbershop?_eq (h : db.Reordered db') (id : Uuid) :
    db'.barbershop? id = db.barbershop? id := by
  rw [h.others]
  rfl

theorem Database.Reordered.barberZone_eq (h : db.Reordered db') (barber : Barber) :
    db'.barberZone env barber = db.barberZone env barber := by
  rw [barberZone, h.barbershop?_eq]
  rfl

theorem Database.Keyed.reordered (hdb : db.Keyed) (h : db.Reordered db') :
    db'.Keyed where
  users := by
    rw [h.users_eq]
    exact hdb.users
  barbers := hdb.barbers.perm h.barbers
  services := hdb.services.perm h.services
  prices a ha := hdb.prices a (h.appointments.mem_iff.mpr ha)

/-! ## Sums -/

theorem mem_earning {a : Appointment} {b : Barber}
    (h : (a, b) ∈ db.earning scope period) :
    a ∈ db.appointments ∧ b ∈ db.barbers ∧ b.id = a.barberId := by
  obtain ⟨ha, hb, hjoined, -⟩ := mem_booked.mp (List.mem_of_mem_filter h)
  exact ⟨ha, hb, hjoined⟩

theorem sumPrices_nonneg
    {α : Type} {appointment : α → Appointment} {rows : List α}
    (h : ∀ row ∈ rows, 0 ≤ (appointment row).totalPrice) :
    0 ≤ sumPrices appointment rows := by
  apply List.sum_nonneg
  intro price hprice
  obtain ⟨row, hrow, rfl⟩ := List.mem_map.mp hprice
  exact h row hrow

/-- Some of the rows cost no more than all of them. -/
theorem sumPrices_le
    {α : Type} {appointment : α → Appointment} {rows rows' : List α}
    (hsublist : rows.Sublist rows')
    (h : ∀ row ∈ rows', 0 ≤ (appointment row).totalPrice) :
    sumPrices appointment rows ≤ sumPrices appointment rows' := by
  apply (hsublist.map _).sum_le_sum
  intro price hprice
  obtain ⟨row, hrow, rfl⟩ := List.mem_map.mp hprice
  exact h row hrow

theorem Database.Keyed.earning_nonneg (hdb : db.Keyed) (scope : Scope)
    (period : ℤ × ℤ) : 0 ≤ sumPrices Prod.fst (db.earning scope period) := by
  apply sumPrices_nonneg
  rintro ⟨a, b⟩ hrow
  exact hdb.prices a (mem_earning hrow).1

/-! ## Figures -/

/-- The figures are computed when they can be. -/
theorem Computable.exists_figuresOf (hdb : db.Keyed)
    (h : Computable db dateFrom dateTo now scope tz period)
    (collation : Collation) :
    ∃ f, f.period = period ∧
      FiguresOf db collation scope tz dateFrom dateTo now f := by
  obtain ⟨bounds, hbounds, hbindable⟩ := h.today
  have hlocal : ∃ localNow, toLocal tz now = .ok localNow := by
    rw [todayBounds, Fallible.bind_eq_ok_iff] at hbounds
    obtain ⟨localNow, hlocal, -⟩ := hbounds
    exact ⟨localNow, hlocal⟩
  obtain ⟨localNow, hlocal⟩ := hlocal
  obtain ⟨money, hmoney⟩ : ∃ money,
      moneyOf (sumPrices Prod.fst (db.earning scope period))
        (db.earning scope period).length = .ok money :=
    (exists_moneyOf_iff (hdb.earning_nonneg scope period)).mpr h.revenue
  refine ⟨{
    period := period
    counts := db.statusCounts scope period
    revenue := money.1
    averageTicket := money.2
    today := dateOf localNow
    todayAppointments := (db.booked scope bounds).length
    mostPopularService := db.popularService collation scope period }, rfl, ?_⟩
  exact ⟨h.resolves, h.bindable, rfl, hmoney, ⟨localNow, hlocal, rfl⟩,
    ⟨bounds, hbounds, hbindable, rfl⟩, rfl⟩

/-- Figures that are computed can be. -/
theorem FiguresOf.computable {f : Figures} (hdb : db.Keyed)
    (h : FiguresOf db collation scope tz dateFrom dateTo now f) :
    Computable db dateFrom dateTo now scope tz f.period where
  resolves := h.period
  bindable := h.bindable
  today := by
    obtain ⟨bounds, hbounds, hbindable, -⟩ := h.todayAppointments
    exact ⟨bounds, hbounds, hbindable⟩
  revenue := (exists_moneyOf_iff (hdb.earning_nonneg scope f.period)).mp ⟨_, h.money⟩

theorem Computable.reordered (h : db.Reordered db')
    (hcomputable : Computable db dateFrom dateTo now scope tz period) :
    Computable db' dateFrom dateTo now scope tz period where
  resolves := hcomputable.resolves
  bindable := hcomputable.bindable
  today := hcomputable.today
  revenue := by
    rw [← sumPrices_perm (earning_perm h)]
    exact hcomputable.revenue

/-- In another order the groups of the statuses may come in another order, and
nothing else changes. -/
theorem FiguresOf.reordered {f : Figures} (h : db.Reordered db')
    (hone : db.OneLeader collation scope f.period)
    (hf : FiguresOf db collation scope tz dateFrom dateTo now f) :
    FiguresOf db' collation scope tz dateFrom dateTo now
      { f with counts := db'.statusCounts scope f.period } where
  period := hf.period
  bindable := hf.bindable
  counts := rfl
  money := by
    rw [← sumPrices_perm (earning_perm h), ← (earning_perm h).length_eq]
    exact hf.money
  today := hf.today
  todayAppointments := by
    obtain ⟨bounds, hbounds, hbindable, hcount⟩ := hf.todayAppointments
    refine ⟨bounds, hbounds, hbindable, ?_⟩
    rw [← (booked_perm h).length_eq]
    exact hcount
  popular := hf.popular.trans (popularService_reordered hone h).symm

theorem countOf_statusCounts (db : Database) (scope : Scope) (period : ℤ × ℤ)
    (status : AppointmentStatus) :
    countOf (db.statusCounts scope period) status =
      ((db.booked scope period).filter fun row => row.1.status = status).length := by
  rw [countOf, statusCounts, lookup_groupBy]
  split
  · rfl
  · rename_i hnone
    symm
    rw [Option.getD_none, List.length_eq_zero_iff, List.filter_eq_nil_iff]
    intro row hrow hstatus
    exact hnone (mem_keys.mpr ⟨row, hrow, of_decide_eq_true hstatus⟩)

theorem countOf_reordered (h : db.Reordered db') (status : AppointmentStatus) :
    countOf (db'.statusCounts scope period) status =
      countOf (db.statusCounts scope period) status := by
  rw [countOf_statusCounts, countOf_statusCounts,
    ((booked_perm h).filter _).length_eq]

theorem sum_statusCounts_reordered (h : db.Reordered db') :
    ((db'.statusCounts scope period).map Prod.snd).sum =
      ((db.statusCounts scope period).map Prod.snd).sum :=
  ((statusCounts_perm h).map _).symm.sum_eq

/-- The payload shows the counts, not the order of their groups. -/
theorem shopPayload_reordered {f : Figures} (h : db.Reordered db')
    (hcounts : f.counts = db.statusCounts scope f.period)
    (top : Option TopBarber) :
    shopPayload shopId tz { f with counts := db'.statusCounts scope f.period } top =
      shopPayload shopId tz f top := by
  simp only [shopPayload, hcounts, countOf_reordered h,
    sum_statusCounts_reordered h]

theorem barberPayload_reordered {f : Figures} {barber : Barber}
    (h : db.Reordered db') (hcounts : f.counts = db.statusCounts scope f.period) :
    barberPayload barber tz { f with counts := db'.statusCounts scope f.period } =
      barberPayload barber tz f := by
  simp only [barberPayload, hcounts, countOf_reordered h,
    sum_statusCounts_reordered h]

/-! ## The top barber -/

theorem mem_earners {a : Appointment} {b : Barber} {u : User} :
    (a, b, u) ∈ db.earners shopId period ↔
      (a, b) ∈ db.earning (shopScope shopId) period ∧ u ∈ db.users ∧
        u.id = b.userId := by
  simp only [earners, List.mem_flatMap, List.mem_map, List.mem_filter,
    decide_eq_true_eq, Prod.mk.injEq]
  constructor
  · rintro ⟨⟨_, _⟩, hrow, _, ⟨hu, hjoined⟩, rfl, rfl, rfl⟩
    exact ⟨hrow, hu, hjoined⟩
  · rintro ⟨hrow, hu, hjoined⟩
    exact ⟨(a, b), hrow, u, ⟨hu, hjoined⟩, rfl, rfl, rfl⟩

theorem barberEarnings_perm (h : db.Reordered db') :
    (db.barberEarnings shopId period).Perm (db'.barberEarnings shopId period) := by
  apply groupBy_perm
  · intro xs ys hperm
    rw [hperm.length_eq, sumPrices_perm hperm]
  · rw [earners, earners, h.users_eq]
    exact (earning_perm h).flatMap fun _ _ => .refl _

theorem preorders_byRevenue : Preorders byRevenue := by
  apply Preorders.thenBy
  · exact ⟨fun a b => le_total b.2.2 a.2.2, fun hab hbc => le_trans hbc hab⟩
  · exact ⟨fun a b => le_total a.1.1 b.1.1, fun hab hbc => le_trans hab hbc⟩

/-- The groups are of different barbers. -/
theorem Database.Keyed.barberEarnings_inj (hdb : db.Keyed)
    {g g' : (Uuid × String × String) × ℕ × ℤ}
    (hg : g ∈ db.barberEarnings shopId period)
    (hg' : g' ∈ db.barberEarnings shopId period) (hid : g.1.1 = g'.1.1) :
    g = g' := by
  obtain ⟨⟨a, b, u⟩, hrow, hkey⟩ := mem_keys.mp (mem_groupBy.mp hg).1
  obtain ⟨⟨a', b', u'⟩, hrow', hkey'⟩ := mem_keys.mp (mem_groupBy.mp hg').1
  obtain ⟨hearning, hu, huser⟩ := mem_earners.mp hrow
  obtain ⟨hearning', hu', huser'⟩ := mem_earners.mp hrow'
  have hbarber : b = b' := by
    apply hdb.barbers.eq_of_mem (mem_earning hearning).2.1 (mem_earning hearning').2.1
    rw [← hkey, ← hkey'] at hid
    exact hid
  subst hbarber
  have hsame : u = u' := hdb.users.eq_of_mem hu hu' (huser.trans huser'.symm)
  subst hsame
  exact groupBy_inj hg hg' (hkey.symm.trans hkey')

theorem TopOf.reordered {top : Option TopBarber} (hdb : db.Keyed)
    (h : db.Reordered db') (htop : TopOf db shopId period top) :
    TopOf db' shopId period top := by
  have hfirst : first byRevenue (db.barberEarnings shopId period) =
      first byRevenue (db'.barberEarnings shopId period) := by
    apply first_perm preorders_byRevenue (barberEarnings_perm h)
    intro a ha b hb hleads hleads'
    have hab : byRevenue a b := hleads b hb
    have hba : byRevenue b a := hleads' a ha
    exact hdb.barberEarnings_inj ha hb
      (le_antisymm (hab.2 hba.1) (hba.2 hab.1))
  rw [TopOf] at htop ⊢
  rw [← hfirst]
  exact htop

/-- The join finds the account of a barber once. -/
theorem Database.Keyed.earners_le (hdb : db.Keyed) :
    sumPrices Prod.fst (db.earners shopId period) ≤
      sumPrices Prod.fst (db.earning (shopScope shopId) period) := by
  have hprices : ∀ row ∈ db.earning (shopScope shopId) period,
      0 ≤ row.1.totalPrice := by
    rintro ⟨a, b⟩ hrow
    exact hdb.prices a (mem_earning hrow).1
  rw [earners]
  revert hprices
  induction db.earning (shopScope shopId) period with
  | nil => exact fun _ => le_rfl
  | cons row rows ih =>
      intro hprices
      have hrest := ih fun other hother =>
        hprices other (List.mem_cons_of_mem row hother)
      rw [List.flatMap_cons, sumPrices, List.map_append, List.sum_append, sumPrices,
        List.map_cons, List.sum_cons]
      apply add_le_add _ hrest
      rw [hdb.users.filter_eq_lookup]
      cases lookup User.id db.users row.2.userId with
      | none => exact hprices row List.mem_cons_self
      | some u => simp

/-- The top barber is shown when the revenue of the shop can be. -/
theorem Database.Keyed.exists_topOf (hdb : db.Keyed)
    (h : sumPrices Prod.fst (db.earning (shopScope shopId) period) < 10 ^ 28) :
    ∃ top, TopOf db shopId period top := by
  cases hfirst : first byRevenue (db.barberEarnings shopId period) with
  | none =>
      refine ⟨none, ?_⟩
      rw [TopOf, hfirst]
  | some row =>
      have hprices : ∀ row ∈ db.earners shopId period, 0 ≤ row.1.totalPrice := by
        rintro ⟨a, b, u⟩ hrow
        exact hdb.prices a (mem_earning (mem_earners.mp hrow).1).1
      have hrevenue := congrArg Prod.snd (mem_groupBy.mp (mem_of_first hfirst)).2
      dsimp only at hrevenue
      have hlow : 0 ≤ row.2.2 := by
        rw [hrevenue]
        apply sumPrices_nonneg
        intro r hr
        exact hprices r (List.mem_of_mem_filter hr)
      have hhigh : row.2.2 < 10 ^ 28 := by
        rw [hrevenue]
        exact ((sumPrices_le List.filter_sublist hprices).trans
          hdb.earners_le).trans_lt h
      have hquantize : quantize (row.2.2 : ℚ) = .ok row.2.2 := by
        rw [quantize_intCast_eq_ok_iff, abs_of_nonneg hlow]
        exact ⟨hhigh, rfl⟩
      refine ⟨some ⟨row.1.1, row.1.2.1 ++ " " ++ row.1.2.2, row.2.1, row.2.2⟩, ?_⟩
      rw [TopOf, hfirst]
      exact ⟨row.2.2, hquantize, rfl⟩

/-! ## The dashboards -/

theorem toOption_run_eq_some_iff
    {α : Type} {p : Request α} {a : α} :
    (p.run db).1.toOption = some a ↔ ∃ db', p.run db = (.ok a, db') := by
  rcases p.run db with ⟨e | b, t⟩ <;> simp [Except.toOption]

theorem shopDashboard?_eq_some_iff {d : ShopDashboard} :
    shopDashboard? env collation db user shopId dateFrom dateTo now = some d ↔
      ∃ shop f top, db.barbershop? shopId = some shop ∧
        (user.role = .admin ∨ shop.ownerId = user.id) ∧
        FiguresOf db collation (shopScope shopId) (env.shopTimezone shop)
          dateFrom dateTo now f ∧
        TopOf db shopId f.period top ∧
        d = shopPayload shopId (env.shopTimezone shop) f top := by
  rw [shopDashboard?, toOption_run_eq_some_iff]
  simp only [run_shopDashboard_eq_ok_iff]
  exact ⟨fun ⟨_, _, h⟩ => h, fun h => ⟨db, rfl, h⟩⟩

theorem barberDashboard?_eq_some_iff {d : BarberDashboard} :
    barberDashboard? env collation db user dateFrom dateTo now = some d ↔
      ∃ barber f, db.barbers.find? (fun b => b.userId = user.id) = some barber ∧
        FiguresOf db collation (barberScope barber.id) (db.barberZone env barber)
          dateFrom dateTo now f ∧
        d = barberPayload barber (db.barberZone env barber) f := by
  rw [barberDashboard?, toOption_run_eq_some_iff]
  simp only [run_barberDashboard_eq_ok_iff]
  exact ⟨fun ⟨_, _, h⟩ => h, fun h => ⟨db, rfl, h⟩⟩

theorem Unambiguous.reordered (h : db.Reordered db')
    (hdb : Unambiguous env collation db user shopId dateFrom dateTo now) :
    Unambiguous env collation db' user shopId dateFrom dateTo now where
  shop shop hshop hmay period hcomputable := by
    rw [h.barbershop?_eq] at hshop
    exact (hdb.shop shop hshop hmay period (hcomputable.reordered h.symm)).reordered h
  barber barber hbarber huser period hcomputable := by
    rw [h.barberZone_eq] at hcomputable
    obtain ⟨honly, hone⟩ := hdb.barber barber (h.barbers.mem_iff.mpr hbarber) huser
      period (hcomputable.reordered h.symm)
    refine ⟨?_, hone.reordered h⟩
    intro other hother
    exact honly other (h.barbers.mem_iff.mpr hother)

/-- The only row of an account is found in every order. -/
theorem find?_reordered {barber : Barber} (h : db.Reordered db')
    (hbarber : barber ∈ db.barbers) (huser : barber.userId = user.id)
    (honly : ∀ other ∈ db.barbers, other.userId = user.id → other = barber) :
    db'.barbers.find? (fun b => b.userId = user.id) = some barber := by
  cases hfound : db'.barbers.find? (fun b => b.userId = user.id) with
  | none =>
      rw [List.find?_eq_none] at hfound
      exact absurd (decide_eq_true huser)
        (hfound barber (h.barbers.mem_iff.mp hbarber))
  | some other =>
      have hother : other ∈ db.barbers :=
        h.barbers.mem_iff.mpr (List.mem_of_find?_eq_some hfound)
      rw [honly other hother (by simpa using List.find?_some hfound)]

/-- What is unambiguous is the same in another order. -/
theorem shopDashboard?_reordered {d : ShopDashboard}
    (hdb : db.Keyed) (h : db.Reordered db')
    (hclear : Unambiguous env collation db user shopId dateFrom dateTo now)
    (hd : shopDashboard? env collation db user shopId dateFrom dateTo now =
      some d) :
    shopDashboard? env collation db' user shopId dateFrom dateTo now = some d := by
  obtain ⟨shop, f, top, hshop, hmay, hf, htop, rfl⟩ :=
    shopDashboard?_eq_some_iff.mp hd
  have hone := hclear.shop shop hshop hmay f.period (hf.computable hdb)
  refine shopDashboard?_eq_some_iff.mpr
    ⟨shop, _, top, ?_, hmay, hf.reordered h hone, htop.reordered hdb h,
      (shopPayload_reordered h hf.counts top).symm⟩
  rw [h.barbershop?_eq]
  exact hshop

theorem barberDashboard?_reordered {d : BarberDashboard}
    (hdb : db.Keyed) (h : db.Reordered db')
    (hclear : Unambiguous env collation db user shopId dateFrom dateTo now)
    (hd : barberDashboard? env collation db user dateFrom dateTo now = some d) :
    barberDashboard? env collation db' user dateFrom dateTo now = some d := by
  obtain ⟨barber, f, hfound, hf, rfl⟩ := barberDashboard?_eq_some_iff.mp hd
  have hbarber : barber ∈ db.barbers := List.mem_of_find?_eq_some hfound
  have huser : barber.userId = user.id := by simpa using List.find?_some hfound
  obtain ⟨honly, hone⟩ :=
    hclear.barber barber hbarber huser f.period (hf.computable hdb)
  have hf' := hf.reordered h hone
  rw [← h.barberZone_eq] at hf'
  refine barberDashboard?_eq_some_iff.mpr
    ⟨barber, _, find?_reordered h hbarber huser honly, hf', ?_⟩
  rw [h.barberZone_eq, barberPayload_reordered h hf.counts]

/-- Two payloads, each of which is the other one if it is there, are one. -/
theorem option_eq_of_some {α : Type} {x y : Option α}
    (h : ∀ a, x = some a → y = some a) (h' : ∀ a, y = some a → x = some a) :
    x = y := by
  ext a
  exact ⟨h a, h' a⟩

theorem Unambiguous.orderFree (hdb : db.Keyed)
    (hclear : Unambiguous env collation db user shopId dateFrom dateTo now) :
    OrderFree env collation db user shopId dateFrom dateTo now := by
  have hshop : ∀ db', db.Reordered db' →
      shopDashboard? env collation db user shopId dateFrom dateTo now =
        shopDashboard? env collation db' user shopId dateFrom dateTo now := by
    intro db' h
    apply option_eq_of_some
    · exact fun _ => shopDashboard?_reordered hdb h hclear
    · exact fun _ => shopDashboard?_reordered (hdb.reordered h) h.symm
        (hclear.reordered h)
  have hbarber : ∀ db', db.Reordered db' →
      barberDashboard? env collation db user dateFrom dateTo now =
        barberDashboard? env collation db' user dateFrom dateTo now := by
    intro db' h
    apply option_eq_of_some
    · exact fun _ => barberDashboard?_reordered hdb h hclear
    · exact fun _ => barberDashboard?_reordered (hdb.reordered h) h.symm
        (hclear.reordered h)
  constructor
  · intro db₁ db₂ h₁ h₂
    exact (hshop db₁ h₁).symm.trans (hshop db₂ h₂)
  · intro db₁ db₂ h₁ h₂
    exact (hbarber db₁ h₁).symm.trans (hbarber db₂ h₂)

/-! ## Orders that tell rows apart -/

/-- The service of the first appointment is the first one joined. -/
theorem servicesBooked_cons
    (hdb : db.Keyed) {a : Appointment} {rest : List Appointment} {s : Service}
    (hrows : db.appointments = a :: rest)
    (hrow : (a, s) ∈ db.servicesBooked scope period) :
    ∃ others, db.servicesBooked scope period = (a, s) :: others := by
  obtain ⟨⟨b, hbooked⟩, hstatus, hs, hservice⟩ := mem_servicesBooked.mp hrow
  obtain ⟨-, hb, hjoined⟩ := mem_booked.mp hbooked
  have hbarbers : b ∈ db.barbers.filter fun b => b.id = a.barberId ∧
      scope a b = true ∧ period.1 ≤ a.startTime ∧ a.startTime < period.2 :=
    List.mem_filter.mpr ⟨hb, decide_eq_true hjoined⟩
  obtain ⟨b', barbers, hfirst⟩ := List.exists_cons_of_ne_nil
    (List.ne_nil_of_mem hbarbers)
  have hservices : (db.services.filter fun s => s.id = a.serviceId) = [s] := by
    have hlookup : lookup Service.id db.services a.serviceId = some s :=
      hdb.services.lookup_eq_some_iff.mpr ⟨hs, hservice⟩
    rw [hdb.services.filter_eq_lookup, hlookup]
    rfl
  rw [servicesBooked, booked, hrows, List.flatMap_cons, hfirst, List.map_cons,
    List.cons_append, List.filter_cons_of_pos (by simpa using hstatus),
    List.flatMap_cons, hservices]
  exact ⟨_, rfl⟩

/-- A service that leads is shown if one of its appointments comes first. -/
theorem popularService_cons
    (hdb : db.Keyed) {a : Appointment} {rest : List Appointment} {s : Service}
    {g : (Uuid × String) × ℕ} (hrows : db.appointments = a :: rest)
    (hrow : (a, s) ∈ db.servicesBooked scope period)
    (hkey : g.1 = (s.id, s.name)) (hg : db.Leads collation scope period g) :
    db.popularService collation scope period = some ⟨g.1.1, g.1.2, g.2⟩ := by
  obtain ⟨others, hfirst⟩ := servicesBooked_cons hdb hrows hrow
  obtain ⟨hmem, hleads⟩ := hg
  rw [serviceCounts, hfirst] at hmem hleads
  obtain ⟨groups, hgroups⟩ := groupBy_cons_of_mem hmem hkey
  rw [hgroups] at hleads
  rw [popularService, serviceCounts, hfirst, hgroups, first_cons_of_le]
  · rfl
  · intro c hc
    exact hleads c (List.mem_cons_of_mem g hc)

theorem exists_order_showing
    (hdb : db.Keyed) {g : (Uuid × String) × ℕ}
    (hg : db.Leads collation scope period g) :
    ∃ db', db.Reordered db' ∧ db'.barbers = db.barbers ∧
      db'.popularService collation scope period =
        some ⟨g.1.1, g.1.2, g.2⟩ := by
  obtain ⟨a, s, hrow, hkey⟩ := mem_serviceCounts_key hg.1
  obtain ⟨⟨b, hbooked⟩, -⟩ := mem_servicesBooked.mp hrow
  have ha : a ∈ db.appointments := (mem_booked.mp hbooked).1
  have h : db.Reordered
      { db with appointments := a :: db.appointments.erase a } :=
    ⟨.refl _, .refl _, List.perm_cons_erase ha, rfl⟩
  refine ⟨_, h, rfl, ?_⟩
  exact popularService_cons (hdb.reordered h) rfl
    ((servicesBooked_perm h).mem_iff.mp hrow) hkey (leads_reordered h hg)

/-- A shop's dashboard that can be computed is answered. -/
theorem exists_shopDashboard
    (hdb : db.Keyed) {shop : Barbershop} (hshop : db.barbershop? shopId = some shop)
    (hmay : user.role = .admin ∨ shop.ownerId = user.id)
    (hcomputable : Computable db dateFrom dateTo now (shopScope shopId)
      (env.shopTimezone shop) period) (collation : Collation) :
    ∃ d, shopDashboard? env collation db user shopId dateFrom dateTo now = some d ∧
      d.mostPopularService =
        db.popularService collation (shopScope shopId) period := by
  obtain ⟨f, rfl, hf⟩ := hcomputable.exists_figuresOf hdb collation
  obtain ⟨top, htop⟩ := hdb.exists_topOf hcomputable.revenue
  refine ⟨_, shopDashboard?_eq_some_iff.mpr
    ⟨shop, f, top, hshop, hmay, hf, htop, rfl⟩, ?_⟩
  exact hf.popular

theorem exists_barberDashboard
    (hdb : db.Keyed) {barber : Barber}
    (hfound : db.barbers.find? (fun b => b.userId = user.id) = some barber)
    (hcomputable : Computable db dateFrom dateTo now (barberScope barber.id)
      (db.barberZone env barber) period) (collation : Collation) :
    ∃ d, barberDashboard? env collation db user dateFrom dateTo now = some d ∧
      d.barberId = barber.id ∧ d.mostPopularService =
        db.popularService collation (barberScope barber.id) period := by
  obtain ⟨f, rfl, hf⟩ := hcomputable.exists_figuresOf hdb collation
  refine ⟨_, barberDashboard?_eq_some_iff.mpr ⟨barber, f, hfound, hf, rfl⟩, rfl, ?_⟩
  exact hf.popular

/-- A row of an account that is scanned first is found first. -/
theorem exists_order_finding
    {barber : Barber} (hbarber : barber ∈ db.barbers)
    (huser : barber.userId = user.id) :
    ∃ db', db.Reordered db' ∧
      db'.barbers.find? (fun b => b.userId = user.id) = some barber := by
  refine ⟨{ db with barbers := barber :: db.barbers.erase barber },
    ⟨List.perm_cons_erase hbarber, .refl _, .refl _, rfl⟩, ?_⟩
  exact List.find?_cons_of_pos (decide_eq_true huser)

/-- Services that lead and are shown alike are one. -/
theorem eq_of_shown
    {g g' : (Uuid × String) × ℕ} {shown shown' : Option PopularService}
    (h : shown = some ⟨g.1.1, g.1.2, g.2⟩)
    (h' : shown' = some ⟨g'.1.1, g'.1.2, g'.2⟩) (hsame : shown = shown') :
    g = g' := by
  rw [h, h', Option.some.injEq, PopularService.mk.injEq] at hsame
  exact Prod.ext (Prod.ext hsame.1 hsame.2.1) hsame.2.2

theorem OrderFree.unambiguous (hdb : db.Keyed)
    (hfree : OrderFree env collation db user shopId dateFrom dateTo now) :
    Unambiguous env collation db user shopId dateFrom dateTo now where
  shop shop hshop hmay period hcomputable := by
    have hshown : ∀ db', db.Reordered db' → ∃ d,
        shopDashboard? env collation db' user shopId dateFrom dateTo now = some d ∧
          d.mostPopularService =
            db'.popularService collation (shopScope shopId) period := by
      intro db' h
      apply exists_shopDashboard (hdb.reordered h) _ hmay (hcomputable.reordered h)
      rw [h.barbershop?_eq]
      exact hshop
    intro g g' hg hg'
    obtain ⟨db₁, h₁, -, hshow₁⟩ := exists_order_showing hdb hg
    obtain ⟨db₂, h₂, -, hshow₂⟩ := exists_order_showing hdb hg'
    obtain ⟨d₁, hd₁, hpopular₁⟩ := hshown db₁ h₁
    obtain ⟨d₂, hd₂, hpopular₂⟩ := hshown db₂ h₂
    have hsame := hfree.shop db₁ db₂ h₁ h₂
    rw [hd₁, hd₂, Option.some.injEq] at hsame
    exact eq_of_shown (hpopular₁.trans hshow₁) (hpopular₂.trans hshow₂)
      (congrArg ShopDashboard.mostPopularService hsame)
  barber barber hbarber huser period hcomputable := by
    have hshown : ∀ db', db.Reordered db' →
        db'.barbers.find? (fun b => b.userId = user.id) = some barber →
        ∃ d, barberDashboard? env collation db' user dateFrom dateTo now = some d ∧
          d.barberId = barber.id ∧ d.mostPopularService =
            db'.popularService collation (barberScope barber.id) period := by
      intro db' h hfound
      apply exists_barberDashboard (hdb.reordered h) hfound
      rw [h.barberZone_eq]
      exact hcomputable.reordered h
    have honly : ∀ other ∈ db.barbers, other.userId = user.id → other = barber := by
      intro other hother hsameUser
      obtain ⟨db₁, h₁, hfound₁⟩ := exists_order_finding hbarber huser
      obtain ⟨db₂, h₂, hfound₂⟩ := exists_order_finding hother hsameUser
      obtain ⟨d, hd, hid, -⟩ := hshown db₁ h₁ hfound₁
      rw [hfree.barber db₁ db₂ h₁ h₂, barberDashboard?_eq_some_iff] at hd
      obtain ⟨barber', f, hfound, -, rfl⟩ := hd
      obtain rfl := Option.some.inj (hfound₂.symm.trans hfound)
      exact hdb.barbers.eq_of_mem hother hbarber hid
    refine ⟨honly, ?_⟩
    intro g g' hg hg'
    obtain ⟨db₁, h₁, -, hshow₁⟩ := exists_order_showing hdb hg
    obtain ⟨db₂, h₂, -, hshow₂⟩ := exists_order_showing hdb hg'
    obtain ⟨d₁, hd₁, -, hpopular₁⟩ :=
      hshown db₁ h₁ (find?_reordered h₁ hbarber huser honly)
    obtain ⟨d₂, hd₂, -, hpopular₂⟩ :=
      hshown db₂ h₂ (find?_reordered h₂ hbarber huser honly)
    have hsame := hfree.barber db₁ db₂ h₁ h₂
    rw [hd₁, hd₂, Option.some.injEq] at hsame
    exact eq_of_shown (hpopular₁.trans hshow₁) (hpopular₂.trans hshow₂)
      (congrArg BarberDashboard.mostPopularService hsame)

end

/-- The dashboards are the same in every order of the rows exactly if no `LIMIT 1`
has rows to choose from. -/
theorem orderFree_iff_unambiguous
    (env : Env) (collation : Collation) (db : Database) (user : User)
    (shopId : Uuid) (dateFrom dateTo : Option ℤ) (now : ℤ) (hvalid : db.Valid) :
    OrderFree env collation db user shopId dateFrom dateTo now ↔
      Unambiguous env collation db user shopId dateFrom dateTo now :=
  ⟨OrderFree.unambiguous hvalid.keyed, Unambiguous.orderFree hvalid.keyed⟩

/-! ## The sample shop -/

theorem preorders_characters :
    Preorders fun a b : String => decide (a ≤ b) = true := by
  constructor
  · intro a b
    simpa using String.le_total a b
  · intro a b c hab hbc
    simp only [decide_eq_true_eq] at hab hbc ⊢
    exact String.le_trans hab hbc

theorem antisymm_characters {a b : String} (hab : decide (a ≤ b) = true)
    (hba : decide (b ≤ a) = true) : a = b := by
  simp only [decide_eq_true_eq] at hab hba
  exact String.le_antisymm hab hba

/-- Names in the order of their characters. -/
def byCharacter : Collation where
  le a b := a ≤ b
  preorders := preorders_characters
  antisymm := @antisymm_characters

/-- The barber of one shop, with one booking. -/
theorem orderFree_bookedDb :
    OrderFree Sample.env byCharacter Sample.bookedDb Sample.stylist 10
      (some (Sample.clock 0 0)) (some (Sample.clock 20 0)) (Sample.clock 12 0) := by
  refine (orderFree_iff_unambiguous Sample.env byCharacter Sample.bookedDb
    Sample.stylist 10 _ _ _ Sample.bookedDb_valid).mpr ⟨?_, ?_⟩
  · intro shop hshop hmay
    obtain rfl := Option.some.inj hshop
    exact absurd hmay (by decide)
  · intro barber hbarber _ period hcomputable
    obtain rfl := List.mem_singleton.mp hbarber
    have hperiod : (Sample.clock 0 0, Sample.clock 20 0) = period :=
      Except.ok.inj hcomputable.resolves
    constructor
    · intro other hother _
      exact List.mem_singleton.mp hother
    · rintro g g' ⟨hg, -⟩ ⟨hg', -⟩
      have hcounts : Sample.bookedDb.serviceCounts (barberScope 20) period =
          [((30, "Haircut"), 1)] := by
        rw [← hperiod]
        decide +kernel
      change g ∈ Sample.bookedDb.serviceCounts (barberScope 20) period at hg
      change g' ∈ Sample.bookedDb.serviceCounts (barberScope 20) period at hg'
      rw [hcounts, List.mem_singleton] at hg hg'
      rw [hg, hg']

/-- The stylist also has a row at the owner's second shop. -/
def twoRowsDb : Database :=
  { Sample.db with
    barbershops := [Sample.shop, rivalShop]
    barbers := [Sample.barber, { Sample.barber with id := 21, shopId := 11 }] }

/-- The same rows, in the other order. -/
def twoRowsDb' : Database :=
  { twoRowsDb with barbers := twoRowsDb.barbers.reverse }

theorem twoRowsDb_valid : twoRowsDb.Valid := by
  decide +kernel

/-- Which shop the stylist sees depends on which row comes first. -/
theorem not_orderFree_twoRowsDb :
    twoRowsDb.Valid ∧
      ¬ OrderFree Sample.env byCharacter twoRowsDb Sample.stylist 10
        (some (Sample.clock 0 0)) (some (Sample.clock 20 0)) (Sample.clock 12 0) := by
  refine ⟨twoRowsDb_valid, ?_⟩
  intro hfree
  have hsame := hfree.barber twoRowsDb twoRowsDb'
    ⟨.refl _, .refl _, .refl _, rfl⟩
    ⟨(List.reverse_perm _).symm, .refl _, .refl _, rfl⟩
  revert hsame
  decide +kernel

end BarberHub
