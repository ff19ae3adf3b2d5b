import BarberHub.Schedule.Blocking
import BarberHub.Support.CivilCalendar
import BarberHub.Support.Grouping
import BarberHub.Support.Rounding

/-!
# Dashboards

`app/services/analytics.py`: the figures of a shop and of a barber over a
period.  Each of them is one grouped query.  Amounts of money are in hundredths,
and averages are decimals of 28 digits before they are rounded to hundredths.
-/

namespace BarberHub

open ReadCommitted Program Grouping Rounding CivilCalendar

/-! ## Payloads -/

structure PopularService where
  id : Uuid
  name : String
  count : ℕ
  deriving DecidableEq, Repr

structure TopBarber where
  id : Uuid
  name : String
  completed : ℕ
  revenue : ℤ
  deriving DecidableEq, Repr

structure Period where
  dateFrom : ℤ
  dateTo : ℤ
  timezone : String
  deriving DecidableEq, Repr

structure ShopDashboard where
  shopId : Uuid
  period : Period
  today : ℤ
  totalAppointments : ℕ
  todayAppointments : ℕ
  completedAppointments : ℕ
  cancelledAppointments : ℕ
  noShowAppointments : ℕ
  monthlyRevenue : ℤ
  averageTicket : ℤ
  mostPopularService : Option PopularService
  topBarber : Option TopBarber
  deriving DecidableEq, Repr

structure BarberDashboard where
  barberId : Uuid
  period : Period
  today : ℤ
  totalAppointments : ℕ
  todayAppointments : ℕ
  completedAppointments : ℕ
  cancelledAppointments : ℕ
  noShowAppointments : ℕ
  revenue : ℤ
  averageTicket : ℤ
  rating : ℤ
  reviewsCount : ℤ
  mostPopularService : Option PopularService
  deriving DecidableEq, Repr

/-! ## The period -/

/-- `month_start` and `next_month`. -/
def currentMonth (tz : Zone) (now : ℤ) : Except Raised (ℤ × ℤ) := do
  let localNow ← toLocal tz now
  let year := yearOf (dateOf localNow)
  let month := monthOf (dateOf localNow)
  let nextYear := if month = 12 then year + 1 else year
  let nextMonth := if month = 12 then 1 else month + 1
  if 9999 < nextYear then .error .valueError
  else
    .ok (dayStart tz (firstOfMonth year month),
      dayStart tz (firstOfMonth nextYear nextMonth))

/-- `_resolve_period`: the current calendar month in the shop's zone, where a
bound is not given. -/
def resolvePeriod (dateFrom dateTo : Option ℤ) (tz : Zone) (now : ℤ) :
    Except Raised (ℤ × ℤ) :=
  match dateFrom, dateTo with
  | some start, some stop => .ok (start, stop)
  | _, _ => do
      let month ← currentMonth tz now
      .ok (dateFrom.getD month.1, dateTo.getD month.2)

/-- A query with the bounds of a period as parameters. -/
def overPeriod {α : Type} (period : ℤ × ℤ) (f : Database → α) : Request α := do
  let _ ← ofExcept (bindParam period.1)
  let _ ← ofExcept (bindParam period.2)
  query f

/-! ## The queries -/

/-- A condition on an appointment and its barber. -/
abbrev Scope := Appointment → Barber → Bool

/-- `Barber.shop_id == shop_id`. -/
def shopScope (shopId : Uuid) : Scope := fun _ b => b.shopId = shopId

/-- `Appointment.barber_id == barber.id`. -/
def barberScope (barberId : Uuid) : Scope := fun a _ => a.barberId = barberId

/-- The appointments that start in the period, with their barbers. -/
def Database.booked (db : Database) (scope : Scope) (period : ℤ × ℤ) :
    List (Appointment × Barber) :=
  db.appointments.flatMap fun a =>
    (db.barbers.filter fun b => b.id = a.barberId ∧ scope a b = true ∧
      period.1 ≤ a.startTime ∧ a.startTime < period.2).map fun b => (a, b)

/-- `_status_counts`. -/
def Database.statusCounts (db : Database) (scope : Scope) (period : ℤ × ℤ) :
    List (AppointmentStatus × ℕ) :=
  groupBy (fun row => row.1.status) List.length (db.booked scope period)

/-- `counts.get(status, 0)`. -/
def countOf (counts : List (AppointmentStatus × ℕ)) (status : AppointmentStatus) :
    ℕ :=
  (counts.lookup status).getD 0

/-- The rows that earned money: `_EARNING`. -/
def Database.earning (db : Database) (scope : Scope) (period : ℤ × ℤ) :
    List (Appointment × Barber) :=
  (db.booked scope period).filter fun row => row.1.status = .completed

/-- `coalesce(sum(total_price), 0)`. -/
def sumPrices {α : Type} (appointment : α → Appointment) (rows : List α) : ℤ :=
  (rows.map fun row => (appointment row).totalPrice).sum

/-- `quantize(Decimal("0.01"))` of an amount in hundredths: it must have no more
than 28 digits. -/
def quantize (amount : ℚ) : Except Raised ℤ :=
  if |halfEven amount| < 10 ^ 28 then .ok (halfEven amount)
  else .error .invalidOperation

/-- The revenue and the average ticket. -/
def moneyOf (total : ℤ) (count : ℕ) : Except Raised (ℤ × ℤ) := do
  let average ←
    if count = 0 then .ok 0 else quantize (toDigits 28 ((total : ℚ) / count))
  let revenue ← quantize total
  pure (revenue, average)

/-- `_revenue`. -/
def revenue (scope : Scope) (period : ℤ × ℤ) : Request (ℤ × ℤ) := do
  let rows ← overPeriod period (·.earning scope period)
  ofExcept (moneyOf (sumPrices Prod.fst rows) rows.length)

/-- The bounds of the current calendar day in the shop's zone. -/
def todayBounds (tz : Zone) (now : ℤ) : Except Raised (ℤ × ℤ) := do
  let localNow ← toLocal tz now
  let nextMidnight ← representable (midnight (dateOf localNow) + oneDay)
  pure (dayStart tz (dateOf localNow), tz.toInstant nextMidnight)

/-- `_today_count`. -/
def todayCount (scope : Scope) (tz : Zone) (now : ℤ) : Request ℕ := do
  let bounds ← ofExcept (todayBounds tz now)
  overPeriod bounds fun db => (db.booked scope bounds).length

/-- The order of the database on names.  Names it does not tell apart are
equal. -/
structure Collation where
  le : String → String → Bool
  preorders : Preorders fun a b => le a b = true
  antisymm : ∀ {a b}, le a b = true → le b a = true → a = b

/-- The appointments that were not cancelled, with the services booked. -/
def Database.servicesBooked (db : Database) (scope : Scope) (period : ℤ × ℤ) :
    List (Appointment × Service) :=
  ((db.booked scope period).filter fun row => row.1.status ≠ .cancelled).flatMap
    fun row => (db.services.filter fun s => s.id = row.1.serviceId).map fun s =>
      (row.1, s)

/-- `GROUP BY Service.id, Service.name`, with `count(*)`. -/
def Database.serviceCounts (db : Database) (scope : Scope) (period : ℤ × ℤ) :
    List ((Uuid × String) × ℕ) :=
  groupBy (fun row => (row.2.id, row.2.name)) List.length
    (db.servicesBooked scope period)

/-- `ORDER BY count(*) DESC, Service.name`. -/
def Collation.byPopularity (collation : Collation) :
    (Uuid × String) × ℕ → (Uuid × String) × ℕ → Prop :=
  thenBy (fun a b => b.2 ≤ a.2) fun a b => collation.le a.1.2 b.1.2 = true

instance (collation : Collation) : DecidableRel collation.byPopularity :=
  inferInstanceAs (DecidableRel (thenBy _ _))

/-- `_popular_service`. -/
def Database.popularService (db : Database) (collation : Collation)
    (scope : Scope) (period : ℤ × ℤ) : Option PopularService :=
  (first collation.byPopularity (db.serviceCounts scope period)).map fun row =>
    ⟨row.1.1, row.1.2, row.2⟩

/-- The rows that earned money, with the accounts of the barbers. -/
def Database.earners (db : Database) (shopId : Uuid) (period : ℤ × ℤ) :
    List (Appointment × Barber × User) :=
  (db.earning (shopScope shopId) period).flatMap fun row =>
    (db.users.filter fun u => u.id = row.2.userId).map fun u => (row.1, row.2, u)

/-- `GROUP BY Barber.id, User.first_name, User.last_name`, with `count(*)` and
the sum of the prices. -/
def Database.barberEarnings (db : Database) (shopId : Uuid) (period : ℤ × ℤ) :
    List ((Uuid × String × String) × ℕ × ℤ) :=
  groupBy (fun row => (row.2.1.id, row.2.2.firstName, row.2.2.lastName))
    (fun rows => (rows.length, sumPrices Prod.fst rows)) (db.earners shopId period)

/-- `ORDER BY coalesce(sum(total_price), 0) DESC, Barber.id`. -/
def byRevenue (a b : (Uuid × String × String) × ℕ × ℤ) : Prop :=
  thenBy (fun a b => b.2.2 ≤ a.2.2) (fun a b => a.1.1 ≤ b.1.1) a b

instance : DecidableRel byRevenue :=
  inferInstanceAs (DecidableRel (thenBy _ _))

/-- `_top_barber`. -/
def topBarber (shopId : Uuid) (period : ℤ × ℤ) :
    Request (Option TopBarber) := do
  let row ← overPeriod period fun db =>
    first byRevenue (db.barberEarnings shopId period)
  match row with
  | none => pure none
  | some row => do
      let revenue ← ofExcept (quantize row.2.2)
      pure (some
        ⟨row.1.1, row.1.2.1 ++ " " ++ row.1.2.2, row.2.1, revenue⟩)

/-! ## The dashboards -/

/-- The figures that both dashboards show. -/
structure Figures where
  period : ℤ × ℤ
  counts : List (AppointmentStatus × ℕ)
  revenue : ℤ
  averageTicket : ℤ
  today : ℤ
  todayAppointments : ℕ
  mostPopularService : Option PopularService
  deriving DecidableEq, Repr

/-- The queries that both dashboards make, over the same scope. -/
def figures (collation : Collation) (scope : Scope) (tz : Zone)
    (dateFrom dateTo : Option ℤ) (now : ℤ) : Request Figures := do
  let period ← ofExcept (resolvePeriod dateFrom dateTo tz now)
  let counts ← overPeriod period (·.statusCounts scope period)
  let (revenue, averageTicket) ← revenue scope period
  let localNow ← ofExcept (toLocal tz now)
  let todayAppointments ← todayCount scope tz now
  let popular ← overPeriod period (·.popularService collation scope period)
  pure {
    period := period
    counts := counts
    revenue := revenue
    averageTicket := averageTicket
    today := dateOf localNow
    todayAppointments := todayAppointments
    mostPopularService := popular }

/-- The payload of a shop's dashboard. -/
def shopPayload (shopId : Uuid) (tz : Zone) (f : Figures)
    (top : Option TopBarber) : ShopDashboard where
  shopId := shopId
  period := ⟨f.period.1, f.period.2, tz.key⟩
  today := f.today
  totalAppointments := (f.counts.map Prod.snd).sum
  todayAppointments := f.todayAppointments
  completedAppointments := countOf f.counts .completed
  cancelledAppointments := countOf f.counts .cancelled
  noShowAppointments := countOf f.counts .noShow
  monthlyRevenue := f.revenue
  averageTicket := f.averageTicket
  mostPopularService := f.mostPopularService
  topBarber := top

/-- The payload of a barber's dashboard. -/
def barberPayload (barber : Barber) (tz : Zone) (f : Figures) :
    BarberDashboard where
  barberId := barber.id
  period := ⟨f.period.1, f.period.2, tz.key⟩
  today := f.today
  totalAppointments := (f.counts.map Prod.snd).sum
  todayAppointments := f.todayAppointments
  completedAppointments := countOf f.counts .completed
  cancelledAppointments := countOf f.counts .cancelled
  noShowAppointments := countOf f.counts .noShow
  revenue := f.revenue
  averageTicket := f.averageTicket
  rating := barber.rating
  reviewsCount := barber.reviewsCount
  mostPopularService := f.mostPopularService

def shopDashboard (env : Env) (collation : Collation) (user : User)
    (shopId : Uuid) (dateFrom dateTo : Option ℤ) (now : ℤ) :
    Request ShopDashboard := do
  let shop ← getShopOr404 shopId (some user)
  require (user.role = .admin ∨ shop.ownerId = user.id)
    (forbidden "You do not own this barbershop")
  let tz := env.shopTimezone shop
  let f ← figures collation (shopScope shopId) tz dateFrom dateTo now
  let top ← topBarber shopId f.period
  pure (shopPayload shopId tz f top)

/-- The zone of a barber's dashboard. -/
def Database.barberZone (env : Env) (db : Database) (barber : Barber) : Zone :=
  ((db.barbershop? barber.shopId).map env.shopTimezone).getD (.fixed "UTC" 0)

def barberDashboard (env : Env) (collation : Collation) (user : User)
    (dateFrom dateTo : Option ℤ) (now : ℤ) : Request BarberDashboard := do
  let found ← query fun db => db.barbers.find? fun b => b.userId = user.id
  let barber ← rowOr (notFound "You do not have a barber profile") found
  let tz ← query fun db => db.barberZone env barber
  let f ← figures collation (barberScope barber.id) tz dateFrom dateTo now
  pure (barberPayload barber tz f)

/-! ## Money -/

theorem quantize_intCast_eq_ok_iff {amount shown : ℤ} :
    quantize (amount : ℚ) = .ok shown ↔ |amount| < 10 ^ 28 ∧ shown = amount := by
  rw [quantize, halfEven_intCast]
  constructor
  · intro h
    split at h
    · exact ⟨‹_›, (Except.ok.inj h).symm⟩
    · simp at h
  · rintro ⟨hfits, rfl⟩
    exact if_pos hfits

/-- The revenue shown is the sum of the prices. -/
theorem moneyOf_eq_ok {total : ℤ} {count : ℕ} {money : ℤ × ℤ}
    (h : moneyOf total count = .ok money) :
    |total| < 10 ^ 28 ∧ money.1 = total := by
  rw [moneyOf] at h
  split at h <;>
  · simp only [Fallible.bind_eq_ok_iff] at h
    obtain ⟨_, -, _, hrevenue, hmoney⟩ := h
    obtain rfl := Except.ok.inj hmoney
    exact quantize_intCast_eq_ok_iff.mp hrevenue

/-- The average of amounts that can be shown can be shown. -/
theorem exists_quantize_average {total : ℤ} {count : ℕ} (h : 0 ≤ total)
    (hfits : total < 10 ^ 28) :
    ∃ average, quantize (toDigits 28 ((total : ℚ) / count)) = .ok average := by
  have htotal : (0 : ℚ) ≤ total := by exact_mod_cast h
  have hcount : (0 : ℚ) ≤ count := count.cast_nonneg
  have hle : (total : ℚ) / count ≤ total := by
    cases count with
    | zero => simpa using htotal
    | succ n =>
        apply div_le_self htotal
        push_cast
        linarith [(Nat.cast_nonneg n : (0 : ℚ) ≤ n)]
  have hhigh : toDigits 28 ((total : ℚ) / count) ≤ total :=
    toDigits_le (div_nonneg htotal hcount) hle hfits
  have hlow : 0 ≤ halfEven (toDigits 28 ((total : ℚ) / count)) := by
    apply le_halfEven
    rw [Int.cast_zero]
    exact toDigits_nonneg (div_nonneg htotal hcount)
  refine ⟨_, if_pos ?_⟩
  rw [abs_of_nonneg hlow]
  exact (halfEven_le hhigh).trans_lt hfits

theorem exists_moneyOf_iff {total : ℤ} {count : ℕ} (h : 0 ≤ total) :
    (∃ money, moneyOf total count = .ok money) ↔ total < 10 ^ 28 := by
  constructor
  · rintro ⟨money, hmoney⟩
    exact (le_abs_self total).trans_lt (moneyOf_eq_ok hmoney).1
  · intro hfits
    have hrevenue : quantize (total : ℚ) = .ok total := by
      rw [quantize_intCast_eq_ok_iff, abs_of_nonneg h]
      exact ⟨hfits, rfl⟩
    by_cases hcount : count = 0
    · refine ⟨(total, 0), ?_⟩
      rw [moneyOf, if_pos hcount, hrevenue]
      rfl
    · obtain ⟨average, haverage⟩ := exists_quantize_average h hfits
      refine ⟨(total, average), ?_⟩
      rw [moneyOf, if_neg hcount, haverage, hrevenue]
      rfl

/-! ## What the dashboards answer -/

/-- The bounds of a period can be sent to the database. -/
def Bindable (period : ℤ × ℤ) : Prop :=
  Representable period.1 ∧ Representable period.2

section

variable {db db' : Database} {collation : Collation} {scope : Scope} {tz : Zone}
  {dateFrom dateTo : Option ℤ} {now : ℤ} {period : ℤ × ℤ}

theorem run_overPeriod_eq_ok_iff {α : Type} {f : Database → α} {a : α} :
    (overPeriod period f).run db = (.ok a, db') ↔
      Bindable period ∧ f db = a ∧ db' = db := by
  have hbind : ∀ x y, bindParam x = .ok y ↔ Representable x ∧ x = y := by
    intro x y
    rw [bindParam]
    split <;> simp [*]
  rw [overPeriod]
  simp only [run_ofExcept_bind_eq_ok_iff, hbind, run_query, Prod.mk.injEq,
    Except.ok.injEq, Bindable]
  constructor
  · rintro ⟨_, ⟨hstart, rfl⟩, _, ⟨hstop, rfl⟩, hanswer, rfl⟩
    exact ⟨⟨hstart, hstop⟩, hanswer, rfl⟩
  · rintro ⟨⟨hstart, hstop⟩, hanswer, rfl⟩
    exact ⟨_, ⟨hstart, rfl⟩, _, ⟨hstop, rfl⟩, hanswer, rfl⟩

theorem run_revenue_eq_ok_iff {money : ℤ × ℤ} :
    (revenue scope period).run db = (.ok money, db') ↔
      Bindable period ∧ db' = db ∧
        moneyOf (sumPrices Prod.fst (db.earning scope period))
          (db.earning scope period).length = .ok money := by
  rw [revenue, run_bind_eq_ok_iff]
  simp only [run_overPeriod_eq_ok_iff, run_ofExcept, Prod.mk.injEq]
  constructor
  · rintro ⟨_, _, ⟨hbindable, rfl, rfl⟩, hmoney, rfl⟩
    exact ⟨hbindable, rfl, hmoney⟩
  · rintro ⟨hbindable, rfl, hmoney⟩
    exact ⟨_, _, ⟨hbindable, rfl, rfl⟩, hmoney, rfl⟩

theorem run_todayCount_eq_ok_iff {count : ℕ} :
    (todayCount scope tz now).run db = (.ok count, db') ↔
      db' = db ∧ ∃ bounds, todayBounds tz now = .ok bounds ∧ Bindable bounds ∧
        (db.booked scope bounds).length = count := by
  rw [todayCount, run_ofExcept_bind_eq_ok_iff]
  simp only [run_overPeriod_eq_ok_iff]
  constructor
  · rintro ⟨bounds, hbounds, hbindable, hcount, rfl⟩
    exact ⟨rfl, bounds, hbounds, hbindable, hcount⟩
  · rintro ⟨rfl, bounds, hbounds, hbindable, hcount⟩
    exact ⟨bounds, hbounds, hbindable, hcount, rfl⟩

/-- The figures are computed, and this is what they are. -/
structure FiguresOf (db : Database) (collation : Collation) (scope : Scope)
    (tz : Zone) (dateFrom dateTo : Option ℤ) (now : ℤ) (f : Figures) : Prop where
  period : resolvePeriod dateFrom dateTo tz now = .ok f.period
  bindable : Bindable f.period
  counts : f.counts = db.statusCounts scope f.period
  money : moneyOf (sumPrices Prod.fst (db.earning scope f.period))
    (db.earning scope f.period).length = .ok (f.revenue, f.averageTicket)
  today : ∃ localNow, toLocal tz now = .ok localNow ∧ f.today = dateOf localNow
  todayAppointments : ∃ bounds, todayBounds tz now = .ok bounds ∧
    Bindable bounds ∧ f.todayAppointments = (db.booked scope bounds).length
  popular : f.mostPopularService = db.popularService collation scope f.period

theorem run_figures_eq_ok_iff {f : Figures} :
    (figures collation scope tz dateFrom dateTo now).run db = (.ok f, db') ↔
      db' = db ∧ FiguresOf db collation scope tz dateFrom dateTo now f := by
  rw [figures, run_ofExcept_bind_eq_ok_iff]
  simp only [run_bind_eq_ok_iff, run_overPeriod_eq_ok_iff,
    run_revenue_eq_ok_iff, run_ofExcept_eq_ok_iff, run_todayCount_eq_ok_iff,
    pure_eq_done, run_done, Prod.mk.injEq, Except.ok.injEq]
  constructor
  · rintro ⟨period, hperiod, counts, _, ⟨hbindable, rfl, rfl⟩, ⟨revenue, average⟩,
      _, ⟨-, rfl, hmoney⟩, localNow, _, ⟨hlocal, rfl⟩, today, _, ⟨rfl, bounds,
      hbounds, hbindable', rfl⟩, popular, _, ⟨-, rfl, rfl⟩, rfl, rfl⟩
    exact ⟨rfl, hperiod, hbindable, rfl, hmoney, ⟨localNow, hlocal, rfl⟩,
      ⟨bounds, hbounds, hbindable', rfl⟩, rfl⟩
  · rintro ⟨rfl, h⟩
    obtain ⟨localNow, hlocal, htoday⟩ := h.today
    obtain ⟨bounds, hbounds, hbindable, hcount⟩ := h.todayAppointments
    refine ⟨f.period, h.period, _, _, ⟨h.bindable, rfl, rfl⟩,
      (f.revenue, f.averageTicket), _, ⟨h.bindable, rfl, h.money⟩, localNow, _,
      ⟨hlocal, rfl⟩, _, _, ⟨rfl, bounds, hbounds, hbindable, rfl⟩, _, _,
      ⟨h.bindable, rfl, rfl⟩, ?_, rfl⟩
    cases f
    simp only [Figures.mk.injEq, true_and]
    exact ⟨h.counts.symm, htoday.symm, hcount.symm, h.popular.symm⟩

/-- The barber with the greatest revenue, as it is shown. -/
def TopOf (db : Database) (shopId : Uuid) (period : ℤ × ℤ)
    (top : Option TopBarber) : Prop :=
  match first byRevenue (db.barberEarnings shopId period) with
  | none => top = none
  | some row => ∃ revenue, quantize row.2.2 = .ok revenue ∧
      top = some ⟨row.1.1, row.1.2.1 ++ " " ++ row.1.2.2, row.2.1, revenue⟩

theorem run_topBarber_eq_ok_iff
    {shopId : Uuid} {top : Option TopBarber} :
    (topBarber shopId period).run db = (.ok top, db') ↔
      db' = db ∧ Bindable period ∧ TopOf db shopId period top := by
  rw [topBarber, run_bind_eq_ok_iff, TopOf]
  simp only [run_overPeriod_eq_ok_iff]
  constructor
  · rintro ⟨row, s, ⟨hbindable, rfl, rfl⟩, h⟩
    cases hfirst : first byRevenue (s.barberEarnings shopId period) with
    | none =>
        rw [hfirst] at h
        obtain ⟨htop, rfl⟩ := Prod.mk.inj h
        exact ⟨rfl, hbindable, (Except.ok.inj htop).symm⟩
    | some row =>
        rw [hfirst] at h
        obtain ⟨revenue, hrevenue, h⟩ := run_ofExcept_bind_eq_ok_iff.mp h
        obtain ⟨htop, rfl⟩ := Prod.mk.inj h
        exact ⟨rfl, hbindable, revenue, hrevenue, (Except.ok.inj htop).symm⟩
  · rintro ⟨rfl, hbindable, h⟩
    refine ⟨_, _, ⟨hbindable, rfl, rfl⟩, ?_⟩
    cases hfirst : first byRevenue (db'.barberEarnings shopId period) with
    | none =>
        rw [hfirst] at h
        rw [h]
        rfl
    | some row =>
        rw [hfirst] at h
        obtain ⟨revenue, hrevenue, rfl⟩ := h
        exact run_ofExcept_bind_eq_ok_iff.mpr ⟨revenue, hrevenue, rfl⟩

end

theorem run_shopDashboard_eq_ok_iff
    {env : Env} {db db' : Database} {collation : Collation} {user : User}
    {shopId : Uuid} {dateFrom dateTo : Option ℤ} {now : ℤ} {d : ShopDashboard} :
    (shopDashboard env collation user shopId dateFrom dateTo now).run db =
        (.ok d, db') ↔
      db' = db ∧ ∃ shop f top, db.barbershop? shopId = some shop ∧
        (user.role = .admin ∨ shop.ownerId = user.id) ∧
        FiguresOf db collation (shopScope shopId) (env.shopTimezone shop)
          dateFrom dateTo now f ∧
        TopOf db shopId f.period top ∧
        d = shopPayload shopId (env.shopTimezone shop) f top := by
  rw [shopDashboard, run_bind_eq_ok_iff]
  simp only [run_getShopOr404_eq_ok_iff, run_require_bind_eq_ok_iff]
  simp only [run_bind_eq_ok_iff, run_figures_eq_ok_iff, run_topBarber_eq_ok_iff,
    pure_eq_done, run_done, Prod.mk.injEq, Except.ok.injEq]
  constructor
  · rintro ⟨shop, _, ⟨hshop, -, rfl⟩, hmay, f, _, ⟨rfl, hf⟩, top, _,
      ⟨rfl, -, htop⟩, rfl, rfl⟩
    exact ⟨rfl, shop, f, top, hshop, hmay, hf, htop, rfl⟩
  · rintro ⟨rfl, shop, f, top, hshop, hmay, hf, htop, rfl⟩
    have hmanages : canManageShop (some user) shop = true := by
      simpa [canManageShop] using hmay
    exact ⟨shop, _, ⟨hshop, Or.inr hmanages, rfl⟩, hmay, f, _, ⟨rfl, hf⟩, top,
      _, ⟨rfl, hf.bindable, htop⟩, rfl, rfl⟩

theorem run_barberDashboard_eq_ok_iff
    {env : Env} {db db' : Database} {collation : Collation} {user : User}
    {dateFrom dateTo : Option ℤ} {now : ℤ} {d : BarberDashboard} :
    (barberDashboard env collation user dateFrom dateTo now).run db =
        (.ok d, db') ↔
      db' = db ∧ ∃ barber f,
        db.barbers.find? (fun b => b.userId = user.id) = some barber ∧
        FiguresOf db collation (barberScope barber.id) (db.barberZone env barber)
          dateFrom dateTo now f ∧
        d = barberPayload barber (db.barberZone env barber) f := by
  rw [barberDashboard]
  simp only [query_bind, run_read, run_rowOr_bind_eq_ok_iff]
  simp only [run_bind_eq_ok_iff, run_figures_eq_ok_iff, pure_eq_done, run_done,
    Prod.mk.injEq, Except.ok.injEq]
  constructor
  · rintro ⟨barber, hbarber, f, _, ⟨rfl, hf⟩, rfl, rfl⟩
    exact ⟨rfl, barber, f, hbarber, hf, rfl⟩
  · rintro ⟨rfl, barber, f, hbarber, hf, rfl⟩
    exact ⟨barber, hbarber, f, _, ⟨rfl, hf⟩, rfl, rfl⟩

end BarberHub
