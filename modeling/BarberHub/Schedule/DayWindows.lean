import BarberHub.Analytics.Dashboards

/-!
# Where a local day begins and ends

Three modules turn a calendar day into instants: `local_day_bounds` of the
availability engine, `_local_midnight` of the closures and `_today_count` of the
dashboards.  They agree, the days of a range tile its window, and a closure is
refused for exactly the appointments that meet one of its days.
-/

namespace BarberHub

open HalfOpen ReadCommitted Program

/-- The dates of the calendar begin one after the other. -/
def MidnightsIncreasing (tz : Zone) : Prop :=
  ∀ day day', 1 ≤ day → day < day' → day' ≤ dateMax →
    dayStart tz day < dayStart tz day'

/-- From `_local_midnight(day)` to `_local_midnight(day, days_after=1)`. -/
def midnightWindow (tz : Zone) (first last : ℤ) : Except Raised (ℤ × ℤ) := do
  let windowStart ← localMidnight first
  let windowEnd ← localMidnight last 1
  pure (tz.toInstant windowStart, tz.toInstant windowEnd)

/-- The bounds that `local_day_bounds` answers. -/
def dayBounds (tz : Zone) (day : ℤ) : Except Raised (ℤ × ℤ) := do
  let window ← localDayBounds day tz
  pure (window.start, window.stop)

theorem midnightWindow_eq_ok_iff {tz : Zone} {first last : ℤ} {w : ℤ × ℤ} :
    midnightWindow tz first last = .ok w ↔
      first ≤ dateMax ∧ last < dateMax ∧
        w = (dayStart tz first, dayStart tz (last + 1)) := by
  rw [midnightWindow, localMidnight, localMidnight, add_zero]
  by_cases hfirst : dateMax < first
  · rw [if_pos hfirst]
    simp only [bind, Except.bind, reduceCtorEq, false_iff]
    omega
  · rw [if_neg hfirst]
    by_cases hlast : dateMax < last + 1
    · rw [if_pos hlast]
      simp only [bind, Except.bind, reduceCtorEq, false_iff]
      omega
    · rw [if_neg hlast]
      simp only [bind, Except.bind, pure, Except.pure, Except.ok.injEq]
      constructor
      · rintro rfl
        exact ⟨by omega, by omega, rfl⟩
      · rintro ⟨-, -, rfl⟩
        rfl

/-- The day of a dashboard is that of the closures, errors included. -/
theorem todayBounds_eq {tz : Zone} {now w : ℤ} (h : toLocal tz now = .ok w) :
    todayBounds tz now = midnightWindow tz (dateOf w) (dateOf w) := by
  obtain ⟨hreading, rfl⟩ := representable_eq_ok_iff.mp h
  obtain ⟨hday, hlast⟩ := dateOf_mem_calendar hreading
  generalize tz.toWall now = w at h hday hlast
  rw [midnightWindow, localMidnight, localMidnight,
    if_neg (by omega : ¬ dateMax < dateOf w + 0), add_zero]
  simp only [todayBounds, h, midnight_add_oneDay, bind, Except.bind]
  by_cases hnext : dateMax < dateOf w + 1
  · rw [if_pos hnext, representable, if_neg]
    rw [representable_midnight_iff]
    omega
  · rw [if_neg hnext, representable, if_pos]
    · rfl
    · rw [representable_midnight_iff]
      omega

section

variable {tz : Zone} {day first last x : ℤ}

/-- The day of the availability engine is that of the closures, where UTC can
hold its bounds. -/
theorem dayBounds_eq (h : MidnightsIncreasing tz) (hday : 1 ≤ day)
    (hlast : day ≤ dateMax)
    (hbounds : day < dateMax →
      Representable (dayStart tz day) ∧ Representable (dayStart tz (day + 1))) :
    dayBounds tz day = midnightWindow tz day day := by
  by_cases hnext : dateMax < day + 1
  · rw [dayBounds, localDayBounds, midnightWindow, localMidnight, localMidnight,
      if_pos hnext, if_neg (by omega : ¬ dateMax < day + 0), if_pos hnext]
    rfl
  · obtain ⟨hstart, hstop⟩ := hbounds (by omega)
    have hlt : dayStart tz day < dayStart tz (day + 1) :=
      h day (day + 1) hday (by omega) (by omega)
    have hok : localDayBounds day tz =
        .ok ⟨dayStart tz day, dayStart tz (day + 1), hlt⟩ :=
      localDayBounds_eq_ok_iff.mpr ⟨by omega, hstart, hstop, rfl, rfl⟩
    have hwindow : midnightWindow tz day day =
        .ok (dayStart tz day, dayStart tz (day + 1)) :=
      midnightWindow_eq_ok_iff.mpr ⟨hlast, by omega, rfl⟩
    rw [hwindow, dayBounds, hok]
    rfl

/-- A day of a range begins and ends in the window of the range. -/
theorem dayStart_bounds (h : MidnightsIncreasing tz) (hfirst : 1 ≤ first)
    (hlast : last < dateMax) (hday : first ≤ day ∧ day ≤ last) :
    dayStart tz first ≤ dayStart tz day ∧
      dayStart tz (day + 1) ≤ dayStart tz (last + 1) := by
  constructor
  · rcases hday.1.eq_or_lt with rfl | hlt
    · exact le_rfl
    · exact (h first day hfirst hlt (by omega)).le
  · rcases hday.2.eq_or_lt with rfl | hlt
    · exact le_rfl
    · exact (h (day + 1) (last + 1) (by omega) (by omega) (by omega)).le

/-- Every day of a range whose window UTC can hold has bounds. -/
theorem exists_localDayBounds (h : MidnightsIncreasing tz) (hfirst : 1 ≤ first)
    (hlast : last < dateMax)
    (hbindable : Bindable (dayStart tz first, dayStart tz (last + 1)))
    (hday : first ≤ day ∧ day ≤ last) :
    ∃ I, localDayBounds day tz = .ok I ∧ I.start = dayStart tz day ∧
      I.stop = dayStart tz (day + 1) := by
  obtain ⟨hlow, hhigh⟩ := dayStart_bounds h hfirst hlast hday
  have hlt : dayStart tz day < dayStart tz (day + 1) :=
    h day (day + 1) (by omega) (by omega) (by omega)
  obtain ⟨hstart, hstop⟩ := hbindable
  refine ⟨⟨dayStart tz day, dayStart tz (day + 1), hlt⟩, ?_, rfl, rfl⟩
  refine localDayBounds_eq_ok_iff.mpr ⟨by omega, ?_, ?_, rfl, rfl⟩
  · exact ⟨hstart.1.trans hlow, hlt.le.trans (hhigh.trans hstop.2)⟩
  · exact ⟨hstart.1.trans (hlow.trans hlt.le), hhigh.trans hstop.2⟩

/-- The days of a range tile its window. -/
theorem mem_window_iff (h : MidnightsIncreasing tz) (hfirst : 1 ≤ first)
    (hle : first ≤ last) (hlast : last < dateMax)
    (hbindable : Bindable (dayStart tz first, dayStart tz (last + 1))) :
    dayStart tz first ≤ x ∧ x < dayStart tz (last + 1) ↔
      ∃! day, (first ≤ day ∧ day ≤ last) ∧
        ∃ I, localDayBounds day tz = .ok I ∧ x ∈ I := by
  constructor
  · rintro ⟨hlow, hhigh⟩
    obtain ⟨day, hday, htile⟩ := exists_tile hle hlow hhigh
    obtain ⟨I, hI, hstart, hstop⟩ :=
      exists_localDayBounds h hfirst hlast hbindable hday
    refine ⟨day, ⟨hday, I, hI, ?_⟩, ?_⟩
    · rw [Interval.mem_def, hstart, hstop]
      exact htile
    · rintro day' ⟨hday', J, hJ, hx⟩
      obtain ⟨-, -, -, hstart', hstop'⟩ := localDayBounds_eq_ok_iff.mp hJ
      rw [Interval.mem_def, hstart', hstop'] at hx
      -- of two days, the earlier one ends before the later one begins
      rcases lt_trichotomy day' day with hlt | heq | hgt
      · have hend : dayStart tz (day' + 1) ≤ dayStart tz (day - 1 + 1) :=
          (dayStart_bounds h hfirst (by omega) ⟨hday'.1, by omega⟩).2
        rw [sub_add_cancel] at hend
        exact absurd (hx.2.trans_le (hend.trans htile.1)) (lt_irrefl x)
      · exact heq
      · have hend : dayStart tz (day + 1) ≤ dayStart tz (day' - 1 + 1) :=
          (dayStart_bounds h hfirst (by omega) ⟨hday.1, by omega⟩).2
        rw [sub_add_cancel] at hend
        exact absurd (htile.2.trans_le (hend.trans hx.1)) (lt_irrefl x)
  · rintro ⟨day, ⟨hday, I, hI, hx⟩, -⟩
    obtain ⟨-, -, -, hstart, hstop⟩ := localDayBounds_eq_ok_iff.mp hI
    obtain ⟨hlow, hhigh⟩ := dayStart_bounds h hfirst hlast hday
    rw [Interval.mem_def, hstart, hstop] at hx
    exact ⟨hlow.trans hx.1, hx.2.trans_le hhigh⟩

/-- A nonempty span meets the window of a range exactly when it meets one of the
days. -/
theorem overlap_window_iff (h : MidnightsIncreasing tz) (hfirst : 1 ≤ first)
    (hle : first ≤ last) (hlast : last < dateMax)
    (hbindable : Bindable (dayStart tz first, dayStart tz (last + 1)))
    {start stop : ℤ} (hspan : start < stop) :
    Overlap start stop (dayStart tz first) (dayStart tz (last + 1)) ↔
      ∃ day I, (first ≤ day ∧ day ≤ last) ∧ localDayBounds day tz = .ok I ∧
        Overlap start stop I.start I.stop := by
  have hwindow : dayStart tz first < dayStart tz (last + 1) :=
    h first (last + 1) hfirst (by omega) (by omega)
  constructor
  · intro hoverlap
    obtain ⟨x, hx, hin⟩ := (overlap_iff_exists hspan hwindow).mp hoverlap
    obtain ⟨day, ⟨hday, I, hI, hmem⟩, -⟩ :=
      (mem_window_iff h hfirst hle hlast hbindable).mp hin
    exact ⟨day, I, hday, hI,
      (overlap_iff_exists hspan I.start_lt_stop).mpr ⟨x, hx, hmem⟩⟩
  · rintro ⟨day, I, hday, hI, hoverlap⟩
    obtain ⟨-, -, -, hstart, hstop⟩ := localDayBounds_eq_ok_iff.mp hI
    obtain ⟨hlow, hhigh⟩ := dayStart_bounds h hfirst hlast hday
    rw [hstart, hstop] at hoverlap
    exact overlap_comm.mp ((overlap_comm.mp hoverlap).mono hlow hhigh)

end

/-! ## Closures -/

/-- `_is_closed` would be true of the day, with this closure and no other. -/
def ClosureCreate.Closes (payload : ClosureCreate) (shopId id : Uuid)
    (day : ℤ) : Prop :=
  Database.ClosedOn { shopClosures := [payload.row shopId id] } shopId day

theorem ClosureCreate.closes_iff {payload : ClosureCreate} {shopId id : Uuid}
    {day : ℤ} :
    payload.Closes shopId id day ↔
      payload.startDate ≤ day ∧ day ≤ payload.endDate := by
  simp [Closes, Database.ClosedOn, row]

/-- What `create_closure` answers with some clashing appointments. -/
def refusedClosure (clashing : List Appointment) : Raised :=
  conflict "Customers already have appointments during that period"
    [("conflicting_appointments",
        .ids ((clashing.map Appointment.id).take 20)),
      ("count", .number (clashing.map Appointment.id).length)]

/-- The run of a request whose window the database can take. -/
theorem run_createClosure {env : Env} {user : User} {shop : Barbershop}
    {payload : ClosureCreate} {id : Uuid} {db : Database} {window : ℤ × ℤ}
    (hshop : db.barbershop? shop.id = some shop)
    (hmay : canManageShop (some user) shop = true)
    (hwindow : midnightWindow (env.shopTimezone shop) payload.startDate
      payload.endDate = .ok window)
    (hbindable : Bindable window) :
    (createClosure env user shop.id payload id).run db =
      let clashing := db.clashes window.1 window.2 (db.AtShop shop.id)
      if clashing = [] then
        (commitOrConflict "That closure is already recorded"
          (insertClosure (payload.row shop.id id))).run db
      else (.error (refusedClosure clashing), db) := by
  have hload : (getShopOr404 shop.id (some user)).run db = (.ok shop, db) :=
    run_getShopOr404_eq_ok_iff.mpr ⟨hshop, Or.inr hmay, rfl⟩
  rw [midnightWindow] at hwindow
  simp only [Fallible.bind_eq_ok_iff] at hwindow
  obtain ⟨windowStart, hstart, windowEnd, hend, hwindow⟩ := hwindow
  obtain rfl := Except.ok.inj hwindow
  have hfirst : bindParam ((env.shopTimezone shop).toInstant windowStart) =
      .ok ((env.shopTimezone shop).toInstant windowStart) := if_pos hbindable.1
  have hlast : bindParam ((env.shopTimezone shop).toInstant windowEnd) =
      .ok ((env.shopTimezone shop).toInstant windowEnd) := if_pos hbindable.2
  rw [createClosure, run_bind_of_ok hload, ensureCanManageShop, require,
    if_pos hmay]
  simp only [pure_eq_done, done_ok_bind, hstart, hend, hfirst, hlast,
    ofExcept_ok_bind, query_bind, run_read, require, List.map_eq_nil_iff]
  split
  · rfl
  · rfl

/-- For every zone whose local midnights increase: the three modules agree on the
bounds of a day, the days of a range tile the window that `create_closure` tests,
and a closure is refused exactly for the appointments that meet a day on which it
would close the shop; wherever UTC can hold the bounds. -/
theorem localDays_agree (tz : Zone) (h : MidnightsIncreasing tz) :
    (∀ now w, toLocal tz now = .ok w →
      todayBounds tz now = midnightWindow tz (dateOf w) (dateOf w)) ∧
    (∀ day, 1 ≤ day → day ≤ dateMax →
      (day < dateMax → Bindable (dayStart tz day, dayStart tz (day + 1))) →
      dayBounds tz day = midnightWindow tz day day) ∧
    (∀ day I J, localDayBounds day tz = .ok I →
      localDayBounds (day + 1) tz = .ok J → I.stop = J.start) ∧
    (∀ first last window, 1 ≤ first → first ≤ last →
      midnightWindow tz first last = .ok window → Bindable window →
      ∀ x, window.1 ≤ x ∧ x < window.2 ↔
        ∃! day, (first ≤ day ∧ day ≤ last) ∧
          ∃ I, localDayBounds day tz = .ok I ∧ x ∈ I) ∧
    ∀ (env : Env) (user : User) (shop : Barbershop) (payload : ClosureCreate)
      (id : Uuid) (db : Database) (window : ℤ × ℤ),
      env.shopTimezone shop = tz → db.barbershop? shop.id = some shop →
      canManageShop (some user) shop = true →
      1 ≤ payload.startDate → payload.startDate ≤ payload.endDate →
      midnightWindow tz payload.startDate payload.endDate = .ok window →
      Bindable window →
      ∃ clashing : List Appointment, clashing.Sublist db.appointments ∧
        (∀ a ∈ db.appointments, a.startTime < a.endTime →
          (a ∈ clashing ↔ db.AtShop shop.id a = true ∧
            a.status.blocksSlot = true ∧
            ∃ day I, payload.Closes shop.id id day ∧
              localDayBounds day tz = .ok I ∧
              Overlap a.startTime a.endTime I.start I.stop)) ∧
        (createClosure env user shop.id payload id).run db =
          if clashing = [] then
            (commitOrConflict "That closure is already recorded"
              (insertClosure (payload.row shop.id id))).run db
          else (.error (refusedClosure clashing), db) := by
  refine ⟨fun now w => todayBounds_eq, fun day => dayBounds_eq h, ?_, ?_, ?_⟩
  · intro day I J hI hJ
    obtain ⟨-, -, -, -, hstop⟩ := localDayBounds_eq_ok_iff.mp hI
    obtain ⟨-, -, -, hstart, -⟩ := localDayBounds_eq_ok_iff.mp hJ
    rw [hstop, hstart]
  · intro first last window hfirst hle hwindow hbindable x
    obtain ⟨-, hlast, rfl⟩ := midnightWindow_eq_ok_iff.mp hwindow
    exact mem_window_iff h hfirst hle hlast hbindable
  · intro env user shop payload id db window htz hshop hmay hfirst hle hwindow
      hbindable
    subst htz
    refine ⟨db.clashes window.1 window.2 (db.AtShop shop.id),
      List.filter_sublist, ?_, run_createClosure hshop hmay hwindow hbindable⟩
    obtain ⟨-, hlast, rfl⟩ := midnightWindow_eq_ok_iff.mp hwindow
    intro a ha hspan
    have hmeets := overlap_window_iff h hfirst hle hlast hbindable hspan
    simp only [Database.clashes, List.mem_filter, decide_eq_true_eq,
      ClosureCreate.closes_iff]
    rw [hmeets, and_iff_right ha]

/-- A closure of the sample shop on the Monday. -/
def mondayClosure : ClosureCreate := ⟨Sample.monday, Sample.monday, none⟩

theorem midnightsIncreasing_fixed (key : String) (offset : ℤ) :
    MidnightsIncreasing (.fixed key offset) := by
  intro day day' _ hlt _
  rw [dayStart, dayStart, OffsetZone.Zone.toInstant_fixed,
    OffsetZone.Zone.toInstant_fixed]
  unfold midnight oneDay
  omega

/-- On a day with a booking the shop cannot be closed. -/
theorem localDays_agree_monday :
    ∃ clashing : List Appointment,
      clashing.Sublist Sample.bookedDb.appointments ∧
      (createClosure Sample.env Sample.owner 10 mondayClosure 60).run
          Sample.bookedDb =
        if clashing = [] then
          (commitOrConflict "That closure is already recorded"
            (insertClosure (mondayClosure.row 10 60))).run Sample.bookedDb
        else (.error (refusedClosure clashing), Sample.bookedDb) := by
  obtain ⟨clashing, hsublist, -, hrun⟩ :=
    (localDays_agree (.fixed "UTC" 0) (midnightsIncreasing_fixed "UTC" 0)).2.2.2.2
      Sample.env Sample.owner Sample.shop mondayClosure 60 Sample.bookedDb
      (midnight Sample.monday, midnight (Sample.monday + 1)) rfl
      (by decide +kernel) (by decide +kernel) (by decide) (by decide)
      (by decide +kernel) ⟨by decide +kernel, by decide +kernel⟩
  exact ⟨clashing, hsublist, hrun⟩

/-- Five hours ahead of UTC, the first day of the calendar has no bounds in UTC,
though the dashboards and the closures name its midnights. -/
theorem not_localDays_agree_firstDay :
    ¬ ∀ tz, MidnightsIncreasing tz → ∀ now w, Representable now →
      toLocal tz now = .ok w →
      dayBounds tz (dateOf w) = midnightWindow tz (dateOf w) (dateOf w) ∧
        dayBounds tz (dateOf w) = todayBounds tz now := by
  intro h
  have hfirst := h (.fixed "Asia/Almaty" (minutes 300))
    (midnightsIncreasing_fixed _ _) datetimeMin (datetimeMin + minutes 300)
    (by decide) (by decide +kernel)
  revert hfirst
  decide +kernel

end BarberHub
