import BarberHub.Schedule.DayWindows

/-!
# The reporting period

`_resolve_period` puts together bounds that the request gives and bounds of the
current month in the shop's zone.  Nothing compares the two, so the period may
end before it begins.  This module says when it does not, and when the default
period is the current month.
-/

namespace BarberHub

open CivilCalendar OffsetZone

/-! ## Bounds -/

/-- A `datetime` of a query string, with an offset or without. -/
inductive Datetime where
  | naive (wall : ℤ)
  | aware (instant : ℤ)
  deriving DecidableEq, Repr

/-- `<`.  Python does not compare one with an offset to one without. -/
def Datetime.Before : Datetime → Datetime → Prop
  | naive w, naive w' => w < w'
  | aware x, aware x' => x < x'
  | _, _ => False

/-- `_resolve_period`, of bounds as the endpoints accept them. -/
def resolvePeriodOf (dateFrom dateTo : Option Datetime) (tz : Zone) (now : ℤ) :
    Except Raised (Datetime × Datetime) :=
  match dateFrom, dateTo with
  | some start, some stop => .ok (start, stop)
  | _, _ => do
      let month ← currentMonth tz now
      .ok (dateFrom.getD (.aware month.1), dateTo.getD (.aware month.2))

theorem resolvePeriod_eq_map {dateFrom dateTo : Option ℤ} {tz : Zone} {now : ℤ}
    (h : dateFrom = none ∨ dateTo = none) :
    resolvePeriod dateFrom dateTo tz now = (currentMonth tz now).map
      fun month => (dateFrom.getD month.1, dateTo.getD month.2) := by
  rcases h with rfl | rfl
  · rfl
  · cases dateFrom <;> rfl

theorem resolvePeriodOf_eq_map {dateFrom dateTo : Option Datetime} {tz : Zone}
    {now : ℤ} (h : dateFrom = none ∨ dateTo = none) :
    resolvePeriodOf dateFrom dateTo tz now = (currentMonth tz now).map
      fun month => (dateFrom.getD (.aware month.1),
        dateTo.getD (.aware month.2)) := by
  rcases h with rfl | rfl
  · rfl
  · cases dateFrom <;> rfl

/-- Of bounds with an offset, it is the period of the dashboards. -/
theorem resolvePeriodOf_aware (dateFrom dateTo : Option ℤ) (tz : Zone) (now : ℤ) :
    resolvePeriodOf (dateFrom.map .aware) (dateTo.map .aware) tz now =
      (resolvePeriod dateFrom dateTo tz now).map fun period =>
        (.aware period.1, .aware period.2) := by
  by_cases hnone : dateFrom = none ∨ dateTo = none
  · rw [resolvePeriod_eq_map hnone, resolvePeriodOf_eq_map (by simpa using hnone)]
    cases currentMonth tz now with
    | error e => rfl
    | ok month => cases dateFrom <;> cases dateTo <;> rfl
  · cases dateFrom with
    | none => simp at hnone
    | some start =>
        cases dateTo with
        | none => simp at hnone
        | some stop => rfl

/-! ## The month of the clock -/

/-- The clock has a local reading, in a month with a next one. -/
def HasMonth (tz : Zone) (now : ℤ) : Prop :=
  Representable (tz.toWall now) ∧ dateOf (tz.toWall now) < firstOfMonth 9999 12

/-- The first day of the local month of an instant. -/
def monthFirst (tz : Zone) (now : ℤ) : ℤ :=
  firstOfMonth (yearOf (dateOf (tz.toWall now))) (monthOf (dateOf (tz.toWall now)))

/-- The first day of the local month after that of an instant. -/
def monthNext (tz : Zone) (now : ℤ) : ℤ :=
  nextFirst (yearOf (dateOf (tz.toWall now))) (monthOf (dateOf (tz.toWall now)))

theorem firstOfMonth_le_iff {day : ℤ} (h : day ≤ dateMax) :
    firstOfMonth 9999 12 ≤ day ↔
      9999 < if monthOf day = 12 then yearOf day + 1 else yearOf day := by
  have hmonth : (yearOf day = 9999 ∧ monthOf day = 12) ↔
      firstOfMonth 9999 12 ≤ day ∧ day < nextFirst 9999 12 :=
    mem_month_iff (by decide) (by decide)
  have hend : day < nextFirst 9999 12 := by
    have hnext : nextFirst 9999 12 = dateMax + 1 := by decide
    omega
  have hyear : yearOf day ≤ 9999 := by
    by_contra hlarge
    have hbefore := (yearOf_spec day).1
    have hmono := daysBeforeYear_mono (by omega : 10000 ≤ yearOf day)
    have hlast : daysBeforeYear 10000 = dateMax := by decide
    omega
  rw [and_iff_left hend] at hmonth
  rw [← hmonth]
  split <;> omega

section

variable {tz : Zone} {dateFrom dateTo : Option Datetime} {now : ℤ}

theorem currentMonth_eq_ok_iff {month : ℤ × ℤ} :
    currentMonth tz now = .ok month ↔
      HasMonth tz now ∧ month =
        (dayStart tz (monthFirst tz now), dayStart tz (monthNext tz now)) := by
  rw [currentMonth, HasMonth, monthFirst, monthNext, nextFirst, nextMonth]
  simp only [Fallible.bind_eq_ok_iff, toLocal, representable_eq_ok_iff]
  constructor
  · rintro ⟨_, ⟨hreading, rfl⟩, h⟩
    have hday := (dateOf_mem_calendar hreading).2
    by_cases hmonth : firstOfMonth 9999 12 ≤ dateOf (tz.toWall now)
    · rw [if_pos ((firstOfMonth_le_iff hday).mp hmonth)] at h
      cases h
    · rw [if_neg (mt (firstOfMonth_le_iff hday).mpr hmonth)] at h
      refine ⟨⟨hreading, not_le.mp hmonth⟩, ?_⟩
      rw [← Except.ok.inj h]
      split <;> rfl
  · rintro ⟨⟨hreading, hmonth⟩, rfl⟩
    refine ⟨_, ⟨hreading, rfl⟩, ?_⟩
    rw [← not_le, firstOfMonth_le_iff (dateOf_mem_calendar hreading).2] at hmonth
    rw [if_neg hmonth]
    split <;> rfl

/-! ## Months and their instants -/

/-- Two readings of one month. -/
def SameMonth (w w' : ℤ) : Prop :=
  yearOf (dateOf w) = yearOf (dateOf w') ∧
    monthOf (dateOf w) = monthOf (dateOf w')

/-- The clock shows the first midnight of a day, and what comes after it, from
one instant on. -/
def CrossedOnce (tz : Zone) (day : ℤ) : Prop :=
  ∀ x, Representable (tz.toWall x) →
    (x < dayStart tz day ↔ tz.toWall x < midnight day)

theorem sameMonth_iff {w : ℤ} :
    SameMonth w (tz.toWall now) ↔
      midnight (monthFirst tz now) ≤ w ∧ w < midnight (monthNext tz now) := by
  obtain ⟨⟨hlow, hhigh⟩, -⟩ := monthOf_spec (dateOf (tz.toWall now))
  have hfirst : ∀ day, midnight day ≤ w ↔ day ≤ dateOf w := by
    intro day
    unfold midnight dateOf oneDay
    omega
  have hnext : ∀ day, w < midnight day ↔ dateOf w < day := by
    intro day
    unfold midnight dateOf oneDay
    omega
  rw [SameMonth, mem_month_iff hlow hhigh, hfirst, hnext]
  rfl

/-- A month is longer than any change of the clock. -/
theorem midnight_monthFirst_add_le (tz : Zone) (now : ℤ) :
    midnight (monthFirst tz now) + 28 * oneDay ≤ midnight (monthNext tz now) := by
  obtain ⟨⟨hlow, hhigh⟩, -⟩ := monthOf_spec (dateOf (tz.toWall now))
  have hdays := firstOfMonth_add_le (yearOf (dateOf (tz.toWall now))) hlow hhigh
  rw [monthFirst, monthNext]
  unfold midnight oneDay
  omega

/-- The month begins before it ends. -/
theorem dayStart_monthFirst_lt (hoffsets : tz.OffsetsBelow oneDay) (now : ℤ) :
    dayStart tz (monthFirst tz now) < dayStart tz (monthNext tz now) := by
  have hlong := midnight_monthFirst_add_le tz now
  have hfirst := hoffsets.wallOffset (midnight (monthFirst tz now))
  have hnext := hoffsets.wallOffset (midnight (monthNext tz now))
  unfold Zone.Below oneDay at hfirst hnext
  unfold oneDay at hlong
  rw [dayStart, dayStart, Zone.toInstant, Zone.toInstant]
  omega

/-- The default period is the current month where the clock crosses its first
midnight, and that of the next month, once. -/
theorem month_exact_iff (hoffsets : tz.OffsetsBelow oneDay) (now : ℤ) :
    (∀ x, Representable (tz.toWall x) →
      (dayStart tz (monthFirst tz now) ≤ x ∧ x < dayStart tz (monthNext tz now) ↔
        SameMonth (tz.toWall x) (tz.toWall now))) ↔
      CrossedOnce tz (monthFirst tz now) ∧ CrossedOnce tz (monthNext tz now) := by
  have hlong := midnight_monthFirst_add_le tz now
  have horder := dayStart_monthFirst_lt hoffsets now
  have hfirst := hoffsets.wallOffset (midnight (monthFirst tz now))
  have hnext := hoffsets.wallOffset (midnight (monthNext tz now))
  unfold Zone.Below oneDay at hfirst hnext
  unfold oneDay at hlong
  simp only [sameMonth_iff, CrossedOnce]
  rw [dayStart, dayStart] at horder ⊢
  constructor
  · intro hexact
    have hcrossed : ∀ x, Representable (tz.toWall x) →
        (x < tz.toInstant (midnight (monthFirst tz now)) ↔
          tz.toWall x < midnight (monthFirst tz now)) ∧
        (x < tz.toInstant (midnight (monthNext tz now)) ↔
          tz.toWall x < midnight (monthNext tz now)) := by
      intro x hx
      have hmonth := hexact x hx
      have hoffset := hoffsets.utcoffset x
      unfold Zone.Below oneDay at hoffset
      unfold Zone.toWall Zone.toInstant at hmonth ⊢
      -- a clock is never a day ahead of the instant, nor a day behind it
      omega
    exact ⟨fun x hx => (hcrossed x hx).1, fun x hx => (hcrossed x hx).2⟩
  · rintro ⟨hcrossed, hcrossed'⟩ x hx
    have hfirst := hcrossed x hx
    have hnext := hcrossed' x hx
    omega

end

/-! ## Periods that are the right way round -/

/-- The instant is in the period. -/
def Contains (period : Datetime × Datetime) (x : ℤ) : Prop :=
  ¬ (Datetime.aware x).Before period.1 ∧ (Datetime.aware x).Before period.2

/-- The period begins before it ends; and where neither bound is given, it
contains the instants of the current month and no others, if the midnights of the
zone increase. -/
def RightPeriod (tz : Zone) (dateFrom dateTo : Option Datetime) (now : ℤ) :
    Prop :=
  ∃ period, resolvePeriodOf dateFrom dateTo tz now = .ok period ∧
    period.1.Before period.2 ∧
    (dateFrom = none → dateTo = none → MidnightsIncreasing tz →
      ∀ x w localNow, toLocal tz x = .ok w → toLocal tz now = .ok localNow →
        (Contains period x ↔ SameMonth w localNow))

/-- A given bound is on the right side of the other one, or of the end of the
local month it is put together with; the clock is in a month that the calendar
can end; and where neither bound is given, the clock crosses the first midnights
of the month and of the next one once. -/
def BoundsOrdered (tz : Zone) (now : ℤ) :
    Option Datetime → Option Datetime → Prop
  | some start, some stop => start.Before stop
  | some start, none =>
      HasMonth tz now ∧ start.Before (.aware (dayStart tz (monthNext tz now)))
  | none, some stop =>
      HasMonth tz now ∧
        (Datetime.aware (dayStart tz (monthFirst tz now))).Before stop
  | none, none =>
      HasMonth tz now ∧ (MidnightsIncreasing tz →
        CrossedOnce tz (monthFirst tz now) ∧ CrossedOnce tz (monthNext tz now))

section

variable {tz : Zone} {dateFrom dateTo : Option Datetime} {now : ℤ}

/-- Where a bound is not given, it is one of the current month. -/
theorem resolvePeriodOf_eq_ok_iff {period : Datetime × Datetime}
    (h : dateFrom = none ∨ dateTo = none) :
    resolvePeriodOf dateFrom dateTo tz now = .ok period ↔
      HasMonth tz now ∧
        period = (dateFrom.getD (.aware (dayStart tz (monthFirst tz now))),
          dateTo.getD (.aware (dayStart tz (monthNext tz now)))) := by
  rw [resolvePeriodOf_eq_map h]
  constructor
  · intro hperiod
    cases hmonth : currentMonth tz now with
    | error e =>
        rw [hmonth] at hperiod
        cases hperiod
    | ok month =>
        rw [hmonth] at hperiod
        obtain ⟨hhas, rfl⟩ := currentMonth_eq_ok_iff.mp hmonth
        exact ⟨hhas, (Except.ok.inj hperiod).symm⟩
  · rintro ⟨hhas, rfl⟩
    rw [currentMonth_eq_ok_iff.mpr ⟨hhas, rfl⟩]
    rfl

/-- With a bound given, the period is right when its bounds are in order. -/
theorem rightPeriod_iff_before (h : ¬ (dateFrom = none ∧ dateTo = none)) :
    RightPeriod tz dateFrom dateTo now ↔
      ∃ period, resolvePeriodOf dateFrom dateTo tz now = .ok period ∧
        period.1.Before period.2 := by
  constructor
  · rintro ⟨period, hperiod, hbefore, -⟩
    exact ⟨period, hperiod, hbefore⟩
  · rintro ⟨period, hperiod, hbefore⟩
    exact ⟨period, hperiod, hbefore, fun hfrom hto => absurd ⟨hfrom, hto⟩ h⟩

/-- Without bounds, the period is right when it is the current month. -/
theorem rightPeriod_none_iff (hoffsets : tz.OffsetsBelow oneDay) :
    RightPeriod tz none none now ↔
      HasMonth tz now ∧ (MidnightsIncreasing tz →
        CrossedOnce tz (monthFirst tz now) ∧
          CrossedOnce tz (monthNext tz now)) := by
  have hcontains : ∀ x, Contains (.aware (dayStart tz (monthFirst tz now)),
      .aware (dayStart tz (monthNext tz now))) x ↔
        dayStart tz (monthFirst tz now) ≤ x ∧
          x < dayStart tz (monthNext tz now) := fun x => by
    rw [← not_lt]
    rfl
  have hexact := month_exact_iff hoffsets now
  constructor
  · rintro ⟨period, hperiod, -, hmonth⟩
    obtain ⟨hhas, rfl⟩ := (resolvePeriodOf_eq_ok_iff (Or.inl rfl)).mp hperiod
    refine ⟨hhas, ?_⟩
    intro hincreasing
    rw [← hexact]
    intro x hx
    rw [← hcontains]
    exact hmonth rfl rfl hincreasing x _ _ (representable_of hx)
      (representable_of hhas.1)
  · rintro ⟨hhas, hcrossed⟩
    refine ⟨_, (resolvePeriodOf_eq_ok_iff (Or.inl rfl)).mpr ⟨hhas, rfl⟩,
      dayStart_monthFirst_lt hoffsets now, ?_⟩
    intro _ _ hincreasing x w localNow hx hnow
    obtain ⟨hreading, rfl⟩ := representable_eq_ok_iff.mp hx
    obtain ⟨-, rfl⟩ := representable_eq_ok_iff.mp hnow
    exact (hcontains x).trans (hexact.mpr (hcrossed hincreasing) x hreading)

end

/-- For every zone whose offsets are below a day, every clock and all bounds that
the endpoints accept: the period is the right way round, and without bounds the
current month, exactly when the bounds are ordered. -/
theorem rightPeriod_iff_boundsOrdered (tz : Zone)
    (hoffsets : tz.OffsetsBelow oneDay) (dateFrom dateTo : Option Datetime)
    (now : ℤ) :
    RightPeriod tz dateFrom dateTo now ↔
      BoundsOrdered tz now dateFrom dateTo := by
  cases dateFrom with
  | none =>
      cases dateTo with
      | none => exact rightPeriod_none_iff hoffsets
      | some stop =>
          rw [rightPeriod_iff_before (by simp)]
          simp only [resolvePeriodOf_eq_ok_iff (Or.inl rfl), BoundsOrdered]
          constructor
          · rintro ⟨_, ⟨hhas, rfl⟩, hbefore⟩
            exact ⟨hhas, hbefore⟩
          · rintro ⟨hhas, hbefore⟩
            exact ⟨_, ⟨hhas, rfl⟩, hbefore⟩
  | some start =>
      cases dateTo with
      | none =>
          rw [rightPeriod_iff_before (by simp)]
          simp only [resolvePeriodOf_eq_ok_iff (Or.inr rfl), BoundsOrdered]
          constructor
          · rintro ⟨_, ⟨hhas, rfl⟩, hbefore⟩
            exact ⟨hhas, hbefore⟩
          · rintro ⟨hhas, hbefore⟩
            exact ⟨_, ⟨hhas, rfl⟩, hbefore⟩
      | some stop =>
          rw [rightPeriod_iff_before (by simp)]
          constructor
          · rintro ⟨_, hperiod, hbefore⟩
            obtain rfl := Except.ok.inj hperiod
            exact hbefore
          · intro hbefore
            exact ⟨(start, stop), rfl, hbefore⟩

theorem crossedOnce_fixed (key : String) (offset day : ℤ) :
    CrossedOnce (.fixed key offset) day := by
  intro x _
  rw [dayStart, Zone.toInstant_fixed, Zone.toWall_fixed]
  omega

/-- The current month of a clock that is never changed. -/
theorem rightPeriod_fixed :
    (Zone.fixed "Asia/Almaty" (minutes 300)).OffsetsBelow oneDay ∧
      RightPeriod (.fixed "Asia/Almaty" (minutes 300)) none none
        (Sample.clock 12 0) := by
  have hoffsets : (Zone.fixed "Asia/Almaty" (minutes 300)).OffsetsBelow oneDay :=
    ⟨⟨by decide, by decide⟩, fun c hc => absurd hc List.not_mem_nil⟩
  refine ⟨hoffsets, (rightPeriod_iff_boundsOrdered _ hoffsets none none
    (Sample.clock 12 0)).mpr ⟨⟨by decide +kernel, by decide +kernel⟩, ?_⟩⟩
  exact fun _ => ⟨crossedOnce_fixed _ _ _, crossedOnce_fixed _ _ _⟩

/-- A request for what is to come after this month, without an end, is for a
period that ends before it begins; and so is one with its bounds exchanged. -/
theorem not_rightPeriod_reversed :
    ¬ RightPeriod (.fixed "Asia/Almaty" (minutes 300))
        (some (.aware (midnight (Sample.monday + 60)))) none
        (Sample.clock 12 0) ∧
      ¬ RightPeriod (.fixed "Asia/Almaty" (minutes 300))
        (some (.aware (Sample.clock 12 0))) (some (.aware (Sample.clock 9 0)))
        (Sample.clock 12 0) := by
  constructor
  · rintro ⟨period, hperiod, hbefore, -⟩
    have hmonth : resolvePeriodOf (some (.aware (midnight (Sample.monday + 60))))
        none (.fixed "Asia/Almaty" (minutes 300)) (Sample.clock 12 0) =
          .ok (.aware (midnight (Sample.monday + 60)),
            .aware (midnight (Sample.monday + 19) - minutes 300)) := by
      decide +kernel
    obtain rfl := Except.ok.inj (hmonth.symm.trans hperiod)
    revert hbefore
    unfold Datetime.Before
    decide +kernel
  · rintro ⟨period, hperiod, hbefore, -⟩
    obtain rfl := Except.ok.inj hperiod
    revert hbefore
    unfold Datetime.Before
    decide +kernel

end BarberHub
