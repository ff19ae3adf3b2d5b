import BarberHub.Core.Environment

/-!
# Wall clock times as instants

`Interval.__post_init__`, `local_day_bounds` and `working_interval` of
`app/services/availability.py`: the only places where wall clock times become
instants.  They compare wall clock readings, build an `Interval` from instants,
and raise `OverflowError` at the ends of the calendar.
-/

namespace BarberHub

open HalfOpen

/-- `Interval(start, end)`. -/
def Interval.new (start stop : ℤ) : Except Raised Interval :=
  if h : start < stop then .ok ⟨start, stop, h⟩ else .error .valueError

/-- `astimezone(UTC)` of a reading of the zone's clock. -/
def toUtc (tz : Zone) (w : ℤ) : Except Raised ℤ :=
  representable (tz.toInstant w)

/-- `astimezone(tz)` of an instant. -/
def toLocal (tz : Zone) (x : ℤ) : Except Raised ℤ :=
  representable (tz.toWall x)

/-- `Interval(start, end)` of two readings of the zone's clock. -/
def Interval.ofWall (tz : Zone) (s e : ℤ) : Except Raised Interval := do
  let start ← toUtc tz s
  let stop ← toUtc tz e
  Interval.new start stop

/-- The instants a local calendar day starts and ends. -/
def localDayBounds (day : ℤ) (tz : Zone) : Except Raised Interval :=
  if dateMax < day + 1 then .error .overflowError
  else Interval.ofWall tz (midnight day) (midnight (day + 1))

/-- Turn one wall-clock shift into an instant range. -/
def workingInterval (day : ℤ) (startTime endTime : TimeOfDay) (tz : Zone) :
    Except Raised (Option Interval) :=
  if combine day endTime ≤ combine day startTime then .ok none
  else some <$> Interval.ofWall tz (combine day startTime) (combine day endTime)

theorem Interval.new_eq_ok_iff {start stop : ℤ} {I : Interval} :
    Interval.new start stop = .ok I ↔ I.start = start ∧ I.stop = stop := by
  rw [Interval.new]
  split
  next h =>
    rw [Except.ok.injEq, HalfOpen.Interval.ext_iff]
    tauto
  next h =>
    simp only [reduceCtorEq, false_iff, not_and]
    rintro rfl rfl
    exact h I.start_lt_stop

/-- An interval of wall clock readings is built when both ends are
representable and in order as instants. -/
theorem Interval.ofWall_eq_ok_iff {tz : Zone} {s e : ℤ} {I : Interval} :
    Interval.ofWall tz s e = .ok I ↔
      Representable (tz.toInstant s) ∧ Representable (tz.toInstant e) ∧
        I.start = tz.toInstant s ∧ I.stop = tz.toInstant e := by
  unfold Interval.ofWall toUtc representable
  by_cases hs : Representable (tz.toInstant s)
  · by_cases he : Representable (tz.toInstant e)
    · simp only [hs, he, if_true, true_and]
      exact Interval.new_eq_ok_iff
    · simp [hs, he, bind, Except.bind]
  · simp [hs, bind, Except.bind]

theorem localDayBounds_eq_ok_iff {day : ℤ} {tz : Zone} {I : Interval} :
    localDayBounds day tz = .ok I ↔
      day < dateMax ∧ Representable (dayStart tz day) ∧
        Representable (dayStart tz (day + 1)) ∧
        I.start = dayStart tz day ∧ I.stop = dayStart tz (day + 1) := by
  rw [localDayBounds]
  split
  next h =>
    simp only [reduceCtorEq, false_iff]
    omega
  next h =>
    rw [Interval.ofWall_eq_ok_iff]
    unfold dayStart
    have : day < dateMax := by omega
    simp [this]

/-- A shift is dropped when its wall clock times are out of order, and
otherwise built from the instants they mean. -/
theorem workingInterval_eq_ok_iff
    {day : ℤ} {s e : TimeOfDay} {tz : Zone} {shift : Option Interval} :
    workingInterval day s e tz = .ok shift ↔
      (e ≤ s ∧ shift = none) ∨
        (s < e ∧ ∃ I, Interval.ofWall tz (combine day s) (combine day e) =
          .ok I ∧ shift = some I) := by
  rw [workingInterval]
  have hlt : combine day s < combine day e ↔ s < e := combine_lt_combine
  split
  next h =>
    have hge : ¬ s < e := by rw [← hlt]; omega
    simp [hge, Fin.not_lt.mp hge, eq_comm]
  next h =>
    have hse : s < e := by rw [← hlt]; omega
    simp only [hse, true_and, Fin.not_le.mpr hse, false_and, false_or]
    cases Interval.ofWall tz (combine day s) (combine day e) with
    | ok I => simp [Functor.map, Except.map, eq_comm]
    | error e => simp [Functor.map, Except.map]

/-- An instant has a local date exactly when it lies in the bounds of that
day. -/
def DatesMatchBounds (tz : Zone) : Prop :=
  ∀ day I, localDayBounds day tz = .ok I → ∀ x, x ∈ I ↔ localDate tz x = day

theorem datesMatchBounds_fixed (key : String) (offset : ℤ) :
    DatesMatchBounds (.fixed key offset) := by
  intro day I hI x
  obtain ⟨-, -, -, hstart, hstop⟩ := localDayBounds_eq_ok_iff.mp hI
  rw [localDate]
  rw [Interval.mem_def, hstart, hstop, dateOf_eq_iff]
  unfold dayStart
  rw [OffsetZone.Zone.toInstant_fixed, OffsetZone.Zone.toInstant_fixed,
    OffsetZone.Zone.toWall_fixed]
  omega

end BarberHub
