import Mathlib.Data.Int.Notation
import BarberHub.Support.HalfOpen
import BarberHub.Support.OffsetZone

/-!
# Instants, wall clocks and the calendar

An aware `datetime` is modelled by its instant, or by an `AwareDatetime` where
it comes from a request and is computed with, and a naive one by its wall clock
reading, all as integers in microseconds.  They count from the day before
0001-01-01, so that a date is its proleptic Gregorian ordinal, a reading is
`date * oneDay + time`, and an instant is what a UTC clock reads.
`Representable` is the range of Python's `datetime`, outside of which its
arithmetic raises `OverflowError`.
-/

namespace BarberHub

/-- A time of day in microseconds, `00:00` up to `23:59:59.999999`. -/
abbrev TimeOfDay := Fin 86400000000

abbrev Zone := OffsetZone.Zone

/-- `Interval`: a half-open span of time, stored as instants. -/
abbrev Interval := HalfOpen.Interval ℤ

/-- `timedelta(days=1)`. -/
def oneDay : ℤ := 86400000000

/-- `timedelta(minutes=n)`. -/
def minutes (n : ℤ) : ℤ := n * 60000000

/-- `date.max`, 9999-12-31. -/
def dateMax : ℤ := 3652059

/-- `datetime.min`. -/
def datetimeMin : ℤ := oneDay

/-- `datetime.max`. -/
def datetimeMax : ℤ := (dateMax + 1) * oneDay - 1

/-- A reading Python's `datetime` can hold. -/
def Representable (w : ℤ) : Prop :=
  datetimeMin ≤ w ∧ w ≤ datetimeMax

instance (w : ℤ) : Decidable (Representable w) :=
  inferInstanceAs (Decidable (_ ∧ _))

/-- An aware `datetime` as it is written: what its own clock shows, and how far
that clock is ahead of UTC. -/
structure AwareDatetime where
  wall : ℤ
  offset : ℤ
  readable : Representable wall
  ahead_lt : offset < oneDay
  behind_lt : -offset < oneDay
  deriving DecidableEq, Repr

namespace AwareDatetime

/-- The instant, by which aware datetimes are compared. -/
def instant (x : AwareDatetime) : ℤ :=
  x.wall - x.offset

/-- An instant written in UTC. -/
def utc (x : ℤ) (h : Representable x) : AwareDatetime where
  wall := x
  offset := 0
  readable := h
  ahead_lt := by decide
  behind_lt := by decide

@[simp] theorem instant_utc (x : ℤ) (h : Representable x) :
    (utc x h).instant = x :=
  Int.sub_zero x

end AwareDatetime

/-- `datetime.combine(day, time)`. -/
def combine (day : ℤ) (time : TimeOfDay) : ℤ :=
  day * oneDay + (time.val : ℤ)

/-- `datetime.combine(day, time.min)`. -/
def midnight (day : ℤ) : ℤ :=
  day * oneDay

/-- `datetime.date()`. -/
def dateOf (w : ℤ) : ℤ :=
  w / oneDay

/-- `date.weekday()`, 0 for Monday. -/
def weekday (day : ℤ) : ℤ :=
  (day + 6) % 7

theorem dateOf_eq_iff {w day : ℤ} :
    dateOf w = day ↔ midnight day ≤ w ∧ w < midnight (day + 1) := by
  unfold dateOf midnight oneDay
  omega

/-- A reading Python can hold is on a date Python can hold. -/
theorem dateOf_mem_calendar {w : ℤ} (h : Representable w) :
    1 ≤ dateOf w ∧ dateOf w ≤ dateMax := by
  obtain ⟨hlow, hhigh⟩ := h
  unfold datetimeMin oneDay at hlow
  unfold datetimeMax oneDay at hhigh
  unfold dateOf oneDay
  omega

theorem representable_midnight_iff {day : ℤ} :
    Representable (midnight day) ↔ 1 ≤ day ∧ day ≤ dateMax := by
  unfold Representable datetimeMin datetimeMax midnight oneDay
  omega

theorem midnight_add_oneDay (day : ℤ) :
    midnight day + oneDay = midnight (day + 1) := by
  unfold midnight
  rw [Int.add_mul, Int.one_mul]

/-- A time of day falls on the day it is combined with. -/
theorem combine_bounds (day : ℤ) (time : TimeOfDay) :
    midnight day ≤ combine day time ∧
      combine day time < midnight (day + 1) := by
  have htime := time.isLt
  unfold combine midnight oneDay
  omega

theorem combine_lt_combine {day : ℤ} {s e : TimeOfDay} :
    combine day s < combine day e ↔ s < e := by
  rw [Fin.lt_def]
  unfold combine
  omega

/-- The instant at which a local calendar day starts. -/
def dayStart (tz : Zone) (day : ℤ) : ℤ :=
  tz.toInstant (midnight day)

/-- The local calendar day of an instant. -/
def localDate (tz : Zone) (x : ℤ) : ℤ :=
  dateOf (tz.toWall x)

end BarberHub
