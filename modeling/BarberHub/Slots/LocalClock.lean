import BarberHub.Slots.Interference

/-!
# Slots and the shop's own clock

Working hours are wall clock times, and a shift becomes an interval of
instants by converting its two ends.  Between them the shop's clock shows the
hours of the shift, unless a jump of the clock distorts it: the shift ends among
readings that the clock skips, or begins among readings that it repeats.  On a
day without such a shift all slots stay within the hours on the clock.  A shift
inside the hour that a spring change skips is offered an hour later.
-/

namespace BarberHub

open HalfOpen ReadCommitted Program Fallible

namespace Database

/-- At the instant the zone's clock shows a time inside a shift of that
weekday. -/
def OnShift (db : Database) (tz : Zone) (barberId : Uuid) (day x : ℤ) : Prop :=
  ∃ row ∈ db.workingHours, row.barberId = barberId ∧
    row.weekday = weekday day ∧ combine day row.startTime ≤ tz.toWall x ∧
    tz.toWall x < combine day row.endTime

instance (db : Database) (tz : Zone) (barberId : Uuid) (day x : ℤ) :
    Decidable (db.OnShift tz barberId day x) :=
  inferInstanceAs (Decidable (∃ row ∈ _, _ ∧ _ ∧ _ ∧ _))

/-- The row is a shift of the barber on the weekday. -/
structure ShiftOn (db : Database) (barberId : Uuid) (day : ℤ)
    (row : WorkingHours) : Prop where
  mem : row ∈ db.workingHours
  barber_eq : row.barberId = barberId
  weekday_eq : row.weekday = weekday day
  positive : row.startTime < row.endTime

/-- No jump of the clock distorts a shift of that weekday. -/
def Undistorted (db : Database) (tz : Zone) (barberId : Uuid) (day : ℤ) :
    Prop :=
  ∀ row, db.ShiftOn barberId day row → ∀ j ∈ tz.jumps,
    ¬ j.Distorts (combine day row.startTime) (combine day row.endTime)

end Database

/-- Every instant of every slot has the day's date and a time inside a shift
on the shop's clock. -/
def RespectsClock (env : Env) (db : Database) (barberId : Uuid)
    (shop : Barbershop) (day : ℤ) (offer : AvailabilityRead) : Prop :=
  ∀ slot ∈ offer.slots, ∀ x, slot.start ≤ x → x < slot.stop →
    localDate (env.shopTimezone shop) x = day ∧
      db.OnShift (env.shopTimezone shop) barberId day x

/-- An instant on a shift falls on the day of the shift. -/
theorem Database.OnShift.localDate_eq
    {db : Database} {tz : Zone} {barberId : Uuid} {day x : ℤ}
    (h : db.OnShift tz barberId day x) : localDate tz x = day := by
  obtain ⟨row, -, -, -, hstart, hstop⟩ := h
  have hfirst := (combine_bounds day row.startTime).1
  have hlast := (combine_bounds day row.endTime).2
  exact dateOf_eq_iff.mpr ⟨by omega, by omega⟩

/-- An instant in a shift as converted is on the shift, unless a jump distorts
it. -/
theorem Database.InShift.onShift
    {db : Database} {tz : Zone} {barberId : Uuid} {day x : ℤ}
    (h : db.InShift tz barberId day x)
    (hshifts : db.Undistorted tz barberId day) :
    db.OnShift tz barberId day x := by
  obtain ⟨row, hrow, hbarber, hday, hlt, hstart, hstop⟩ := h
  rcases tz.toWall_mem_or_distorts hstart hstop with
    hmem | ⟨j, hj, hdistorts⟩
  · exact ⟨row, hrow, hbarber, hday, hmem⟩
  · exact absurd hdistorts (hshifts row ⟨hrow, hbarber, hday, hlt⟩ j hj)

/-- The ends of a shift, as converted. -/
theorem bounds_of_workingInterval
    {day : ℤ} {s e : TimeOfDay} {tz : Zone} {I : Interval}
    (h : workingInterval day s e tz = .ok (some I)) :
    I.start = tz.toInstant (combine day s) ∧
      I.stop = tz.toInstant (combine day e) := by
  rcases workingInterval_eq_ok_iff.mp h with ⟨-, hnone⟩ | ⟨-, J, hJ, hsome⟩
  · simp at hnone
  · obtain rfl := Option.some.inj hsome
    exact (Interval.ofWall_eq_ok_iff.mp hJ).2.2

/-- The instant meant by a time on the spring day in Berlin. -/
def springInstant (hour minute : ℕ) : ℤ :=
  Sample.berlin.toInstant
    (combine Sample.springDay (Sample.timeOfDay hour minute))

end BarberHub
