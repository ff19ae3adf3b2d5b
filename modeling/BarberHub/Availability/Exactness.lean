import BarberHub.Availability.FreeSlots
import BarberHub.Core.Environment

/-!
# The slots are exact

`compute_free_slots` returns every bookable start once and in order, as long
as none of the datetimes it computes leaves the calendar.  This module states
that for arbitrary lists of intervals, and says when the calendar is too short.
-/

namespace BarberHub

open HalfOpen

/-- `compute_free_slots`, with the range of its datetimes. -/
def calendarFreeSlots (working busy : List Interval)
    (duration step notBefore anchor : ℤ) : Except Raised (List Interval) := do
  let slots ← computeFreeSlots working busy duration step notBefore anchor
  if SlotsRepresentable (subtract (normalize working) busy) duration step
      notBefore anchor then
    pure slots
  else .error .overflowError

/-- The slots start where a booking of that length can be made: not before
`notBefore`, on the grid, inside working time and clear of everything busy.
Each is as long as the booking, and they come in order. -/
structure ExactSlots (working busy : List Interval)
    (duration step notBefore anchor : ℤ) (slots : List Interval) : Prop where
  starts : ∀ t, (∃ slot ∈ slots, slot.start = t) ↔
    notBefore ≤ t ∧ (∃ k : ℤ, t - anchor = k * step) ∧
      (∀ x, t ≤ x → x < t + duration → ∃ I ∈ working, x ∈ I) ∧
      ∀ x, t ≤ x → x < t + duration → ∀ I ∈ busy, x ∉ I
  stops : ∀ slot ∈ slots, slot.stop = slot.start + duration
  increasing : slots.Pairwise fun I J => I.start < J.start

/-- The instant is in working time and nothing is busy then. -/
def FreeWork (working busy : List Interval) (x : ℤ) : Prop :=
  Covered working x ∧ ¬ Covered busy x

/-- Every booking that is tried in a stretch of free time ends in the
calendar. -/
def TriedInCalendar (working busy : List Interval)
    (duration step notBefore anchor : ℤ) : Prop :=
  ∀ a b, IsStretch (FreeWork working busy) a b → ∀ t,
    Tries a b duration step notBefore anchor t → t + duration ≤ datetimeMax

/-! ## The order of the slots -/

/-- The slots of one span lie inside it, from the first start on. -/
theorem slotsFrom_within
    {span : Interval} {duration step : ℤ} {h : 0 < duration}
    (hstep : 0 < step) {rounds : ℕ} {start : ℤ} {slot : Interval}
    (hslot : slot ∈ slotsFrom span duration step h rounds start) :
    start ≤ slot.start ∧ slot.stop ≤ span.stop := by
  obtain ⟨k, -, hk, hstop⟩ :=
    (exists_slotsFrom_iff hstep rounds start slot.start).mp ⟨slot, hslot, rfl⟩
  have hnonneg := mul_nonneg (Int.natCast_nonneg k) (le_of_lt hstep)
  have hlength := slotsFrom_stop hslot
  omega

theorem increasing_slotsFrom
    {span : Interval} {duration step : ℤ} {h : 0 < duration}
    (hstep : 0 < step) (rounds : ℕ) (start : ℤ) :
    (slotsFrom span duration step h rounds start).Pairwise
      fun I J => I.start < J.start := by
  induction rounds generalizing start with
  | zero => exact List.Pairwise.nil
  | succ rounds ih =>
      simp only [slotsFrom]
      split
      · apply List.pairwise_cons.mpr
        constructor
        · intro J hJ
          have hlater := (slotsFrom_within hstep hJ).1
          dsimp only
          omega
        · exact ih (start + step)
      · exact List.Pairwise.nil

/-- Cut from separated spans, the slots come in order. -/
theorem increasing_slotsIn
    {free slots : List Interval} {duration step notBefore anchor : ℤ}
    (hfree : Separated free)
    (h : slotsIn free duration step notBefore anchor = .ok slots) :
    slots.Pairwise fun I J => I.start < J.start := by
  rw [slotsIn] at h
  split at h
  next hpos =>
    obtain ⟨hduration, hstep⟩ := hpos
    obtain rfl := Except.ok.inj h
    apply List.pairwise_flatMap.mpr
    constructor
    · intro span _
      exact increasing_slotsFrom hstep _ _
    · apply hfree.imp
      intro span later hlt I hI J hJ
      have hfirst := (slotsFrom_within hstep hI).2
      have hlater := (slotsFrom_within hstep hJ).1
      have hround := le_alignUp (max later.start notBefore) anchor hstep
      have hnonempty := I.start_lt_stop
      rw [firstStart] at hlater
      omega
  · simp at h

/-! ## Exactness -/

section

variable {working busy : List Interval}
  {duration step notBefore anchor : ℤ}

/-- Whatever `compute_free_slots` returns is exact. -/
theorem exactSlots_of_computeFreeSlots
    {slots : List Interval}
    (h : computeFreeSlots working busy duration step notBefore anchor =
      .ok slots) :
    ExactSlots working busy duration step notBefore anchor slots where
  starts t := by
    rw [exists_computeFreeSlots_iff h]
    have hgrid : step ∣ t - anchor ↔ ∃ k : ℤ, t - anchor = k * step := by
      rw [dvd_iff_exists_eq_mul_left]
    rw [hgrid]
    constructor
    · rintro ⟨hbefore, hk, hfree⟩
      refine ⟨hbefore, hk, fun x hx hx' => (hfree x hx hx').1, ?_⟩
      intro x hx hx' I hI hmem
      exact (hfree x hx hx').2 ⟨I, hI, hmem⟩
    · rintro ⟨hbefore, hk, hwork, hclear⟩
      refine ⟨hbefore, hk, fun x hx hx' => ⟨hwork x hx hx', ?_⟩⟩
      rintro ⟨I, hI, hmem⟩
      exact hclear x hx hx' I hI hmem
  stops _ hslot := slotsIn_stop h hslot
  increasing := increasing_slotsIn
    (separated_subtract (separated_normalize working) busy) h

/-- The spans the loop goes through are the stretches of free time. -/
theorem isStretch_freeWork_iff {a b : ℤ} :
    IsStretch (FreeWork working busy) a b ↔
      ∃ I ∈ subtract (normalize working) busy, I.start = a ∧ I.stop = b := by
  rw [← (separated_subtract (separated_normalize working) busy).isStretch_iff]
  apply isStretch_congr
  intro x
  rw [covered_subtract, covered_normalize, FreeWork]

/-- Free time begins inside working time. -/
theorem datetimeMin_le_of_free
    (hworking : ∀ I ∈ working, Representable I.start) {span : Interval}
    (hspan : span ∈ subtract (normalize working) busy) :
    datetimeMin ≤ span.start := by
  have hcov : Covered (subtract (normalize working) busy) span.start :=
    ⟨span, hspan, span.start_mem⟩
  rw [covered_subtract, covered_normalize] at hcov
  obtain ⟨I, hI, hmem⟩ := hcov.1
  exact le_trans (hworking I hI).1 hmem.1

theorem slotsRepresentable_iff_triedInCalendar
    (hworking : ∀ I ∈ working, Representable I.start)
    (hduration : 0 < duration) (hstep : 0 < step) :
    SlotsRepresentable (subtract (normalize working) busy) duration step
        notBefore anchor ↔
      TriedInCalendar working busy duration step notBefore anchor := by
  rw [slotsRepresentable_iff hduration hstep fun span hspan =>
    datetimeMin_le_of_free hworking hspan]
  constructor
  · intro h a b hstretch t htries
    obtain ⟨span, hspan, rfl, rfl⟩ := isStretch_freeWork_iff.mp hstretch
    exact h span hspan t htries
  · intro h span hspan t htries
    exact h _ _ (isStretch_freeWork_iff.mpr ⟨span, hspan, rfl, rfl⟩) t htries

/-- For any intervals of datetimes, positive duration and positive step: the
slots are exact when every booking tried ends in the calendar, and
`OverflowError` is raised otherwise. -/
theorem calendarFreeSlots_exact
    (hworking : ∀ I ∈ working, Representable I.start)
    (hduration : 0 < duration) (hstep : 0 < step) :
    (TriedInCalendar working busy duration step notBefore anchor →
      ∃ slots, calendarFreeSlots working busy duration step notBefore anchor =
        .ok slots ∧
          ExactSlots working busy duration step notBefore anchor slots) ∧
      (¬ TriedInCalendar working busy duration step notBefore anchor →
        calendarFreeSlots working busy duration step notBefore anchor =
          .error .overflowError) := by
  obtain ⟨slots, hslots⟩ : ∃ slots,
      computeFreeSlots working busy duration step notBefore anchor =
        .ok slots := by
    rw [computeFreeSlots, slotsIn, dif_pos ⟨hduration, hstep⟩]
    exact ⟨_, rfl⟩
  rw [← slotsRepresentable_iff_triedInCalendar hworking hduration hstep]
  unfold calendarFreeSlots
  rw [hslots]
  constructor
  · intro hrep
    exact ⟨slots, if_pos hrep, exactSlots_of_computeFreeSlots hslots⟩
  · intro hrep
    exact if_neg hrep

end

/-! ## A split shift, and the last evening -/

namespace Sample

/-- Two shifts that touch, from nine to noon. -/
def splitShift : List Interval :=
  [⟨clock 11 0, clock 12 0, by decide⟩, ⟨clock 9 0, clock 11 0, by decide⟩]

/-- Booked from half past nine to ten. -/
def bookedHalfHour : List Interval := [⟨clock 9 30, clock 10 0, by decide⟩]

/-- From 23:00 to the last instant of the calendar. -/
def lastEvening : Interval :=
  ⟨combine dateMax (timeOfDay 23 0), datetimeMax, by decide⟩

end Sample

open Sample in
/-- An hour can be booked across the two shifts. -/
theorem calendarFreeSlots_exact_split_shift :
    ∃ slots, calendarFreeSlots splitShift bookedHalfHour (minutes 60)
        (minutes 15) (clock 8 0) (clock 0 0) = .ok slots ∧
      ExactSlots splitShift bookedHalfHour (minutes 60) (minutes 15)
        (clock 8 0) (clock 0 0) slots :=
  (calendarFreeSlots_exact (by decide) (by decide) (by decide)).1
    ((slotsRepresentable_iff_triedInCalendar (by decide) (by decide)
      (by decide)).mp (by decide))

open Sample in
/-- On the last evening half an hour can be booked at 23:00, but the loop goes
on until a booking would end after the calendar, and nothing is returned. -/
theorem not_exactSlots_last_evening :
    ¬ ∃ slots, calendarFreeSlots [lastEvening] [] (minutes 30) (minutes 15)
        lastEvening.start lastEvening.start = .ok slots ∧
      ExactSlots [lastEvening] [] (minutes 30) (minutes 15)
        lastEvening.start lastEvening.start slots := by
  rintro ⟨slots, hslots, -⟩
  have herror : calendarFreeSlots [lastEvening] [] (minutes 30) (minutes 15)
      lastEvening.start lastEvening.start = .error .overflowError := by
    decide
  rw [herror] at hslots
  simp at hslots

end BarberHub
