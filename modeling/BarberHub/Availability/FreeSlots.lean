import Mathlib.Tactic.Ring
import Mathlib.Algebra.Order.Ring.Int
import BarberHub.Availability.Intervals
import BarberHub.Core.Errors

/-!
# Cutting free time into slots

`align_up`, `slots_in` and `compute_free_slots` of
`app/services/availability.py`.  The while loop of `slots_in` is a recursion
on a number of rounds that it cannot outlast; with that many rounds it misses
no start (`exists_slotsFrom_roundsFor_iff`).

Python raises `OverflowError` as soon as one of the datetimes it computes
leaves the calendar.  The instants here are unbounded, and
`SlotsRepresentable` says that none of those computed does.
-/

namespace BarberHub

open HalfOpen

/-- Round `moment` up onto the grid of `step` starting at `anchor`. -/
def alignUp (moment step anchor : ℤ) : ℤ :=
  let offset := (moment - anchor) % step
  if offset = 0 then moment else moment + (step - offset)

/-- The while loop of `slots_in` over one span, from `start` on. -/
def slotsFrom (span : Interval) (duration step : ℤ) (h : 0 < duration) :
    ℕ → ℤ → List Interval
  | 0, _ => []
  | rounds + 1, start =>
      if start + duration ≤ span.stop then
        ⟨start, start + duration, by omega⟩ ::
          slotsFrom span duration step h rounds (start + step)
      else []

/-- Rounds enough for the loop to find that a booking does not fit. -/
def roundsFor (span : Interval) (start step : ℤ) : ℕ :=
  ((span.stop - start) / step).toNat + 2

/-- Where the loop of `slots_in` starts in a span. -/
def firstStart (span : Interval) (step notBefore anchor : ℤ) : ℤ :=
  alignUp (max span.start notBefore) step anchor

/-- Every grid-aligned start where a `duration`-long booking fits entirely. -/
def slotsIn (free : List Interval) (duration step notBefore anchor : ℤ) :
    Except Raised (List Interval) :=
  if h : 0 < duration ∧ 0 < step then
    .ok (free.flatMap fun span =>
      let start := firstStart span step notBefore anchor
      slotsFrom span duration step h.1 (roundsFor span start step) start)
  else .error .valueError

/-- Working time, minus everything already blocked, cut into bookable
slots. -/
def computeFreeSlots (working busy : List Interval)
    (duration step notBefore anchor : ℤ) : Except Raised (List Interval) :=
  slotsIn (subtract (normalize working) busy) duration step notBefore anchor

/-! ## Which starts are cut -/

theorem alignUp_dvd (moment step anchor : ℤ) :
    step ∣ alignUp moment step anchor - anchor := by
  unfold alignUp
  dsimp only
  split
  next h => exact Int.dvd_of_emod_eq_zero h
  next h =>
    have hdiv := Int.emod_add_mul_ediv (moment - anchor) step
    exact ⟨(moment - anchor) / step + 1, by rw [mul_add]; omega⟩

theorem le_alignUp (moment anchor : ℤ) {step : ℤ} (hstep : 0 < step) :
    moment ≤ alignUp moment step anchor := by
  have := Int.emod_lt_of_pos (moment - anchor) hstep
  unfold alignUp
  dsimp only
  split <;> omega

/-- No point of the grid lies between a moment and its rounding. -/
theorem alignUp_le
    {moment step anchor t : ℤ} (hstep : 0 < step)
    (hgrid : step ∣ t - anchor) (ht : moment ≤ t) :
    alignUp moment step anchor ≤ t := by
  unfold alignUp
  dsimp only
  split
  · exact ht
  next h =>
    obtain ⟨k, hk⟩ := hgrid
    have hdiv := Int.emod_add_mul_ediv (moment - anchor) step
    have hpos := Int.emod_nonneg (moment - anchor) (ne_of_gt hstep)
    -- `t` is more than a whole number of steps after the anchor
    have hlt : (moment - anchor) / step < k := by
      by_contra hle
      have := mul_le_mul_of_nonneg_left (not_lt.mp hle) (le_of_lt hstep)
      omega
    have := mul_le_mul_of_nonneg_left (Int.add_one_le_iff.mpr hlt)
      (le_of_lt hstep)
    rw [mul_add] at this
    omega

theorem alignUp_lt (moment anchor : ℤ) {step : ℤ} (hstep : 0 < step) :
    alignUp moment step anchor < moment + step := by
  have := Int.emod_nonneg (moment - anchor) (ne_of_gt hstep)
  unfold alignUp
  dsimp only
  split <;> omega

/-- Every slot the loop cuts is as long as the booking. -/
theorem slotsFrom_stop
    {span : Interval} {duration step : ℤ} {h : 0 < duration} {rounds : ℕ}
    {start : ℤ} {slot : Interval}
    (hslot : slot ∈ slotsFrom span duration step h rounds start) :
    slot.stop = slot.start + duration := by
  induction rounds generalizing start with
  | zero => simp [slotsFrom] at hslot
  | succ rounds ih =>
      simp only [slotsFrom] at hslot
      split at hslot
      · rcases List.mem_cons.mp hslot with rfl | hslot
        · rfl
        · exact ih hslot
      · simp at hslot

/-- The starts the loop cuts are the grid points from `start` on that leave
room for the booking, as far as the rounds reach. -/
theorem exists_slotsFrom_iff
    {span : Interval} {duration step : ℤ} {h : 0 < duration}
    (hstep : 0 < step) (rounds : ℕ) (start t : ℤ) :
    (∃ slot ∈ slotsFrom span duration step h rounds start, slot.start = t) ↔
      ∃ k : ℕ, k < rounds ∧ t = start + k * step ∧
        t + duration ≤ span.stop := by
  induction rounds generalizing start with
  | zero => simp [slotsFrom]
  | succ rounds ih =>
      simp only [slotsFrom]
      split
      next hfits =>
        rw [List.exists_mem_cons_iff, ih]
        constructor
        · rintro (rfl | ⟨k, hk, rfl, hstop⟩)
          · exact ⟨0, by omega, by simp, hfits⟩
          · exact ⟨k + 1, by omega, by push_cast; ring, hstop⟩
        · rintro ⟨k, hk, ht, hstop⟩
          cases k with
          | zero => exact Or.inl (by simpa using ht.symm)
          | succ k =>
              refine Or.inr ⟨k, by omega, ?_, hstop⟩
              rw [ht]
              push_cast
              ring
      next hfull =>
        simp only [List.not_mem_nil, false_and, exists_false, false_iff]
        rintro ⟨k, hk, rfl, hstop⟩
        have := mul_nonneg (Int.natCast_nonneg k) (le_of_lt hstep)
        omega

/-- With rounds enough to leave the span, the loop misses no grid point. -/
theorem exists_slotsFrom_roundsFor_iff
    {span : Interval} {duration step : ℤ} {h : 0 < duration}
    (hstep : 0 < step) (start t : ℤ) :
    (∃ slot ∈ slotsFrom span duration step h
        (roundsFor span start step) start, slot.start = t) ↔
      start ≤ t ∧ step ∣ t - start ∧ t + duration ≤ span.stop := by
  rw [exists_slotsFrom_iff hstep]
  constructor
  · rintro ⟨k, -, rfl, hstop⟩
    have := mul_nonneg (Int.natCast_nonneg k) (le_of_lt hstep)
    exact ⟨by omega, ⟨k, by ring⟩, hstop⟩
  · rintro ⟨hle, ⟨k, hk⟩, hstop⟩
    have hk0 : 0 ≤ k := by
      by_contra hneg
      have := mul_neg_of_pos_of_neg hstep (not_le.mp hneg)
      omega
    refine ⟨k.toNat, ?_, ?_, hstop⟩
    · have hdiv : k ≤ (span.stop - start) / step := by
        rw [Int.le_ediv_iff_mul_le hstep, mul_comm]
        omega
      rw [roundsFor]
      omega
    · rw [Int.toNat_of_nonneg hk0, mul_comm]
      omega

/-- What `slots_in` returns on separated free time: the starts on the grid,
not before `notBefore`, whose whole booking lies in free time. -/
theorem exists_slotsIn_iff
    {free slots : List Interval} {duration step notBefore anchor : ℤ}
    (hfree : Separated free)
    (h : slotsIn free duration step notBefore anchor = .ok slots) (t : ℤ) :
    (∃ slot ∈ slots, slot.start = t) ↔
      notBefore ≤ t ∧ step ∣ t - anchor ∧
        ∀ x, t ≤ x → x < t + duration → Covered free x := by
  rw [slotsIn] at h
  split at h
  next hpos =>
    obtain ⟨hduration, hstep⟩ := hpos
    obtain rfl := Except.ok.inj h
    have hspan : ∀ span : Interval,
        (∃ slot ∈ slotsFrom span duration step hduration
            (roundsFor span (firstStart span step notBefore anchor) step)
            (firstStart span step notBefore anchor), slot.start = t) ↔
          (notBefore ≤ t ∧ step ∣ t - anchor) ∧
            span.start ≤ t ∧ t + duration ≤ span.stop := by
      intro span
      rw [exists_slotsFrom_roundsFor_iff hstep]
      have hgrid := alignUp_dvd (max span.start notBefore) step anchor
      have hle := le_alignUp (max span.start notBefore) anchor hstep
      rw [firstStart]
      constructor
      · rintro ⟨hstart, hdvd, hstop⟩
        refine ⟨⟨by omega, ?_⟩, by omega, hstop⟩
        have := Int.dvd_add hdvd hgrid
        simpa using this
      · rintro ⟨⟨hbefore, hdvd⟩, hstart, hstop⟩
        refine ⟨alignUp_le hstep hdvd (by omega), ?_, hstop⟩
        have := Int.dvd_sub hdvd hgrid
        simpa using this
    constructor
    · rintro ⟨slot, hslot, rfl⟩
      obtain ⟨span, hmem, hcut⟩ := List.mem_flatMap.mp hslot
      obtain ⟨hgrid, hstart, hstop⟩ := (hspan span).mp ⟨slot, hcut, rfl⟩
      refine ⟨hgrid.1, hgrid.2, fun x hx hx' => ⟨span, hmem, ?_⟩⟩
      simp only [Interval.mem_def]
      omega
    · rintro ⟨hbefore, hdvd, hcov⟩
      obtain ⟨span, hmem, hstart, hstop⟩ :=
        hfree.exists_span_of_covered (by omega) hcov
      obtain ⟨slot, hslot, rfl⟩ :=
        (hspan span).mpr ⟨⟨hbefore, hdvd⟩, hstart, hstop⟩
      exact ⟨slot, List.mem_flatMap.mpr ⟨span, hmem, hslot⟩, rfl⟩
  · simp at h

theorem slotsIn_stop
    {free slots : List Interval} {duration step notBefore anchor : ℤ}
    (h : slotsIn free duration step notBefore anchor = .ok slots)
    {slot : Interval} (hslot : slot ∈ slots) :
    slot.stop = slot.start + duration := by
  rw [slotsIn] at h
  split at h
  · obtain rfl := Except.ok.inj h
    obtain ⟨span, -, hcut⟩ := List.mem_flatMap.mp hslot
    exact slotsFrom_stop hcut
  · simp at h

/-- What `compute_free_slots` returns: the starts on the grid, not before
`notBefore`, whose whole booking lies in working time and clear of everything
busy. -/
theorem exists_computeFreeSlots_iff
    {working busy slots : List Interval}
    {duration step notBefore anchor : ℤ}
    (h : computeFreeSlots working busy duration step notBefore anchor =
      .ok slots) (t : ℤ) :
    (∃ slot ∈ slots, slot.start = t) ↔
      notBefore ≤ t ∧ step ∣ t - anchor ∧
        ∀ x, t ≤ x → x < t + duration →
          Covered working x ∧ ¬ Covered busy x := by
  rw [exists_slotsIn_iff
    (separated_subtract (separated_normalize working) busy) h]
  simp only [covered_subtract, covered_normalize]

/-! ## The range of the calendar -/

/-- The datetimes the loop computes are representable: `start + duration` in
every round, and the next start while the booking still fits. -/
def LoopRepresentable (span : Interval) (duration step : ℤ) : ℕ → ℤ → Prop
  | 0, _ => True
  | rounds + 1, start =>
      Representable (start + duration) ∧
        (start + duration ≤ span.stop →
          Representable (start + step) ∧
            LoopRepresentable span duration step rounds (start + step))

instance (span : Interval) (duration step : ℤ) :
    ∀ (rounds : ℕ) (start : ℤ),
      Decidable (LoopRepresentable span duration step rounds start)
  | 0, _ => isTrue trivial
  | rounds + 1, start =>
      have := instDecidableLoopRepresentable span duration step rounds
        (start + step)
      inferInstanceAs (Decidable (_ ∧ (_ → _ ∧ _)))

/-- None of the datetimes `slots_in` computes leaves the calendar. -/
def SlotsRepresentable (free : List Interval)
    (duration step notBefore anchor : ℤ) : Prop :=
  ∀ span ∈ free,
    let start := firstStart span step notBefore anchor
    Representable start ∧
      LoopRepresentable span duration step (roundsFor span start step) start

instance (free : List Interval) (duration step notBefore anchor : ℤ) :
    Decidable (SlotsRepresentable free duration step notBefore anchor) :=
  inferInstanceAs (Decidable (∀ span ∈ free, _ ∧ _))

/-- While its predecessor fits, a start is tried, and its booking must end in
the calendar. -/
theorem LoopRepresentable.le_datetimeMax
    {span : Interval} {duration step : ℤ} (hstep : 0 < step) {rounds : ℕ}
    {start : ℤ} (h : LoopRepresentable span duration step rounds start)
    {k : ℕ} (hk : k < rounds)
    (hfits : k = 0 ∨ start + (k - 1) * step + duration ≤ span.stop) :
    start + k * step + duration ≤ datetimeMax := by
  induction rounds generalizing start k with
  | zero => omega
  | succ rounds ih =>
      obtain ⟨hfirst, hnext⟩ := h
      cases k with
      | zero => simpa using hfirst.2
      | succ k =>
          have hpred : start + k * step + duration ≤ span.stop := by
            rcases hfits with hzero | hfits
            · simp at hzero
            · simpa using hfits
          push_cast
          have hnonneg := mul_nonneg (Int.natCast_nonneg k) (le_of_lt hstep)
          have hlater := ih (hnext (by omega)).2 (Nat.lt_of_succ_lt_succ hk) ?_
          · rw [add_mul, one_mul]
            omega
          · cases k with
            | zero => exact Or.inl rfl
            | succ k =>
                right
                push_cast at hpred ⊢
                rw [add_mul, one_mul] at hpred
                rw [add_sub_cancel_right]
                omega

/-- When every booking tried ends in the calendar, so does the loop. -/
theorem loopRepresentable_of_le
    {span : Interval} {duration step : ℤ} (hduration : 0 < duration)
    (hstep : 0 < step) (rounds : ℕ) {start : ℤ} (hstart : datetimeMin ≤ start)
    (h : ∀ k : ℕ, k = 0 ∨ start + (k - 1) * step + duration ≤ span.stop →
      start + k * step + duration ≤ datetimeMax) :
    LoopRepresentable span duration step rounds start := by
  induction rounds generalizing start with
  | zero => trivial
  | succ rounds ih =>
      have hfirst := h 0 (Or.inl rfl)
      simp only [Nat.cast_zero, zero_mul, add_zero] at hfirst
      refine ⟨⟨by omega, hfirst⟩, fun hfits => ?_⟩
      have hsecond := h 1 (Or.inr (by simpa using hfits))
      simp only [Nat.cast_one, one_mul] at hsecond
      refine ⟨⟨by omega, by omega⟩, ih (by omega) fun k hk => ?_⟩
      have hlater := h (k + 1) ?_
      · push_cast at hlater
        rw [add_mul, one_mul] at hlater
        omega
      · right
        push_cast
        rw [add_sub_cancel_right]
        rcases hk with rfl | hk
        · simpa using hfits
        · rw [sub_mul, one_mul] at hk
          omega

/-- The loop over the span `[a, b)` tries the start: it is the first grid
point, or its predecessor fits. -/
structure Tries (a b duration step notBefore anchor t : ℤ) : Prop where
  late : max a notBefore ≤ t
  on_grid : step ∣ t - anchor
  reached : t - step < max a notBefore ∨ t - step + duration ≤ b

/-- The datetimes of `slots_in` are representable exactly when every booking
tried ends in the calendar. -/
theorem slotsRepresentable_iff
    {free : List Interval} {duration step notBefore anchor : ℤ}
    (hduration : 0 < duration) (hstep : 0 < step)
    (hfree : ∀ span ∈ free, datetimeMin ≤ span.start) :
    SlotsRepresentable free duration step notBefore anchor ↔
      ∀ span ∈ free, ∀ t,
        Tries span.start span.stop duration step notBefore anchor t →
          t + duration ≤ datetimeMax := by
  apply forall₂_congr
  intro span hspan
  have hmin := hfree span hspan
  have hgrid := alignUp_dvd (max span.start notBefore) step anchor
  have hle := le_alignUp (max span.start notBefore) anchor hstep
  have hlt := alignUp_lt (max span.start notBefore) anchor hstep
  rw [firstStart]
  generalize alignUp (max span.start notBefore) step anchor = first at *
  dsimp only
  constructor
  · rintro ⟨-, hloop⟩ t htries
    have hlate := htries.late
    obtain ⟨j, hj⟩ : step ∣ t - first := by
      have := Int.dvd_sub htries.on_grid hgrid
      simpa using this
    -- the start is `j` steps after the first one
    have hj0 : 0 ≤ j := by
      by_contra hneg
      have hneg' : j ≤ -1 := by omega
      have := mul_le_mul_of_nonneg_left hneg' (le_of_lt hstep)
      omega
    obtain ⟨k, rfl⟩ := Int.eq_ofNat_of_zero_le hj0
    rw [mul_comm] at hj
    have hfits : k = 0 ∨ first + (k - 1) * step + duration ≤ span.stop := by
      rcases htries.reached with hfirst | hpred
      · left
        by_contra hk
        have hk1 : (1 : ℤ) ≤ k := by omega
        have := mul_le_mul_of_nonneg_right hk1 (le_of_lt hstep)
        omega
      · right
        rw [sub_mul, one_mul]
        omega
    have hrounds : k < roundsFor span first step := by
      rw [roundsFor]
      rcases hfits with rfl | hfits
      · omega
      · have hdiv : (k : ℤ) - 1 ≤ (span.stop - first) / step := by
          rw [Int.le_ediv_iff_mul_le hstep]
          omega
        omega
    have := hloop.le_datetimeMax hstep hrounds hfits
    omega
  · intro h
    refine ⟨?_, loopRepresentable_of_le hduration hstep _ (by omega)
      fun k hk => h (first + k * step) ?_⟩
    · have := h first ⟨by omega, hgrid, Or.inl (by omega)⟩
      exact ⟨by omega, by omega⟩
    · have hnonneg := mul_nonneg (Int.natCast_nonneg k) (le_of_lt hstep)
      refine ⟨by omega, ?_, ?_⟩
      · have := Int.dvd_add (Int.dvd_mul_left (k : ℤ) step) hgrid
        have heq : first + k * step - anchor = k * step + (first - anchor) := by
          ring
        rw [heq]
        exact this
      · rcases hk with rfl | hk
        · left
          simp only [Nat.cast_zero, zero_mul, add_zero]
          omega
        · right
          rw [sub_mul, one_mul] at hk
          omega

end BarberHub
