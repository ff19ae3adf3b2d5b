import Mathlib.Data.List.Sort
import BarberHub.Core.Time

/-!
# Interval arithmetic behind free-slot computation

`normalize`, `subtract` and `clip` of `app/services/availability.py`.  Every
call of the `Interval` constructor in them is one whose bounds are ordered, so
the constructor's `ValueError` cannot be raised: the order is what its third
component proves.

The facts proved here are the ones the slot computation rests on: which
instants each result covers, and that its intervals are pairwise separated.
-/

namespace BarberHub

open HalfOpen

/-- The order of the dataclass: by start, then by end. -/
def Interval.le (I J : Interval) : Prop :=
  I.start < J.start ∨ (I.start = J.start ∧ I.stop ≤ J.stop)

instance : DecidableRel Interval.le := fun I J =>
  inferInstanceAs (Decidable (I.start < J.start ∨ (_ ∧ _)))

instance : Std.Total Interval.le where
  total I J := by unfold Interval.le; omega

instance : IsTrans Interval Interval.le where
  trans I J K := by unfold Interval.le; omega

/-- The loop of `normalize`: `last` is `merged[-1]`, the interval still open
to being extended. -/
def mergeFrom (last : Interval) : List Interval → List Interval
  | [] => [last]
  | current :: rest =>
      if current.start ≤ last.stop then
        if h : last.stop < current.stop then
          mergeFrom ⟨last.start, current.stop, last.start_lt_stop.trans h⟩ rest
        else mergeFrom last rest
      else last :: mergeFrom current rest

/-- Sort and merge, collapsing overlapping and touching spans into one. -/
def normalize (intervals : List Interval) : List Interval :=
  match intervals.insertionSort Interval.le with
  | [] => []
  | first :: rest => mergeFrom first rest

/-- What `subtract` keeps of the span between the cursor and a block. -/
def pieceBefore (span : Interval) (cursor : ℤ) (h : cursor < span.stop)
    (block : Interval) : List Interval :=
  if hc : cursor < block.start then
    [⟨cursor, min block.start span.stop, lt_min hc h⟩]
  else []

/-- The inner loop of `subtract` over one span, from `cursor` on. -/
def carve (span : Interval) (cursor : ℤ) (h : cursor < span.stop) :
    List Interval → List Interval
  | [] => [⟨cursor, span.stop, h⟩]
  | block :: blocks =>
      if block.stop ≤ cursor then carve span cursor h blocks
      else if span.stop ≤ block.start then [⟨cursor, span.stop, h⟩]
      else
        if hn : span.stop ≤ max cursor block.stop then
          pieceBefore span cursor h block
        else
          pieceBefore span cursor h block ++
            carve span (max cursor block.stop) (not_le.mp hn) blocks

/-- Everything in `base` that no interval in `blocks` covers. -/
def subtract (base blocks : List Interval) : List Interval :=
  match normalize blocks with
  | [] => base
  | obstacle :: obstacles =>
      base.flatMap fun span =>
        carve span span.start span.start_lt_stop (obstacle :: obstacles)

/-- Trim to `window`, dropping anything fully outside it. -/
def clip (intervals : List Interval) (window : Interval) : List Interval :=
  intervals.filterMap fun span =>
    if h : max span.start window.start < min span.stop window.stop then
      some ⟨_, _, h⟩
    else none

/-! ## Merging -/

/-- Every interval of the list starts no earlier than `a`. -/
def StartsFrom (a : ℤ) (xs : List Interval) : Prop :=
  ∀ I ∈ xs, a ≤ I.start

/-- The list is ordered by start. -/
def SortedByStart (xs : List Interval) : Prop :=
  xs.Pairwise fun I J => I.start ≤ J.start

/-- Dropping the second interval and extending the first keeps the order. -/
theorem SortedByStart.skip
    {I J K : Interval} {rest : List Interval}
    (h : SortedByStart (I :: J :: rest)) (hK : K.start = I.start) :
    SortedByStart (K :: rest) := by
  obtain ⟨hI, htail⟩ := List.pairwise_cons.mp h
  refine List.pairwise_cons.mpr ⟨?_, (List.pairwise_cons.mp htail).2⟩
  intro L hL
  rw [hK]
  exact hI L (List.mem_cons_of_mem _ hL)

theorem startsFrom_mergeFrom
    (last : Interval) (rest : List Interval) {a : ℤ}
    (hlast : a ≤ last.start) (hrest : StartsFrom a rest) :
    StartsFrom a (mergeFrom last rest) := by
  induction rest generalizing last with
  | nil => simpa [mergeFrom, StartsFrom] using hlast
  | cons current rest ih =>
      obtain ⟨hcurrent, htail⟩ := List.forall_mem_cons.mp hrest
      simp only [mergeFrom]
      split
      · split
        · exact ih _ hlast htail
        · exact ih _ hlast htail
      · exact List.forall_mem_cons.mpr ⟨hlast, ih _ hcurrent htail⟩

/-- Merging covers what the interval being extended and the rest cover. -/
theorem covered_mergeFrom
    (last : Interval) (rest : List Interval)
    (hsorted : SortedByStart (last :: rest)) (x : ℤ) :
    Covered (mergeFrom last rest) x ↔ x ∈ last ∨ Covered rest x := by
  induction rest generalizing last with
  | nil => simp [mergeFrom]
  | cons current rest ih =>
      obtain ⟨hlast, htail⟩ := List.pairwise_cons.mp hsorted
      have hcurrent : last.start ≤ current.start := hlast current (by simp)
      simp only [mergeFrom]
      split
      next htouch =>
        split
        next hlonger =>
          have hskip : SortedByStart
              (⟨last.start, current.stop, last.start_lt_stop.trans hlonger⟩ ::
                rest) := hsorted.skip rfl
          rw [ih _ hskip, covered_cons, ← or_assoc]
          apply or_congr_left
          simp only [Interval.mem_def]
          omega
        next hinside =>
          rw [ih _ (hsorted.skip rfl), covered_cons]
          have hcov : x ∈ current → x ∈ last := by
            simp only [Interval.mem_def]
            omega
          tauto
      next hgap =>
        rw [covered_cons, ih _ htail, covered_cons]

/-- Merging leaves a positive gap after every interval. -/
theorem separated_mergeFrom
    (last : Interval) (rest : List Interval)
    (hsorted : SortedByStart (last :: rest)) :
    Separated (mergeFrom last rest) := by
  induction rest generalizing last with
  | nil => simp [mergeFrom, Separated]
  | cons current rest ih =>
      have htail := (List.pairwise_cons.mp hsorted).2
      simp only [mergeFrom]
      split
      · split
        · exact ih _ (hsorted.skip rfl)
        · exact ih _ (hsorted.skip rfl)
      next hgap =>
        refine List.pairwise_cons.mpr ⟨?_, ih _ htail⟩
        -- everything merged after the gap starts at `current` or later
        have hafter : StartsFrom current.start (mergeFrom current rest) :=
          startsFrom_mergeFrom _ _ le_rfl (List.pairwise_cons.mp htail).1
        intro I hI
        exact lt_of_lt_of_le (not_le.mp hgap) (hafter I hI)

theorem sortedByStart_sort (xs : List Interval) :
    SortedByStart (xs.insertionSort Interval.le) := by
  apply (List.pairwise_insertionSort Interval.le xs).imp
  intro I J h
  rw [Interval.le] at h
  omega

/-- `normalize` covers the instants its input covers. -/
theorem covered_normalize (xs : List Interval) (x : ℤ) :
    Covered (normalize xs) x ↔ Covered xs x := by
  have hmem : Covered (xs.insertionSort Interval.le) x ↔ Covered xs x := by
    simp only [Covered, List.mem_insertionSort]
  have hsorted := sortedByStart_sort xs
  rw [normalize]
  cases h : xs.insertionSort Interval.le with
  | nil => simpa [h] using hmem
  | cons first rest =>
      rw [h] at hmem hsorted
      rw [covered_mergeFrom first rest hsorted, ← covered_cons]
      exact hmem

/-- `normalize` returns intervals in order with positive gaps. -/
theorem separated_normalize (xs : List Interval) :
    Separated (normalize xs) := by
  have hsorted := sortedByStart_sort xs
  rw [normalize]
  cases h : xs.insertionSort Interval.le with
  | nil => exact List.Pairwise.nil
  | cons first rest =>
      rw [h] at hsorted
      exact separated_mergeFrom first rest hsorted

/-! ## Carving out blocks -/

theorem covered_pieceBefore
    (span : Interval) (cursor : ℤ) (h : cursor < span.stop)
    (block : Interval) (x : ℤ) :
    Covered (pieceBefore span cursor h block) x ↔
      cursor ≤ x ∧ x < block.start ∧ x < span.stop := by
  rw [pieceBefore]
  split
  · simp [Interval.mem_def]
  · simp only [covered_nil, false_iff]
    omega

/-- `carve` covers the part of the span from the cursor on that no block
covers. -/
theorem covered_carve
    (span : Interval) (cursor : ℤ) (h : cursor < span.stop)
    (blocks : List Interval) (hblocks : Separated blocks) (x : ℤ) :
    Covered (carve span cursor h blocks) x ↔
      (cursor ≤ x ∧ x < span.stop) ∧ ¬ Covered blocks x := by
  induction blocks generalizing cursor with
  | nil => simp [carve, Interval.mem_def]
  | cons block blocks ih =>
      obtain ⟨hlater, hrest⟩ := List.pairwise_cons.mp hblocks
      have hpos := block.start_lt_stop
      -- no later block reaches back to the end of this one
      have hafter : Covered blocks x → block.stop < x := by
        rintro ⟨J, hJ, hmem⟩
        exact lt_of_lt_of_le (hlater J hJ) hmem.1
      simp only [carve]
      by_cases hcov : Covered blocks x
      · have hx := hafter hcov
        split
        · simp [ih _ h hrest, hcov]
        · split
          · simp only [covered_cons, covered_nil, Interval.mem_def, hcov,
              or_true, or_false, not_true_eq_false, and_false, iff_false]
            omega
          · split
            · simp only [covered_cons, covered_pieceBefore, hcov, or_true,
                not_true_eq_false, and_false, iff_false]
              omega
            · simp only [covered_cons, covered_append, covered_pieceBefore,
                ih _ _ hrest, hcov, or_true, or_false, not_true_eq_false,
                and_false, iff_false]
              omega
      · split
        · simp only [ih _ h hrest, covered_cons, Interval.mem_def, hcov,
            or_false, not_false_eq_true, and_true]
          omega
        · split
          · simp only [covered_cons, covered_nil, Interval.mem_def, hcov,
              or_false]
            omega
          · split
            · simp only [covered_cons, Interval.mem_def, covered_pieceBefore,
                hcov, or_false]
              omega
            · simp only [covered_cons, Interval.mem_def, covered_append,
                covered_pieceBefore, ih _ _ hrest, hcov, or_false,
                not_false_eq_true, and_true]
              omega

/-- Every interval `carve` returns lies in the rest of the span. -/
theorem carve_bounds
    (span : Interval) (cursor : ℤ) (h : cursor < span.stop)
    (blocks : List Interval) :
    ∀ I ∈ carve span cursor h blocks, cursor ≤ I.start ∧ I.stop ≤ span.stop := by
  induction blocks generalizing cursor with
  | nil => simp [carve]
  | cons block blocks ih =>
      have hpiece : ∀ I ∈ pieceBefore span cursor h block,
          cursor ≤ I.start ∧ I.stop ≤ span.stop := by
        intro I hI
        rw [pieceBefore] at hI
        split at hI
        · rw [List.mem_singleton.mp hI]
          exact ⟨le_rfl, min_le_right _ _⟩
        · simp at hI
      intro I hI
      simp only [carve] at hI
      split at hI
      · exact ih _ h I hI
      · split at hI
        · rw [List.mem_singleton.mp hI]
          exact ⟨le_rfl, le_rfl⟩
        · split at hI
          · exact hpiece I hI
          · rcases List.mem_append.mp hI with hI | hI
            · exact hpiece I hI
            · obtain ⟨hstart, hstop⟩ := ih _ _ I hI
              exact ⟨le_trans (le_max_left _ _) hstart, hstop⟩

/-- The pieces of one span keep positive gaps. -/
theorem separated_carve
    (span : Interval) (cursor : ℤ) (h : cursor < span.stop)
    (blocks : List Interval) : Separated (carve span cursor h blocks) := by
  induction blocks generalizing cursor with
  | nil => simp [carve, Separated]
  | cons block blocks ih =>
      have hpiece : Separated (pieceBefore span cursor h block) := by
        rw [pieceBefore]
        split <;> simp [Separated]
      simp only [carve]
      split
      · exact ih _ h
      · split
        · simp [Separated]
        · split
          · exact hpiece
          next hgoes =>
            refine List.pairwise_append.mpr ⟨hpiece, ih _ _, ?_⟩
            intro I hI J hJ
            -- the block itself lies between the two pieces
            have hI' : I.stop ≤ block.start := by
              rw [pieceBefore] at hI
              split at hI
              · rw [List.mem_singleton.mp hI]
                exact min_le_left _ _
              · simp at hI
            have hJ' := (carve_bounds span _ _ blocks J hJ).1
            have hpos := block.start_lt_stop
            omega

/-- `subtract` covers what `base` covers and no block does. -/
theorem covered_subtract (base blocks : List Interval) (x : ℤ) :
    Covered (subtract base blocks) x ↔ Covered base x ∧ ¬ Covered blocks x := by
  have hnorm := covered_normalize blocks x
  have hsep := separated_normalize blocks
  rw [subtract]
  cases h : normalize blocks with
  | nil =>
      rw [h] at hnorm
      simp [← hnorm]
  | cons obstacle obstacles =>
      rw [h] at hnorm hsep
      rw [← hnorm]
      constructor
      · rintro ⟨I, hI, hx⟩
        obtain ⟨span, hspan, hpiece⟩ := List.mem_flatMap.mp hI
        have hcov := (covered_carve span span.start span.start_lt_stop _
          hsep x).mp ⟨I, hpiece, hx⟩
        exact ⟨⟨span, hspan, hcov.1⟩, hcov.2⟩
      · rintro ⟨⟨span, hspan, hx⟩, hfree⟩
        obtain ⟨I, hI, hxI⟩ := (covered_carve span span.start
          span.start_lt_stop _ hsep x).mpr ⟨hx, hfree⟩
        exact ⟨I, List.mem_flatMap.mpr ⟨span, hspan, hI⟩, hxI⟩

/-- Subtracting from separated intervals leaves separated intervals. -/
theorem separated_subtract
    {base : List Interval} (hbase : Separated base) (blocks : List Interval) :
    Separated (subtract base blocks) := by
  rw [subtract]
  cases normalize blocks with
  | nil => exact hbase
  | cons obstacle obstacles =>
      refine List.pairwise_flatMap.mpr
        ⟨fun span _ => separated_carve span _ _ _, hbase.imp ?_⟩
      intro I J hIJ A hA B hB
      have hA' := (carve_bounds I _ _ _ A hA).2
      have hB' := (carve_bounds J _ _ _ B hB).1
      omega

/-! ## Clipping -/

/-- `clip` covers the part of its input that lies in the window. -/
theorem covered_clip (xs : List Interval) (window : Interval) (x : ℤ) :
    Covered (clip xs window) x ↔ Covered xs x ∧ x ∈ window := by
  constructor
  · rintro ⟨I, hI, hx⟩
    obtain ⟨span, hspan, heq⟩ := List.mem_filterMap.mp hI
    split at heq
    · obtain rfl := Option.some.inj heq
      have hin : x ∈ span ∧ x ∈ window := by
        simp only [Interval.mem_def] at hx ⊢
        omega
      exact ⟨⟨span, hspan, hin.1⟩, hin.2⟩
    · simp at heq
  · rintro ⟨⟨span, hspan, hx⟩, hwindow⟩
    simp only [Interval.mem_def] at hx hwindow
    have hne : max span.start window.start < min span.stop window.stop := by
      omega
    refine ⟨⟨_, _, hne⟩, List.mem_filterMap.mpr ⟨span, hspan, ?_⟩, ?_⟩
    · rw [dif_pos hne]
    · simp only [Interval.mem_def]
      omega

end BarberHub
