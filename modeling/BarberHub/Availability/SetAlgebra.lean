import BarberHub.Availability.Intervals

/-!
# Interval lists as sets of instants

`normalize` and `subtract` of `app/services/availability.py` as operations on
the set of instants a list of intervals covers: `normalize` picks one list for
every such set, and `subtract` is set difference, carried out inside one
interval of the base after the other.
-/

namespace BarberHub

open HalfOpen

/-! ## The canonical list -/

theorem normalize_eq_iff (xs ys : List Interval) :
    normalize xs = normalize ys ↔ ∀ x, Covered xs x ↔ Covered ys x := by
  constructor
  · intro heq x
    rw [← covered_normalize xs, heq, covered_normalize]
  · intro hcov
    refine (separated_normalize xs).eq_of_covered_iff (separated_normalize ys) ?_
    intro x
    rw [covered_normalize, covered_normalize]
    exact hcov x

/-- The two halves of an interval cover what the interval covers. -/
theorem covered_split
    (I : Interval) {m : ℤ} (hleft : I.start < m) (hright : m < I.stop)
    (xs : List Interval) (x : ℤ) :
    Covered (⟨I.start, m, hleft⟩ :: ⟨m, I.stop, hright⟩ :: xs) x ↔
      Covered (I :: xs) x := by
  rw [covered_cons, covered_cons, covered_cons, ← or_assoc]
  apply or_congr_left
  simp only [Interval.mem_def]
  omega

/-- `normalize` computes a canonical form of the covered set: equal lists for
equal sets, and none of order, repetition and splitting matters. -/
theorem normalize_canonical :
    (∀ xs ys : List Interval,
      normalize xs = normalize ys ↔ ∀ x, Covered xs x ↔ Covered ys x) ∧
    ∀ xs : List Interval,
      (∀ x, Covered (normalize xs) x ↔ Covered xs x) ∧
      Separated (normalize xs) ∧
      normalize (normalize xs) = normalize xs ∧
      (∀ ys : List Interval, xs.Perm ys → normalize ys = normalize xs) ∧
      (∀ I ∈ xs, normalize (I :: xs) = normalize xs) ∧
      ∀ (I : Interval) (m : ℤ) (hleft : I.start < m) (hright : m < I.stop),
        normalize (⟨I.start, m, hleft⟩ :: ⟨m, I.stop, hright⟩ :: xs) =
          normalize (I :: xs) := by
  refine ⟨normalize_eq_iff, fun xs => ⟨covered_normalize xs,
    separated_normalize xs, ?_, ?_, ?_, ?_⟩⟩
  · exact (normalize_eq_iff _ _).mpr (covered_normalize xs)
  · intro ys hperm
    apply (normalize_eq_iff _ _).mpr
    intro x
    simp only [Covered, hperm.mem_iff]
  · intro I hI
    apply (normalize_eq_iff _ _).mpr
    intro x
    rw [covered_cons]
    exact or_iff_right_of_imp fun hx => ⟨I, hI, hx⟩
  · intro I m hleft hright
    exact (normalize_eq_iff _ _).mpr (covered_split I hleft hright xs)

/-! ## Set difference, one interval of the base at a time -/

theorem subtract_cons (span : Interval) (base blocks : List Interval) :
    subtract (span :: base) blocks =
      subtract [span] blocks ++ subtract base blocks := by
  simp only [subtract]
  cases normalize blocks with
  | nil => rfl
  | cons obstacle obstacles => simp

/-- The result is the concatenation of what is left of each base interval. -/
theorem subtract_eq_flatMap (base blocks : List Interval) :
    subtract base blocks = base.flatMap fun span => subtract [span] blocks := by
  induction base with
  | nil =>
      simp only [subtract, List.flatMap_nil]
      split <;> rfl
  | cons span base ih => rw [subtract_cons, ih, List.flatMap_cons]

theorem subtract_within
    {span I : Interval} {blocks : List Interval}
    (hI : I ∈ subtract [span] blocks) :
    span.start ≤ I.start ∧ I.stop ≤ span.stop := by
  rw [subtract] at hI
  split at hI
  · rw [List.mem_singleton.mp hI]
    exact ⟨le_rfl, le_rfl⟩
  · rw [List.flatMap_singleton] at hI
    exact carve_bounds span _ _ _ I hI

/-- What is left of one interval are the longest stretches of it that no block
covers. -/
theorem subtract_isStretch_iff
    (span : Interval) (blocks : List Interval) (a b : ℤ) :
    (∃ I ∈ subtract [span] blocks, I.start = a ∧ I.stop = b) ↔
      IsStretch (fun x => x ∈ span ∧ ¬ Covered blocks x) a b := by
  have hsep : Separated (subtract [span] blocks) :=
    separated_subtract (List.pairwise_singleton _ _) blocks
  rw [← hsep.isStretch_iff]
  apply isStretch_congr
  intro x
  rw [covered_subtract, covered_cons, or_iff_left (covered_nil x)]

/-- `subtract` is set difference with order kept. -/
theorem subtract_difference (base blocks : List Interval) :
    (∀ I ∈ subtract base blocks, I.start < I.stop) ∧
    (∀ x, Covered (subtract base blocks) x ↔
      Covered base x ∧ ¬ Covered blocks x) ∧
    (∀ I ∈ subtract base blocks,
      ∃ span ∈ base, span.start ≤ I.start ∧ I.stop ≤ span.stop) ∧
    subtract base blocks = base.flatMap (fun span => subtract [span] blocks) ∧
    ∀ span ∈ base,
      Separated (subtract [span] blocks) ∧
      ∀ a b, (∃ I ∈ subtract [span] blocks, I.start = a ∧ I.stop = b) ↔
        IsStretch (fun x => x ∈ span ∧ ¬ Covered blocks x) a b := by
  refine ⟨fun I _ => I.start_lt_stop, covered_subtract base blocks, ?_,
    subtract_eq_flatMap base blocks, fun span _ => ⟨?_, ?_⟩⟩
  · intro I hI
    rw [subtract_eq_flatMap] at hI
    obtain ⟨span, hspan, hpiece⟩ := List.mem_flatMap.mp hI
    exact ⟨span, hspan, subtract_within hpiece⟩
  · exact separated_subtract (List.pairwise_singleton _ _) blocks
  · exact subtract_isStretch_iff span blocks

end BarberHub
