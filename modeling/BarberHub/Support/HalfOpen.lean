import Mathlib.Order.Lattice
import Mathlib.Order.Defs.LinearOrder

/-!
# Half-open intervals over a linear order

This module contains the order theory behind calendar arithmetic: half-open
spans `[start, stop)`, when two of them meet, which points a list of them
covers, and why a stretch covered by pairwise separated spans lies inside one
of them.  It is parameterized by the linear order and names no application.
-/

namespace HalfOpen

variable {α : Type*} [LinearOrder α]

/-- The spans `[s, e)` and `[s', e')` have a point in common, provided both
are nonempty. -/
def Overlap (s e s' e' : α) : Prop :=
  s < e' ∧ s' < e

instance (s e s' e' : α) : Decidable (Overlap s e s' e') :=
  inferInstanceAs (Decidable (_ ∧ _))

theorem overlap_comm {s e s' e' : α} :
    Overlap s e s' e' ↔ Overlap s' e' s e :=
  and_comm

theorem overlap_iff_exists
    {s e s' e' : α} (h : s < e) (h' : s' < e') :
    Overlap s e s' e' ↔ ∃ x, (s ≤ x ∧ x < e) ∧ (s' ≤ x ∧ x < e') := by
  constructor
  · rintro ⟨hse, hes⟩
    exact ⟨max s s', ⟨le_max_left _ _, max_lt h hes⟩,
      ⟨le_max_right _ _, max_lt hse h'⟩⟩
  · rintro ⟨x, ⟨hs, he⟩, hs', he'⟩
    exact ⟨lt_of_le_of_lt hs he', lt_of_le_of_lt hs' he⟩

/-- Enlarging either span keeps a common point. -/
theorem Overlap.mono
    {s e s' e' a b : α} (h : Overlap s e s' e')
    (ha : a ≤ s) (hb : e ≤ b) : Overlap a b s' e' :=
  ⟨lt_of_le_of_lt ha h.1, lt_of_lt_of_le h.2 hb⟩

/-- A nonempty half-open span.  The bound is part of the value, so an empty or
inverted span cannot be built. -/
@[ext] structure Interval (α : Type*) [LinearOrder α] where
  start : α
  stop : α
  start_lt_stop : start < stop

namespace Interval

instance : Membership α (Interval α) where
  mem I x := I.start ≤ x ∧ x < I.stop

theorem mem_def {I : Interval α} {x : α} :
    x ∈ I ↔ I.start ≤ x ∧ x < I.stop :=
  Iff.rfl

theorem start_mem (I : Interval α) : I.start ∈ I :=
  ⟨le_rfl, I.start_lt_stop⟩

instance : DecidableEq (Interval α) := fun I J =>
  decidable_of_iff (I.start = J.start ∧ I.stop = J.stop) Interval.ext_iff.symm

instance (I : Interval α) (x : α) : Decidable (x ∈ I) :=
  inferInstanceAs (Decidable (_ ∧ _))

end Interval

/-! ## Tiles -/

/-- Between the first mark and the one after the last, a point is between two
neighbouring marks. -/
theorem exists_tile {mark : Int → α} {first last : Int} (h : first ≤ last) {x : α}
    (hlow : mark first ≤ x) (hhigh : x < mark (last + 1)) :
    ∃ i, (first ≤ i ∧ i ≤ last) ∧ mark i ≤ x ∧ x < mark (i + 1) := by
  obtain ⟨n, rfl⟩ := Int.le.dest h
  clear h
  induction n with
  | zero => exact ⟨first, by omega, hlow, by simpa using hhigh⟩
  | succ n ih =>
      have hnext : first + (n + 1 : Nat) + 1 = first + n + 1 + 1 := by omega
      rw [hnext] at hhigh
      by_cases hx : x < mark (first + n + 1)
      · obtain ⟨i, hi, htile⟩ := ih hx
        exact ⟨i, by omega, htile⟩
      · exact ⟨first + n + 1, by omega, not_lt.mp hx, hhigh⟩

/-! ## Points covered by a list of spans -/

/-- Some span of the list contains the point. -/
def Covered (xs : List (Interval α)) (x : α) : Prop :=
  ∃ I ∈ xs, x ∈ I

@[simp] theorem covered_nil (x : α) : ¬ Covered [] x := by
  simp [Covered]

@[simp] theorem covered_cons
    (I : Interval α) (xs : List (Interval α)) (x : α) :
    Covered (I :: xs) x ↔ x ∈ I ∨ Covered xs x := by
  simp [Covered]

@[simp] theorem covered_append
    (xs ys : List (Interval α)) (x : α) :
    Covered (xs ++ ys) x ↔ Covered xs x ∨ Covered ys x := by
  simp [Covered, or_and_right, exists_or]

/-- Every span ends strictly before the next one starts. -/
def Separated (xs : List (Interval α)) : Prop :=
  xs.Pairwise fun I J => I.stop < J.start

/-- Two spans of a separated list that meet at a point are equal. -/
theorem Separated.eq_of_mem
    {xs : List (Interval α)} (h : Separated xs) {I J : Interval α}
    (hI : I ∈ xs) (hJ : J ∈ xs)
    (hIJ : I.start ≤ J.stop) (hJI : J.start ≤ I.stop) : I = J := by
  induction xs with
  | nil => simp at hI
  | cons K xs ih =>
      obtain ⟨hK, hxs⟩ := List.pairwise_cons.mp h
      rcases List.mem_cons.mp hI with rfl | hIxs
      · rcases List.mem_cons.mp hJ with rfl | hJxs
        · rfl
        · exact absurd hJI (not_le_of_gt (hK J hJxs))
      · rcases List.mem_cons.mp hJ with rfl | hJxs
        · exact absurd hIJ (not_le_of_gt (hK I hIxs))
        · exact ih hxs hIxs hJxs

/-- A stretch all of whose points are covered by separated spans lies inside
one of them: there is no gap it could cross. -/
theorem Separated.exists_span_of_covered
    {xs : List (Interval α)} (h : Separated xs) {t u : α} (htu : t < u)
    (hcov : ∀ x, t ≤ x → x < u → Covered xs x) :
    ∃ I ∈ xs, I.start ≤ t ∧ u ≤ I.stop := by
  obtain ⟨I, hI, htI⟩ := hcov t le_rfl htu
  refine ⟨I, hI, htI.1, ?_⟩
  by_contra hlt
  have hstop : I.stop < u := not_le.mp hlt
  obtain ⟨J, hJ, hJmem⟩ := hcov I.stop (le_of_lt htI.2) hstop
  have hIJ : I = J :=
    h.eq_of_mem hI hJ
      (le_of_lt (lt_trans I.start_lt_stop hJmem.2)) hJmem.1
  subst hIJ
  exact absurd hJmem.2 (lt_irrefl _)

/-! ## Maximal stretches -/

/-- `[a, b)` is a longest stretch of points with the property. -/
structure IsStretch (P : α → Prop) (a b : α) : Prop where
  lt : a < b
  holds : ∀ x, a ≤ x → x < b → P x
  maximal : ∀ a' b', a' ≤ a → b ≤ b' → (∀ x, a' ≤ x → x < b' → P x) →
    a' = a ∧ b' = b

theorem isStretch_congr {P Q : α → Prop} (h : ∀ x, P x ↔ Q x) (a b : α) :
    IsStretch P a b ↔ IsStretch Q a b := by
  rw [funext fun x => propext (h x)]

/-- The longest stretches covered by separated spans are the spans. -/
theorem Separated.isStretch_iff
    {xs : List (Interval α)} (h : Separated xs) {a b : α} :
    IsStretch (Covered xs) a b ↔ ∃ I ∈ xs, I.start = a ∧ I.stop = b := by
  constructor
  · intro hstretch
    obtain ⟨I, hI, hIa, hbI⟩ :=
      h.exists_span_of_covered hstretch.lt hstretch.holds
    exact ⟨I, hI, hstretch.maximal _ _ hIa hbI fun x hx hx' => ⟨I, hI, hx, hx'⟩⟩
  · rintro ⟨I, hI, rfl, rfl⟩
    refine ⟨I.start_lt_stop, fun x hx hx' => ⟨I, hI, hx, hx'⟩, ?_⟩
    intro a' b' ha hb hcov
    have hab : a' < b' := lt_of_le_of_lt ha (lt_of_lt_of_le I.start_lt_stop hb)
    obtain ⟨J, hJ, hJa, hbJ⟩ := h.exists_span_of_covered hab hcov
    have hJI : J.start ≤ I.stop :=
      le_trans hJa (le_trans ha (le_of_lt I.start_lt_stop))
    have hIJ : I.start ≤ J.stop :=
      le_trans (le_of_lt I.start_lt_stop) (le_trans hb hbJ)
    obtain rfl := h.eq_of_mem hI hJ hIJ hJI
    exact ⟨le_antisymm ha hJa, le_antisymm hbJ hb⟩

/-- A finite union of spans is a separated list in one way only. -/
theorem Separated.eq_of_covered_iff
    {xs ys : List (Interval α)} (hxs : Separated xs) (hys : Separated ys)
    (hcov : ∀ x, Covered xs x ↔ Covered ys x) : xs = ys := by
  have hnodup : ∀ {zs : List (Interval α)}, Separated zs → zs.Nodup := by
    intro zs hzs
    refine hzs.imp ?_
    intro I J hIJ heq
    subst heq
    exact absurd hIJ (not_lt_of_ge (le_of_lt I.start_lt_stop))
  have hmem : ∀ {zs : List (Interval α)} {I : Interval α}, Separated zs →
      (I ∈ zs ↔ IsStretch (Covered zs) I.start I.stop) := by
    intro zs I hzs
    rw [hzs.isStretch_iff]
    constructor
    · intro hI
      exact ⟨I, hI, rfl, rfl⟩
    · rintro ⟨J, hJ, hstart, hstop⟩
      rwa [← Interval.ext hstart hstop]
  have hperm : xs.Perm ys := by
    rw [List.perm_ext_iff_of_nodup (hnodup hxs) (hnodup hys)]
    intro I
    rw [hmem hxs, hmem hys, isStretch_congr hcov]
  refine hperm.eq_of_pairwise ?_ hxs hys
  intro I J _ _ hIJ hJI
  have hloop := (I.start_lt_stop.trans hIJ).trans (J.start_lt_stop.trans hJI)
  exact absurd hloop (lt_irrefl _)

end HalfOpen
