import Mathlib.Data.List.Forall2

/-!
# Loops that may fail

A loop over a list whose body may fail answers the list of its results, or the
first failure.  This module relates such an answer to the answers of the body.
It is parameterized by the types involved and names no application.
-/

namespace Fallible

universe u v

variable {α β : Type u} {ε : Type v}

theorem bind_eq_ok_iff {x : Except ε α} {f : α → Except ε β} {b : β} :
    (x >>= f) = .ok b ↔ ∃ a, x = .ok a ∧ f a = .ok b := by
  cases x <;> simp [bind, Except.bind]

/-- The loop answers exactly when its body answers at every element. -/
theorem mapM_eq_ok_iff {f : α → Except ε β} {xs : List α} {ys : List β} :
    xs.mapM f = .ok ys ↔ List.Forall₂ (fun x y => f x = .ok y) xs ys := by
  induction xs generalizing ys with
  | nil =>
      rw [List.mapM_nil, List.forall₂_nil_left_iff]
      exact ⟨fun h => (Except.ok.inj h).symm, fun h => congrArg Except.ok h.symm⟩
  | cons x xs ih =>
      rw [List.mapM_cons, List.forall₂_cons_left_iff]
      cases hx : f x with
      | error e => simp [bind, Except.bind]
      | ok y =>
          cases hxs : xs.mapM f with
          | error e =>
              have hnone : ∀ zs, ¬ List.Forall₂ (fun x y => f x = .ok y) xs zs :=
                fun zs hzs => by
                  rw [← ih, hxs] at hzs
                  simp at hzs
              simp [bind, Except.bind, hnone]
          | ok zs =>
              have hzs : ∀ ws,
                  List.Forall₂ (fun x y => f x = .ok y) xs ws ↔ zs = ws :=
                fun ws => by rw [← ih, hxs, Except.ok.injEq]
              simp [bind, Except.bind, pure, Except.pure, hzs, eq_comm]

/-- Every result comes from an element, and every element has a result. -/
theorem exists_mem_mapM_iff
    {f : α → Except ε β} {xs : List α} {ys : List β}
    (h : xs.mapM f = .ok ys) (P : β → Prop) :
    (∃ y ∈ ys, P y) ↔ ∃ x ∈ xs, ∃ y, f x = .ok y ∧ P y := by
  rw [mapM_eq_ok_iff] at h
  induction h with
  | nil => simp
  | @cons x y xs ys hxy _ ih =>
      rw [List.exists_mem_cons_iff, List.exists_mem_cons_iff, ih]
      apply or_congr_left
      simp [hxy]

theorem exists_result_of_mem
    {f : α → Except ε β} {xs : List α} {ys : List β}
    (h : xs.mapM f = .ok ys) {x : α} (hx : x ∈ xs) : ∃ y ∈ ys, f x = .ok y := by
  rw [mapM_eq_ok_iff] at h
  induction h with
  | nil => simp at hx
  | @cons x' y xs ys hxy _ ih =>
      rcases List.mem_cons.mp hx with rfl | hx
      · exact ⟨y, List.mem_cons_self, hxy⟩
      · obtain ⟨z, hz, hxz⟩ := ih hx
        exact ⟨z, List.mem_cons_of_mem _ hz, hxz⟩

/-- The loop fails only when its body does. -/
theorem exists_mapM_eq_ok {f : α → Except ε β} {xs : List α}
    (h : ∀ x ∈ xs, ∃ y, f x = .ok y) : ∃ ys, xs.mapM f = .ok ys := by
  induction xs with
  | nil => exact ⟨[], rfl⟩
  | cons x xs ih =>
      obtain ⟨y, hy⟩ := h x (List.mem_cons_self)
      obtain ⟨ys, hys⟩ := ih fun z hz => h z (List.mem_cons_of_mem _ hz)
      exact ⟨y :: ys, by rw [List.mapM_cons, hy, hys]; rfl⟩

/-- A piece of the results is that of the same piece of the list. -/
theorem mapM_take_drop {f : α → Except ε β} {xs : List α} {ys : List β}
    (h : xs.mapM f = .ok ys) (offset limit : ℕ) :
    ((xs.drop offset).take limit).mapM f = .ok ((ys.drop offset).take limit) := by
  rw [mapM_eq_ok_iff] at h ⊢
  exact List.forall₂_take limit (List.forall₂_drop offset h)

/-- A loop whose body does not fail. -/
theorem mapM_ok (f : α → β) (xs : List α) :
    (xs.mapM fun x => (.ok (f x) : Except ε β)) = .ok (xs.map f) := by
  rw [mapM_eq_ok_iff, List.forall₂_map_right_iff, List.forall₂_same]
  exact fun _ _ => rfl

/-- A loop over the elements that pass a test, when the results tell which those
are. -/
theorem mapM_filter {f : α → Except ε β} {p : α → Bool} {q : β → Bool}
    {xs : List α} {ys : List β} (h : xs.mapM f = .ok ys)
    (hpq : ∀ x y, f x = .ok y → q y = p x) :
    (xs.filter p).mapM f = .ok (ys.filter q) := by
  rw [mapM_eq_ok_iff] at h ⊢
  induction h with
  | nil => exact List.Forall₂.nil
  | @cons x y xs ys hxy _ ih =>
      rw [List.filter_cons, List.filter_cons, hpq x y hxy]
      split
      · exact List.Forall₂.cons hxy ih
      · exact ih

theorem length_of_mapM {f : α → Except ε β} {xs : List α} {ys : List β}
    (h : xs.mapM f = .ok ys) : ys.length = xs.length :=
  (mapM_eq_ok_iff.mp h).length_eq.symm

/-! ## What is raised -/

/-- Every error satisfies `P`. -/
def RaisesOnly (P : ε → Prop) (x : Except ε α) : Prop :=
  ∀ e, x = .error e → P e

theorem raisesOnly_ok (P : ε → Prop) (a : α) : RaisesOnly P (.ok a) := by
  intro e h
  simp at h

theorem raisesOnly_error {P : ε → Prop} {e : ε} (h : P e) :
    RaisesOnly P (.error e : Except ε α) := by
  intro e' heq
  obtain rfl := Except.error.inj heq
  exact h

theorem RaisesOnly.bind {P : ε → Prop} {x : Except ε α} {f : α → Except ε β}
    (hx : RaisesOnly P x) (hf : ∀ a, RaisesOnly P (f a)) :
    RaisesOnly P (x >>= f) := by
  cases x with
  | ok a => exact hf a
  | error e => exact raisesOnly_error (hx e rfl)

theorem RaisesOnly.map {P : ε → Prop} {x : Except ε α} (f : α → β)
    (hx : RaisesOnly P x) : RaisesOnly P (f <$> x) := by
  cases x with
  | ok a => exact raisesOnly_ok P (f a)
  | error e => exact raisesOnly_error (hx e rfl)

/-- A loop raises what its body raises. -/
theorem raisesOnly_mapM {P : ε → Prop} {f : α → Except ε β} (xs : List α)
    (hf : ∀ x, RaisesOnly P (f x)) : RaisesOnly P (xs.mapM f) := by
  induction xs with
  | nil => exact raisesOnly_ok P []
  | cons x xs ih =>
      rw [List.mapM_cons]
      exact (hf x).bind fun y => ih.bind fun ys => raisesOnly_ok P (y :: ys)

end Fallible
