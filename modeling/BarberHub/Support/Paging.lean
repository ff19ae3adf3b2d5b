import BarberHub.Support.Grouping
import Mathlib.Data.Rat.Floor
import Mathlib.Order.Bounds.Defs
import Mathlib.Tactic.Positivity

/-!
# Pages of an ordered query

A query with `ORDER BY`, `LIMIT` and `OFFSET` gives a piece of the sorted rows,
and rows the order does not tell apart come as each execution happens to scan
them.  If the order tells all rows apart, the pieces that follow each other make
up the sorted rows.  The module is parameterized by the type of rows and by the
order, and names no application.
-/

namespace Paging

open Grouping

variable {α : Type}

/-- The order in which one execution of a query scans the rows. -/
structure Scan (α : Type) where
  rows : List α → List α
  perm : ∀ l, (rows l).Perm l

/-- `ORDER BY ... OFFSET ... LIMIT ...`. -/
def slice (scan : Scan α) (le : α → α → Prop) [DecidableRel le]
    (offset limit : ℕ) (rows : List α) : List α :=
  (((scan.rows rows).insertionSort le).drop offset).take limit

/-- The order tells the rows apart. -/
def Separates (le : α → α → Prop) (rows : List α) : Prop :=
  ∀ a ∈ rows, ∀ b ∈ rows, le a b → le b a → a = b

theorem Separates.thenBy {le le' : α → α → Prop} {rows : List α}
    (h : Separates le' rows) : Separates (thenBy le le') rows :=
  fun a ha b hb hab hba => h a ha b hb (hab.2 hba.1) (hba.2 hab.1)

/-- A key tells the rows apart. -/
theorem separates_key {κ : Type} [LinearOrder κ] {key : α → κ} {rows : List α}
    (h : (rows.map key).Nodup) : Separates (fun a b => key a ≤ key b) rows :=
  fun _ ha _ hb hab hba => List.inj_on_of_nodup_map h ha hb (le_antisymm hab hba)

section

variable {le : α → α → Prop} [DecidableRel le] {rows : List α}

/-- Every execution takes its piece of the same list. -/
theorem slice_eq (hle : Preorders le) (hseparates : Separates le rows)
    (scan : Scan α) (offset limit : ℕ) :
    slice scan le offset limit rows =
      ((rows.insertionSort le).drop offset).take limit := by
  rw [slice, ← insertionSort_perm hle (scan.perm rows).symm hseparates]

/-- Consecutive pieces make up the list as far as they reach. -/
theorem flatMap_take_drop (rows : List α) (limit pages : ℕ) :
    ((List.range pages).flatMap fun i => (rows.drop (i * limit)).take limit) =
      rows.take (pages * limit) := by
  induction pages with
  | zero => simp
  | succ pages ih =>
      rw [List.range_succ, List.flatMap_append, ih, List.flatMap_singleton,
        Nat.succ_mul, List.take_add]

end

/-- The quotient rounded up is the least number of pages with room for all
rows. -/
theorem isLeast_ceil (total : ℕ) {limit : ℕ} (h : 0 < limit) :
    IsLeast {n | total ≤ n * limit} ⌈(total / limit : ℚ)⌉₊ := by
  have hlimit : (0 : ℚ) < limit := by exact_mod_cast h
  have hroom : ∀ n : ℕ, ⌈(total / limit : ℚ)⌉₊ ≤ n ↔ total ≤ n * limit := by
    intro n
    rw [Nat.ceil_le, div_le_iff₀ hlimit]
    exact_mod_cast Iff.rfl
  exact ⟨(hroom _).mp le_rfl, fun n hn => (hroom n).mpr hn⟩

end Paging
