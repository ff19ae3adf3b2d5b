import Mathlib.Algebra.BigOperators.Group.List.Basic
import Mathlib.Algebra.Ring.Int.Defs
import Mathlib.Data.List.Nodup

/-!
# Tables with a primary key

A table is a list of rows, and its primary key a function of the row that no
two rows share.  This module contains reading a row by its key, rewriting the
row with a key, and adding a row, with what each does to the others.  It is
parameterized by the type of rows and keys and names no application.
-/

namespace KeyedTable

variable {α κ : Type*} [DecidableEq κ]

/-- No two rows share a key. -/
def UniqueKeys (key : α → κ) (rows : List α) : Prop :=
  (rows.map key).Nodup

instance (key : α → κ) (rows : List α) :
    Decidable (UniqueKeys key rows) :=
  inferInstanceAs (Decidable (List.Nodup _))

/-- The row with a key. -/
def lookup (key : α → κ) (rows : List α) (k : κ) : Option α :=
  rows.find? fun r => key r = k

/-- Rewrite the row with a key. -/
def updateAt (key : α → κ) (k : κ) (f : α → α) (rows : List α) : List α :=
  rows.map fun r => if key r = k then f r else r

variable {key : α → κ} {rows : List α} {k : κ} {r : α}

theorem mem_of_lookup (h : lookup key rows k = some r) : r ∈ rows :=
  List.mem_of_find?_eq_some h

theorem key_of_lookup (h : lookup key rows k = some r) : key r = k := by
  simpa using List.find?_some h

theorem lookup_eq_none_iff :
    lookup key rows k = none ↔ ∀ r ∈ rows, key r ≠ k := by
  simp [lookup]

omit [DecidableEq κ] in
theorem UniqueKeys.eq_of_mem
    (h : UniqueKeys key rows) {r' : α} (hr : r ∈ rows) (hr' : r' ∈ rows)
    (hkey : key r = key r') : r = r' :=
  List.inj_on_of_nodup_map h hr hr' hkey

omit [DecidableEq κ] in
theorem UniqueKeys.perm
    (h : UniqueKeys key rows) {rows' : List α} (hperm : rows.Perm rows') :
    UniqueKeys key rows' :=
  (hperm.map key).nodup_iff.mp h

/-- With unique keys, the row read by a key is the row that has it. -/
theorem UniqueKeys.lookup_eq_some_iff (h : UniqueKeys key rows) :
    lookup key rows k = some r ↔ r ∈ rows ∧ key r = k := by
  constructor
  · exact fun hr => ⟨mem_of_lookup hr, key_of_lookup hr⟩
  · rintro ⟨hr, rfl⟩
    cases hfound : lookup key rows (key r) with
    | none => exact absurd rfl (lookup_eq_none_iff.mp hfound r hr)
    | some r' =>
        rw [h.eq_of_mem (mem_of_lookup hfound) hr (key_of_lookup hfound)]

/-- With unique keys, at most one row has a key. -/
theorem UniqueKeys.filter_eq_lookup (h : UniqueKeys key rows) :
    (rows.filter fun r => key r = k) = (lookup key rows k).toList := by
  induction rows with
  | nil => rfl
  | cons r rows ih =>
      rw [UniqueKeys, List.map_cons, List.nodup_cons] at h
      by_cases hk : key r = k
      · have hnone : (rows.filter fun r => key r = k) = [] := by
          rw [List.filter_eq_nil_iff]
          intro other hother hsame
          refine h.1 (List.mem_map.mpr ⟨other, hother, ?_⟩)
          rw [hk]
          exact of_decide_eq_true hsame
        rw [List.filter_cons_of_pos (by simpa using hk), hnone, lookup,
          List.find?_cons_of_pos (by simpa using hk)]
        rfl
      · rw [List.filter_cons_of_neg (by simpa using hk), lookup,
          List.find?_cons_of_neg (by simpa using hk)]
        exact ih h.2

/-- Rewriting rows without touching their keys. -/
theorem lookup_map {f : α → α} (hf : ∀ r, key (f r) = key r) :
    lookup key (rows.map f) k = (lookup key rows k).map f := by
  unfold lookup
  rw [List.find?_map]
  have hkeys : (fun r => decide (key r = k)) ∘ f =
      fun r => decide (key r = k) := by
    funext r
    simp [hf r]
  rw [hkeys]

/-! ## Rewriting the row with a key -/

theorem mem_updateAt {f : α → α} :
    r ∈ updateAt key k f rows ↔
      (r ∈ rows ∧ key r ≠ k) ∨ ∃ old ∈ rows, key old = k ∧ f old = r := by
  rw [updateAt]
  rw [List.mem_map]
  constructor
  · rintro ⟨old, hold, rfl⟩
    by_cases hk : key old = k
    · exact Or.inr ⟨old, hold, hk, by rw [if_pos hk]⟩
    · exact Or.inl (by rw [if_neg hk]; exact ⟨hold, hk⟩)
  · rintro (⟨hr, hk⟩ | ⟨old, hold, hk, rfl⟩)
    · exact ⟨r, hr, if_neg hk⟩
    · exact ⟨old, hold, if_pos hk⟩

/-- A rewrite that keeps a column keeps the column of the whole table. -/
theorem map_updateAt
    {β : Type*} {column : α → β} {f : α → α}
    (hf : ∀ r ∈ rows, key r = k → column (f r) = column r) :
    (updateAt key k f rows).map column = rows.map column := by
  rw [updateAt]
  rw [List.map_map]
  apply List.map_congr_left
  intro r hr
  by_cases hk : key r = k
  · simp [hk, hf r hr hk]
  · simp [hk]

/-- The other rows are as they were. -/
theorem filter_updateAt_ne {f : α → α} (hf : ∀ r, key (f r) = key r) :
    ((updateAt key k f rows).filter fun r => key r ≠ k) =
      rows.filter fun r => key r ≠ k := by
  induction rows with
  | nil => exact List.filter_nil
  | cons r rows ih =>
      rw [updateAt, List.map_cons]
      by_cases hk : key r = k
      · rw [if_pos hk, List.filter_cons_of_neg (by simp [hf, hk]),
          List.filter_cons_of_neg (by simp [hk])]
        exact ih
      · rw [if_neg hk, List.filter_cons_of_pos (by simp [hk]),
          List.filter_cons_of_pos (by simp [hk])]
        exact congrArg _ ih

theorem UniqueKeys.updateAt
    {f : α → α} (h : UniqueKeys key rows)
    (hf : ∀ r ∈ rows, key r = k → key (f r) = key r) :
    UniqueKeys key (updateAt key k f rows) := by
  rw [UniqueKeys]
  rw [map_updateAt hf]
  exact h

omit [DecidableEq κ] in
/-- Rewriting a row into one that shares nothing with the others keeps a second
key unique. -/
theorem UniqueKeys.replaceAt
    {ι : Type*} [DecidableEq ι] {primary : α → ι} {k : ι} {new : α}
    (h : UniqueKeys key rows) (hprimary : UniqueKeys primary rows)
    (hnew : ∀ r ∈ rows, primary r ≠ k → key r ≠ key new) :
    UniqueKeys key (KeyedTable.updateAt primary k (fun _ => new) rows) := by
  induction rows with
  | nil => exact List.nodup_nil
  | cons r rows ih =>
      rw [UniqueKeys, List.map_cons, List.nodup_cons] at h hprimary
      have hrest := ih h.2 hprimary.2 fun other hother =>
        hnew other (List.mem_cons_of_mem r hother)
      rw [UniqueKeys, KeyedTable.updateAt, List.map_cons, List.map_cons,
        List.nodup_cons]
      refine ⟨?_, hrest⟩
      intro hmem
      obtain ⟨other, hother, hsame⟩ := List.mem_map.mp hmem
      rw [← KeyedTable.updateAt, mem_updateAt] at hother
      by_cases hk : primary r = k
      · rw [if_pos hk] at hsame
        rcases hother with ⟨hother, hne⟩ | ⟨old, hold, hid, -⟩
        · exact hnew other (List.mem_cons_of_mem r hother) hne hsame
        · refine hprimary.1 (List.mem_map.mpr ⟨old, hold, ?_⟩)
          rw [hid, hk]
      · rw [if_neg hk] at hsame
        rcases hother with ⟨hother, -⟩ | ⟨_, _, _, rfl⟩
        · exact h.1 (List.mem_map.mpr ⟨other, hother, hsame⟩)
        · exact hnew r List.mem_cons_self hk hsame.symm

theorem lookup_updateAt_self
    {f : α → α} (hf : ∀ r, key r = k → key (f r) = k) :
    lookup key (updateAt key k f rows) k = (lookup key rows k).map f := by
  induction rows with
  | nil => rfl
  | cons r rows ih =>
      unfold lookup updateAt at ih ⊢
      by_cases hk : key r = k
      · simp [hk, hf r hk]
      · simpa [hk] using ih

theorem lookup_updateAt_of_ne
    {f : α → α} {k' : κ} (hk' : k' ≠ k)
    (hf : ∀ r, key r = k → key (f r) = k) :
    lookup key (updateAt key k f rows) k' = lookup key rows k' := by
  induction rows with
  | nil => rfl
  | cons r rows ih =>
      unfold lookup updateAt at ih ⊢
      by_cases hk : key r = k
      · simpa [hk, hf r hk, hk'.symm] using ih
      · by_cases hkr : key r = k'
        · simp [hkr, hk']
        · simpa [hk, hkr] using ih

/-- Writing a row as it is changes nothing. -/
theorem UniqueKeys.updateAt_self (h : UniqueKeys key rows)
    (hr : lookup key rows k = some r) :
    KeyedTable.updateAt key k (fun _ => r) rows = rows := by
  conv_rhs => rw [← List.map_id rows]
  apply List.map_congr_left
  intro old hold
  by_cases hk : key old = k
  · have hsame : lookup key rows k = some old :=
      h.lookup_eq_some_iff.mpr ⟨hold, hk⟩
    rw [if_pos hk, id_eq]
    exact Option.some.inj (hr.symm.trans hsame)
  · rw [if_neg hk, id_eq]

/-- A rewrite that keeps the key removes no row and adds none. -/
theorem isSome_lookup_updateAt
    {f : α → α} {k' : κ} (hf : ∀ r, key r = k → key (f r) = k) :
    (lookup key (updateAt key k f rows) k').isSome =
      (lookup key rows k').isSome := by
  by_cases hk' : k' = k
  · subst hk'
    rw [lookup_updateAt_self hf, Option.isSome_map]
  · rw [lookup_updateAt_of_ne hk' hf]

/-- Rewriting one row changes a sum over the table by what it changes in that
row. -/
theorem sum_updateAt
    (h : UniqueKeys key rows) (hr : lookup key rows k = some r) (f : α → α)
    (g : α → ℤ) :
    ((updateAt key k f rows).map g).sum + g r = (rows.map g).sum + g (f r) := by
  induction rows with
  | nil => simp [lookup] at hr
  | cons x rows ih =>
      rw [UniqueKeys, List.map_cons, List.nodup_cons] at h
      rw [updateAt, List.map_cons, List.map_cons, List.map_cons, List.sum_cons,
        List.sum_cons]
      by_cases hk : key x = k
      · rw [lookup, List.find?_cons_of_pos (by simpa using hk)] at hr
        obtain rfl := Option.some.inj hr
        have hrest : updateAt key k f rows = rows := by
          rw [updateAt]
          conv_rhs => rw [← List.map_id rows]
          apply List.map_congr_left
          intro other hother
          refine if_neg fun hsame => h.1 (List.mem_map.mpr ⟨other, hother, ?_⟩)
          rw [hk, hsame]
        rw [updateAt] at hrest
        rw [if_pos hk, hrest]
        omega
      · rw [lookup, List.find?_cons_of_neg (by simpa using hk)] at hr
        have hrest := ih h.2 hr
        rw [updateAt] at hrest
        rw [if_neg hk]
        omega

/-! ## Adding a row -/

omit [DecidableEq κ] in
theorem UniqueKeys.append_singleton
    (h : UniqueKeys key rows) (hfresh : ∀ old ∈ rows, key old ≠ key r) :
    UniqueKeys key (rows ++ [r]) := by
  rw [UniqueKeys]
  rw [List.map_append, List.map_singleton]
  apply List.Nodup.append h (List.nodup_singleton _)
  intro k' hk' hr
  obtain ⟨old, hold, rfl⟩ := List.mem_map.mp hk'
  exact hfresh old hold (List.mem_singleton.mp hr)

theorem lookup_append_of_some {added : List α}
    (h : lookup key rows k = some r) :
    lookup key (rows ++ added) k = some r := by
  rw [lookup] at h ⊢
  rw [List.find?_append, h]
  rfl

/-- The row that was added is found by its key. -/
theorem lookup_append_singleton
    (h : lookup key rows (key r) = none) :
    lookup key (rows ++ [r]) (key r) = some r := by
  rw [lookup] at h ⊢
  rw [List.find?_append, h]
  simp

end KeyedTable
