import Mathlib.Data.List.Forall2
import BarberHub.Support.KeyedTable
import BarberHub.Support.RelyGuarantee

/-!
# Tables that grow

A table grows if rows are edited where they stand and new ones are added behind
them.  What the edits keep of a row is a parameter.  No row is lost, and every
row is still found under its key.
-/

namespace KeyedTable

variable {α κ : Type} [DecidableEq κ]

/-- Every row stands where it stood, related to what it was; new rows follow. -/
def Grows (R : α → α → Prop) (rows rows' : List α) : Prop :=
  ∃ old more, rows' = old ++ more ∧ List.Forall₂ R rows old

variable {R : α → α → Prop} {rows rows' rows'' : List α}

theorem grows_refl (hR : ∀ r, R r r) (rows : List α) : Grows R rows rows :=
  ⟨rows, [], by rw [List.append_nil], List.forall₂_same.mpr fun r _ => hR r⟩

theorem Grows.trans
    (hR : ∀ r s t, R r s → R s t → R r t)
    (h : Grows R rows rows') (h' : Grows R rows' rows'') :
    Grows R rows rows'' := by
  obtain ⟨old, more, rfl, hold⟩ := h
  obtain ⟨later, more', rfl, hlater⟩ := h'
  -- the old rows of the second step are those of the first and the added ones
  induction hold generalizing later with
  | nil => exact ⟨[], later ++ more', rfl, .nil⟩
  | cons hrel _ ih =>
      obtain ⟨next, rest, hnext, hrest, rfl⟩ :=
        List.forall₂_cons_left_iff.mp hlater
      obtain ⟨olds, news, heq, hall⟩ := ih rest hrest
      refine ⟨next :: olds, news, ?_, .cons (hR _ _ _ hrel hnext) hall⟩
      rw [List.cons_append, heq, List.cons_append]

theorem grows_append (hR : ∀ r, R r r) (rows more : List α) :
    Grows R rows (rows ++ more) :=
  ⟨rows, more, rfl, List.forall₂_same.mpr fun r _ => hR r⟩

theorem grows_map {f : α → α} (hf : ∀ r ∈ rows, R r (f r)) :
    Grows R rows (rows.map f) := by
  refine ⟨rows.map f, [], by rw [List.append_nil], ?_⟩
  rw [List.forall₂_map_right_iff]
  exact List.forall₂_same.mpr hf

/-- An edit of the rows with a key. -/
theorem grows_updateAt
    {key : α → κ} {k : κ} {f : α → α} (hR : ∀ r, R r r)
    (hf : ∀ r ∈ rows, key r = k → R r (f r)) :
    Grows R rows (updateAt key k f rows) := by
  apply grows_map
  intro r hr
  by_cases hkey : key r = k
  · rw [if_pos hkey]
    exact hf r hr hkey
  · rw [if_neg hkey]
    exact hR r

/-- Replacing the row that was read under a key. -/
theorem UniqueKeys.grows_replace
    {key : α → κ} {k : κ} {r new : α} (hkeys : UniqueKeys key rows)
    (hR : ∀ r, R r r) (hr : lookup key rows k = some r) (hnew : R r new) :
    Grows R rows (KeyedTable.updateAt key k (fun _ => new) rows) := by
  apply grows_updateAt hR
  intro r' hr' hkey
  obtain rfl := hkeys.eq_of_mem hr' (mem_of_lookup hr)
    (hkey.trans (key_of_lookup hr).symm)
  exact hnew

/-- A row is found under its key. -/
theorem Grows.lookup_of_some
    {key : α → κ} (hkey : ∀ r r', R r r' → key r' = key r)
    (h : Grows R rows rows') {k : κ} {r : α} (hr : lookup key rows k = some r) :
    ∃ r', lookup key rows' k = some r' ∧ R r r' := by
  obtain ⟨old, more, rfl, hold⟩ := h
  induction hold with
  | nil => simp [lookup] at hr
  | @cons first new rest rest' hrel _ ih =>
      rw [lookup, List.find?_cons] at hr
      rw [List.cons_append, lookup, List.find?_cons, hkey _ _ hrel]
      by_cases hfirst : key first = k
      · simp only [hfirst, decide_true, Option.some.injEq] at hr ⊢
        subst hr
        exact ⟨new, rfl, hrel⟩
      · simp only [hfirst, decide_false] at hr ⊢
        exact ih hr

/-- A row is added of which a property of the others holds, too. -/
theorem forall_mem_concat {P : α → Prop} {r : α} (h : ∀ r ∈ rows, P r)
    (hr : P r) : ∀ r' ∈ rows ++ [r], P r' :=
  List.forall_mem_append.mpr ⟨h, List.forall_mem_singleton.mpr hr⟩

theorem forall_mem_updateAt {P : α → Prop} {key : α → κ} {k : κ} {f : α → α}
    (h : ∀ r ∈ rows, P r) (hf : ∀ r ∈ rows, key r = k → P (f r)) :
    ∀ r ∈ updateAt key k f rows, P r := by
  intro r hr
  rcases mem_updateAt.mp hr with ⟨hr, -⟩ | ⟨old, hold, hkey, rfl⟩
  · exact h r hr
  · exact hf old hold hkey

theorem forall_mem_replace {P : α → Prop} {key : α → κ} {k : κ} {new : α}
    (h : ∀ r ∈ rows, P r) (hnew : P new) :
    ∀ r ∈ updateAt key k (fun _ => new) rows, P r :=
  forall_mem_updateAt h fun _ _ _ => hnew

/-- Replacing the row that was read under the primary key leaves another key
unique if its value is the same. -/
theorem UniqueKeys.replace {ι : Type} {key : α → ι} {primary : α → κ} {k : κ}
    {r new : α} (h : UniqueKeys key rows) (hprimary : UniqueKeys primary rows)
    (hr : lookup primary rows k = some r) (hsame : key new = key r) :
    UniqueKeys key (KeyedTable.updateAt primary k (fun _ => new) rows) := by
  rw [UniqueKeys, map_updateAt]
  · exact h
  · intro old hold hkey
    rw [hsame, hprimary.eq_of_mem hold (mem_of_lookup hr)
      (hkey.trans (key_of_lookup hr).symm)]

omit [DecidableEq κ] in
/-- Deleting rows leaves a key unique. -/
theorem UniqueKeys.filter {key : α → κ} (h : UniqueKeys key rows)
    (keep : α → Bool) : UniqueKeys key (rows.filter keep) :=
  h.sublist (List.filter_sublist.map key)

end KeyedTable
