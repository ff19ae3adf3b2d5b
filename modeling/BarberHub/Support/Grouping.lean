import Mathlib.Algebra.BigOperators.Group.List.Lemmas
import Mathlib.Algebra.GroupWithZero.Nat
import Mathlib.Data.List.Nodup
import Mathlib.Data.List.Perm.Basic
import Mathlib.Data.List.Sort

/-!
# Grouped, ordered and limited queries

`GROUP BY` makes a row of every group of rows with the same key, and `ORDER BY`
with `LIMIT 1` takes the first row of a stable sort.  Groups, and rows that the
order does not tell apart, come in the order in which the table is scanned.
This module says when such an answer depends on that order.  It is
parameterized by the types of rows and keys, by the aggregate and by the order,
and names no application.
-/

namespace Grouping

variable {α β κ : Type}

/-! ## Grouping -/

section GroupBy

variable [DecidableEq κ] {key : α → κ} {aggregate : List α → β} {rows rows' : List α}

/-- The keys of the groups, in the order of their first rows. -/
def keys (key : α → κ) (rows : List α) : List κ :=
  (rows.map key).eraseDups

/-- The rows of a group. -/
def groupOf (key : α → κ) (rows : List α) (k : κ) : List α :=
  rows.filter fun r => key r = k

/-- Every key, with an aggregate of its group. -/
def groupBy (key : α → κ) (aggregate : List α → β) (rows : List α) :
    List (κ × β) :=
  (keys key rows).map fun k => (k, aggregate (groupOf key rows k))

theorem mem_keys {k : κ} : k ∈ keys key rows ↔ ∃ r ∈ rows, key r = k := by
  rw [keys, List.mem_eraseDups, List.mem_map]

theorem nodup_eraseDups (ks : List κ) : ks.eraseDups.Nodup := by
  induction hn : ks.length using Nat.strong_induction_on generalizing ks with
  | _ n ih =>
      cases ks with
      | nil => exact List.nodup_nil
      | cons k ks =>
          rw [List.eraseDups_cons, List.nodup_cons]
          constructor
          · rw [List.mem_eraseDups, List.mem_filter]
            simp
          · subst hn
            refine ih _ ?_ _ rfl
            rw [List.length_cons]
            exact Nat.lt_succ_of_le (List.length_filter_le _ _)

theorem nodup_keys (key : α → κ) (rows : List α) : (keys key rows).Nodup :=
  nodup_eraseDups _

theorem mem_groupBy {g : κ × β} :
    g ∈ groupBy key aggregate rows ↔
      g.1 ∈ keys key rows ∧ g.2 = aggregate (groupOf key rows g.1) := by
  rw [groupBy, List.mem_map]
  constructor
  · rintro ⟨k, hk, rfl⟩
    exact ⟨hk, rfl⟩
  · rintro ⟨hk, hg⟩
    exact ⟨g.1, hk, Prod.ext rfl hg.symm⟩

theorem exists_mem_groupBy {r : α} (hr : r ∈ rows) :
    ∃ g ∈ groupBy key aggregate rows, g.1 = key r :=
  ⟨(key r, aggregate (groupOf key rows (key r))),
    mem_groupBy.mpr ⟨mem_keys.mpr ⟨r, hr, rfl⟩, rfl⟩, rfl⟩

/-- There is one group for a key. -/
theorem groupBy_inj {g g' : κ × β} (hg : g ∈ groupBy key aggregate rows)
    (hg' : g' ∈ groupBy key aggregate rows) (h : g.1 = g'.1) : g = g' := by
  rw [mem_groupBy] at hg hg'
  refine Prod.ext h ?_
  rw [hg.2, hg'.2, h]

/-- The group of the first row comes first. -/
theorem groupBy_cons (key : α → κ) (aggregate : List α → β) (r : α)
    (rows : List α) :
    ∃ rest, groupBy key aggregate (r :: rows) =
      (key r, aggregate (groupOf key (r :: rows) (key r))) :: rest := by
  rw [groupBy, keys, List.map_cons, List.eraseDups_cons, List.map_cons]
  exact ⟨_, rfl⟩

theorem groupBy_cons_of_mem {r : α} {g : κ × β}
    (hg : g ∈ groupBy key aggregate (r :: rows)) (h : g.1 = key r) :
    ∃ rest, groupBy key aggregate (r :: rows) = g :: rest := by
  obtain ⟨rest, hrest⟩ := groupBy_cons key aggregate r rows
  have hfirst := hrest ▸ List.mem_cons_self
  rw [groupBy_inj hg hfirst h]
  exact ⟨rest, hrest⟩

/-- The aggregate of a group is found by its key. -/
theorem lookup_groupBy (k : κ) :
    (groupBy key aggregate rows).lookup k =
      if k ∈ keys key rows then some (aggregate (groupOf key rows k)) else none := by
  rw [groupBy]
  induction keys key rows with
  | nil => rfl
  | cons k' ks ih =>
      rw [List.map_cons, List.lookup_cons]
      by_cases hk : k = k'
      · subst hk
        simp
      · rw [beq_false_of_ne hk, ih]
        simp [hk]

/-- The groups do not depend on the order of the rows. -/
theorem groupBy_perm
    (haggregate : ∀ xs ys : List α, xs.Perm ys → aggregate xs = aggregate ys)
    (h : rows.Perm rows') :
    (groupBy key aggregate rows).Perm (groupBy key aggregate rows') := by
  have hkeys : (keys key rows).Perm (keys key rows') := by
    rw [List.perm_ext_iff_of_nodup (nodup_keys key rows) (nodup_keys key rows')]
    intro k
    rw [mem_keys, mem_keys]
    simp only [h.mem_iff]
  have hgroups : ∀ k, aggregate (groupOf key rows k) =
      aggregate (groupOf key rows' k) :=
    fun k => haggregate _ _ (h.filter _)
  rw [groupBy, groupBy]
  simp only [hgroups]
  exact hkeys.map _

/-- Every row is in the group of its key. -/
theorem sum_length_groupBy (key : α → κ) (rows : List α) :
    ((groupBy key List.length rows).map Prod.snd).sum = rows.length := by
  have hgroups : ∀ k, (groupOf key rows k).length = (rows.map key).count k := by
    intro k
    rw [groupOf, List.count, List.countP_map, ← List.countP_eq_length_filter]
    rfl
  have hkeys : (keys key rows).Perm (rows.map key).dedup := by
    rw [List.perm_ext_iff_of_nodup (nodup_keys key rows) (List.nodup_dedup _)]
    intro k
    rw [keys, List.mem_eraseDups, List.mem_dedup]
  rw [groupBy, List.map_map]
  simp only [Function.comp_def, hgroups]
  rw [(hkeys.map _).sum_eq, List.sum_map_count_dedup_eq_length, List.length_map]

end GroupBy

/-! ## Orders -/

/-- Any two rows are ordered, one way or both. -/
structure Preorders (le : α → α → Prop) : Prop where
  total : ∀ a b, le a b ∨ le b a
  trans : ∀ {a b c}, le a b → le b c → le a c

/-- `ORDER BY` one order, then another. -/
def thenBy (le le' : α → α → Prop) (a b : α) : Prop :=
  le a b ∧ (le b a → le' a b)

instance (le le' : α → α → Prop) [DecidableRel le] [DecidableRel le'] :
    DecidableRel (thenBy le le') :=
  fun _ _ => inferInstanceAs (Decidable (_ ∧ (_ → _)))

theorem Preorders.refl {le : α → α → Prop} (h : Preorders le) (a : α) : le a a :=
  (h.total a a).elim id id

theorem Preorders.thenBy {le le' : α → α → Prop} (h : Preorders le)
    (h' : Preorders le') : Preorders (thenBy le le') where
  total a b := by
    rcases h.total a b with hab | hba
    · by_cases hba : le b a
      · rcases h'.total a b with hab' | hba'
        · exact Or.inl ⟨hab, fun _ => hab'⟩
        · exact Or.inr ⟨hba, fun _ => hba'⟩
      · exact Or.inl ⟨hab, fun h => absurd h hba⟩
    · by_cases hab : le a b
      · rcases h'.total a b with hab' | hba'
        · exact Or.inl ⟨hab, fun _ => hab'⟩
        · exact Or.inr ⟨hba, fun _ => hba'⟩
      · exact Or.inr ⟨hba, fun h => absurd h hab⟩
  trans hab hbc := by
    refine ⟨h.trans hab.1 hbc.1, ?_⟩
    intro hca
    exact h'.trans (hab.2 (h.trans hbc.1 hca)) (hbc.2 (h.trans hca hab.1))

/-- The order of a column. -/
theorem Preorders.comap {le : α → α → Prop} (h : Preorders le) (f : β → α) :
    Preorders fun a b => le (f a) (f b) :=
  ⟨fun a b => h.total (f a) (f b), fun hab hbc => h.trans hab hbc⟩

/-- `DESC`. -/
theorem Preorders.swap {le : α → α → Prop} (h : Preorders le) :
    Preorders fun a b => le b a :=
  ⟨fun a b => h.total b a, fun hab hbc => h.trans hbc hab⟩

theorem preorders_le [LinearOrder α] : Preorders fun a b : α => a ≤ b :=
  ⟨le_total, le_trans⟩

/-- `NULLS LAST`. -/
def nullsLast (le : α → α → Prop) : Option α → Option α → Prop
  | _, none => True
  | none, some _ => False
  | some a, some b => le a b

instance (le : α → α → Prop) [DecidableRel le] : DecidableRel (nullsLast le)
  | _, none => isTrue trivial
  | none, some _ => isFalse not_false
  | some a, some b => inferInstanceAs (Decidable (le a b))

theorem Preorders.nullsLast {le : α → α → Prop} (h : Preorders le) :
    Preorders (nullsLast le) where
  total
    | none, none => Or.inl trivial
    | none, some _ => Or.inr trivial
    | some _, none => Or.inl trivial
    | some a, some b => h.total a b
  trans := by
    intro a b c hab hbc
    match a, b, c with
    | _, _, none => trivial
    | none, none, some _ => exact hbc
    | some _, none, some _ => exact hbc.elim
    | none, some _, some _ => exact hab
    | some _, some _, some _ => exact h.trans hab hbc

theorem Preorders.pairwise_insertionSort {le : α → α → Prop} [DecidableRel le]
    (h : Preorders le) (rows : List α) :
    (rows.insertionSort le).Pairwise le := by
  have : Std.Total le := ⟨h.total⟩
  have : IsTrans α le := ⟨fun _ _ _ => h.trans⟩
  exact List.pairwise_insertionSort le rows

/-- An order that tells the rows of a table apart sorts them in one way, in
whatever order the table is scanned. -/
theorem insertionSort_perm {le : α → α → Prop} [DecidableRel le]
    (hle : Preorders le) {rows rows' : List α} (h : rows.Perm rows')
    (hanti : ∀ a ∈ rows, ∀ b ∈ rows, le a b → le b a → a = b) :
    rows.insertionSort le = rows'.insertionSort le := by
  have hperm : (rows.insertionSort le).Perm (rows'.insertionSort le) :=
    (List.perm_insertionSort le rows).trans
      (h.trans (List.perm_insertionSort le rows').symm)
  apply hperm.eq_of_pairwise _ (hle.pairwise_insertionSort rows)
    (hle.pairwise_insertionSort rows')
  intro a b ha hb
  rw [List.mem_insertionSort] at ha hb
  exact hanti a ha b (h.mem_iff.mpr hb)

/-! ## The first row -/

section First

variable {le : α → α → Prop} [DecidableRel le] {rows rows' : List α} {r : α}

/-- `ORDER BY` and `LIMIT 1`. -/
def first (le : α → α → Prop) [DecidableRel le] (rows : List α) : Option α :=
  (rows.insertionSort le).head?

theorem mem_of_first (h : first le rows = some r) : r ∈ rows :=
  (List.mem_insertionSort le).mp (List.mem_of_mem_head? h)

theorem first_eq_none_iff : first le rows = none ↔ rows = [] := by
  rw [first, List.head?_eq_none_iff, ← List.length_eq_zero_iff,
    List.length_insertionSort, List.length_eq_zero_iff]

/-- No row comes before the first. -/
theorem le_of_first (hle : Preorders le) (h : first le rows = some r)
    {r' : α} (hr' : r' ∈ rows) : le r r' := by
  have hsorted := hle.pairwise_insertionSort rows
  rw [← List.mem_insertionSort le] at hr'
  rw [first] at h
  cases hrows : rows.insertionSort le with
  | nil => simp [hrows] at hr'
  | cons x xs =>
      rw [hrows] at h hr' hsorted
      obtain rfl := Option.some.inj h
      rcases List.mem_cons.mp hr' with rfl | hmem
      · exact hle.refl r'
      · exact List.rel_of_pairwise_cons hsorted hmem

/-- A first row in the scan order is the answer if no row comes before it. -/
theorem first_cons_of_le (h : ∀ r' ∈ rows, le r r') :
    first le (r :: rows) = some r := by
  rw [first, List.insertionSort_cons_of_forall_rel le h]
  rfl

/-- The answer is determined by the order if the order tells the rows that come
first apart. -/
theorem first_perm (hle : Preorders le) (h : rows.Perm rows')
    (hunique : ∀ a ∈ rows, ∀ b ∈ rows, (∀ c ∈ rows, le a c) →
      (∀ c ∈ rows, le b c) → a = b) : first le rows = first le rows' := by
  cases hfirst : first le rows with
  | none =>
      rw [first_eq_none_iff] at hfirst
      subst hfirst
      exact (first_eq_none_iff.mpr h.symm.eq_nil).symm
  | some a =>
      cases hfirst' : first le rows' with
      | none =>
          rw [first_eq_none_iff] at hfirst'
          subst hfirst'
          have ha := mem_of_first hfirst
          simp [h.eq_nil] at ha
      | some b =>
          have hb : b ∈ rows := h.mem_iff.mpr (mem_of_first hfirst')
          rw [hunique a (mem_of_first hfirst) b hb
            (fun c hc => le_of_first hle hfirst hc)
            fun c hc => le_of_first hle hfirst' (h.mem_iff.mp hc)]

end First

end Grouping
