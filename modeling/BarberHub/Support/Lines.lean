import Mathlib.Data.List.Basic

/-!
# Lines of a text

The line boundaries of Unicode as `str.splitlines` has them.
-/

namespace Lines

/-- Line feed, vertical tab, form feed, carriage return, the three information
separators, next line, and the line and paragraph separators. -/
def IsLineBreak (c : Char) : Prop :=
  c.toNat ∈ [10, 11, 12, 13, 28, 29, 30, 133, 8232, 8233]

instance (c : Char) : Decidable (IsLineBreak c) :=
  inferInstanceAs (Decidable (_ ∈ _))

/-- The lines of a text, of which the first has begun with `line`. -/
def splitFrom (line : List Char) : List Char → List (List Char)
  | [] => if line = [] then [] else [line]
  | '\r' :: '\n' :: rest => line :: splitFrom [] rest
  | c :: rest =>
      if IsLineBreak c then line :: splitFrom [] rest
      else splitFrom (line ++ [c]) rest

/-- A break ends a line, and the last line may have none. -/
def splitlines (text : List Char) : List (List Char) :=
  splitFrom [] text

/-- Without line breaks. -/
def SingleLine (text : List Char) : Prop :=
  ∀ c ∈ text, ¬ IsLineBreak c

-- Named, as the characters are finitely many and could all be gone through.
instance (text : List Char) : Decidable (SingleLine text) :=
  List.decidableBAll (fun c => ¬ IsLineBreak c) text

theorem not_isLineBreak_of_isDigit {c : Char} (h : c.isDigit = true) :
    ¬ IsLineBreak c := by
  intro hbreak
  have hdigit : 48 ≤ c.toNat ∧ c.toNat ≤ 57 := by
    rw [Char.isDigit, Bool.and_eq_true, decide_eq_true_eq, decide_eq_true_eq] at h
    exact h
  simp only [IsLineBreak, List.mem_cons, List.not_mem_nil, or_false] at hbreak
  omega

theorem singleLine_append {first rest : List Char} :
    SingleLine (first ++ rest) ↔ SingleLine first ∧ SingleLine rest :=
  List.forall_mem_append

theorem splitFrom_ne_nil (line : List Char) {text : List Char} (h : text ≠ []) :
    splitFrom line text ≠ [] := by
  fun_induction splitFrom line text with
  | case1 => exact absurd rfl h
  | case2 => exact absurd rfl h
  | case3 line rest ih => exact List.cons_ne_nil _ _
  | case4 line c rest hcrlf hbreak ih => exact List.cons_ne_nil _ _
  | case5 line c rest hcrlf hbreak ih =>
      cases rest with
      | nil => simp [splitFrom]
      | cons d rest => exact ih (List.cons_ne_nil _ _)

/-- A line before others is not the only one. -/
theorem one_lt_length_cons_splitFrom (line : List Char) {rest : List Char}
    (h : rest ≠ []) : ¬ (line :: splitFrom [] rest).length ≤ 1 := by
  have hpos := List.length_pos_iff.mpr (splitFrom_ne_nil [] h)
  rw [List.length_cons]
  omega

/-- A text that does not end with a break is one line exactly if it has none. -/
theorem length_splitFrom_le_one_iff (line : List Char) {text : List Char}
    (hlast : ∀ c ∈ text.getLast?, ¬ IsLineBreak c) :
    (splitFrom line text).length ≤ 1 ↔ SingleLine text := by
  fun_induction splitFrom line text with
  | case1 => exact iff_of_true (by simp) nofun
  | case2 line hline => exact iff_of_true (by simp) nofun
  | case3 line rest ih =>
      refine iff_of_false (one_lt_length_cons_splitFrom line ?_) ?_
      · rintro rfl
        exact hlast '\n' rfl (by decide)
      · exact fun hsingle => hsingle '\r' List.mem_cons_self (by decide)
  | case4 line c rest hcrlf hbreak ih =>
      refine iff_of_false (one_lt_length_cons_splitFrom line ?_) ?_
      · rintro rfl
        exact hlast c rfl hbreak
      · exact fun hsingle => hsingle c List.mem_cons_self hbreak
  | case5 line c rest hcrlf hbreak ih =>
      have hrest : ∀ d ∈ rest.getLast?, ¬ IsLineBreak d := by
        intro d hd
        apply hlast d
        cases rest with
        | nil => cases hd
        | cons e rest => simpa using hd
      rw [ih hrest, SingleLine, SingleLine, List.forall_mem_cons,
        and_iff_right hbreak]

theorem length_splitlines_le_one_iff {text : List Char}
    (hlast : ∀ c ∈ text.getLast?, ¬ IsLineBreak c) :
    (splitlines text).length ≤ 1 ↔ SingleLine text :=
  length_splitFrom_le_one_iff [] hlast

end Lines
