import Mathlib.Data.List.Infix
import Mathlib.Data.List.Lattice

/-!
# Patterns of `LIKE`

A pattern is read from left to right: one character stands for any text, one for
any character, an escape makes the character after it stand for itself, and every
other character stands for itself.  A pattern that ends in an escape is refused.

The module is parameterized by the alphabet and by its three special characters,
and names no application.
-/

namespace LikePattern

variable {α : Type*}

/-- The characters with a meaning in patterns. -/
structure Specials (α : Type*) where
  escape : α
  /-- Any text. -/
  percent : α
  /-- Any one character. -/
  underscore : α
  percent_ne_escape : percent ≠ escape
  underscore_ne_escape : underscore ≠ escape
  underscore_ne_percent : underscore ≠ percent

/-- What a piece of a pattern stands for. -/
inductive Token (α : Type*) where
  | literal (c : α)
  | anyText
  | anyChar
  deriving DecidableEq, Repr

variable [DecidableEq α]

/-- What a character that is not an escape stands for. -/
def token (s : Specials α) (c : α) : Token α :=
  if c = s.percent then .anyText
  else if c = s.underscore then .anyChar
  else .literal c

/-- The pieces of a pattern; none if it ends in an escape. -/
def parse (s : Specials α) : List α → Option (List (Token α))
  | [] => some []
  | [c] => if c = s.escape then none else some [token s c]
  | c :: d :: pattern =>
      if c = s.escape then (parse s pattern).map (.literal d :: ·)
      else (parse s (d :: pattern)).map (token s c :: ·)

/-- The text is of the form the pieces describe. -/
def matchesTokens : List (Token α) → List α → Bool
  | [], text => text.isEmpty
  | .literal c :: tokens, d :: text => c = d && matchesTokens tokens text
  | .anyChar :: tokens, _ :: text => matchesTokens tokens text
  | .anyText :: tokens, text => text.tails.any (matchesTokens tokens)
  | _ :: _, [] => false

/-- `text LIKE pattern`; none if the pattern is refused. -/
def like (s : Specials α) (pattern text : List α) : Option Bool :=
  (parse s pattern).map fun tokens => matchesTokens tokens text

/-! ## Literal text -/

theorem parse_escape (s : Specials α) (c : α) (pattern : List α) :
    parse s (s.escape :: c :: pattern) =
      (parse s pattern).map (.literal c :: ·) := by
  rw [parse, if_pos rfl]

theorem parse_cons {s : Specials α} {c : α} (pattern : List α)
    (h : c ≠ s.escape) :
    parse s (c :: pattern) = (parse s pattern).map (token s c :: ·) := by
  cases pattern with
  | nil =>
      rw [parse, parse, if_neg h]
      rfl
  | cons d pattern => rw [parse, if_neg h]

theorem token_percent (s : Specials α) : token s s.percent = .anyText :=
  if_pos rfl

theorem token_literal {s : Specials α} {c : α} (hpercent : c ≠ s.percent)
    (hunderscore : c ≠ s.underscore) : token s c = .literal c := by
  rw [token, if_neg hpercent, if_neg hunderscore]

/-- Literal pieces match the text that begins with them. -/
theorem matchesTokens_literals (v : List α) (tokens : List (Token α))
    (text : List α) :
    matchesTokens (v.map .literal ++ tokens) text = true ↔
      ∃ rest, text = v ++ rest ∧ matchesTokens tokens rest = true := by
  induction v generalizing text with
  | nil => simp
  | cons c v ih =>
      cases text with
      | nil => simp [matchesTokens]
      | cons d text =>
          simp only [List.map_cons, List.cons_append, matchesTokens,
            Bool.and_eq_true, decide_eq_true_eq, ih, List.cons.injEq]
          constructor
          · rintro ⟨rfl, rest, rfl, h⟩
            exact ⟨rest, ⟨rfl, rfl⟩, h⟩
          · rintro ⟨rest, ⟨rfl, rfl⟩, h⟩
            exact ⟨rfl, rest, rfl, h⟩

theorem matchesTokens_anyText_nil (text : List α) :
    matchesTokens [.anyText] text = true := by
  rw [matchesTokens, List.any_eq_true]
  exact ⟨[], (List.mem_tails _ _).mpr (List.nil_suffix), rfl⟩

/-- Literal pieces between two of any text match the texts that contain them. -/
theorem matchesTokens_contains (v text : List α) :
    matchesTokens (.anyText :: (v.map .literal ++ [.anyText])) text = true ↔
      v <:+: text := by
  rw [matchesTokens, List.any_eq_true]
  constructor
  · rintro ⟨tail, htail, h⟩
    obtain ⟨rest, rfl, -⟩ := (matchesTokens_literals v [.anyText] tail).mp h
    obtain ⟨before, hbefore⟩ := (List.mem_tails _ _).mp htail
    exact ⟨before, rest, by rw [← hbefore, List.append_assoc]⟩
  · rintro ⟨before, rest, rfl⟩
    refine ⟨v ++ rest, (List.mem_tails _ _).mpr ⟨before, ?_⟩, ?_⟩
    · rw [List.append_assoc]
    · rw [matchesTokens_literals]
      exact ⟨rest, rfl, matchesTokens_anyText_nil rest⟩

end LikePattern
