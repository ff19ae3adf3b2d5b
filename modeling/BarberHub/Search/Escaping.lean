import BarberHub.Support.LikePatterns

/-!
# Search strings as patterns

`_escape_like` of `app/services/barbershop.py`, and the pattern `list_shops`
builds from a search string.  The alphabet is arbitrary; the application's is
that of Unicode, with the backslash as the escape.
-/

namespace BarberHub

open LikePattern

variable {α : Type*} [DecidableEq α]

/-- `str.replace` of one character. -/
def replace (old : α) (new : List α) (value : List α) : List α :=
  value.flatMap fun c => if c = old then new else [c]

/-- `_escape_like`. -/
def escapeLike (s : Specials α) (value : List α) : List α :=
  replace s.underscore [s.escape, s.underscore]
    (replace s.percent [s.escape, s.percent]
      (replace s.escape [s.escape, s.escape] value))

/-- `f"%{_escape_like(value)}%"`. -/
def containsPattern (s : Specials α) (value : List α) : List α :=
  s.percent :: (escapeLike s value ++ [s.percent])

/-- The special characters of `LIKE ... ESCAPE '\'`. -/
def sqlSpecials : Specials Char where
  escape := '\\'
  percent := '%'
  underscore := '_'
  percent_ne_escape := by decide
  underscore_ne_escape := by decide
  underscore_ne_percent := by decide

/-- What becomes of one character. -/
def escaped (s : Specials α) (c : α) : List α :=
  if c = s.escape ∨ c = s.percent ∨ c = s.underscore then [s.escape, c] else [c]

theorem replace_append (old : α) (new first rest : List α) :
    replace old new (first ++ rest) =
      replace old new first ++ replace old new rest :=
  List.flatMap_append

theorem replace_singleton (old : α) (new : List α) (c : α) :
    replace old new [c] = if c = old then new else [c] :=
  List.flatMap_singleton ..

/-- A later replacement does not touch what an earlier one has put in. -/
theorem escapeLike_singleton (s : Specials α) (c : α) :
    escapeLike s [c] = escaped s c := by
  have hescape_percent := s.percent_ne_escape.symm
  have hescape_underscore := s.underscore_ne_escape.symm
  have hpercent_underscore := s.underscore_ne_percent.symm
  rw [escapeLike, replace_singleton]
  by_cases hescape : c = s.escape
  · subst hescape
    simp [escaped, replace, hescape_percent, hescape_underscore]
  · rw [if_neg hescape, replace_singleton]
    by_cases hpercent : c = s.percent
    · subst hpercent
      simp [escaped, replace, hescape_underscore, hpercent_underscore]
    · rw [if_neg hpercent, replace_singleton]
      by_cases hunderscore : c = s.underscore
      · subst hunderscore
        simp [escaped]
      · simp [escaped, hescape, hpercent, hunderscore]

/-- The three replacements escape every special character once. -/
theorem escapeLike_eq_flatMap (s : Specials α) (value : List α) :
    escapeLike s value = value.flatMap (escaped s) := by
  induction value with
  | nil => rfl
  | cons c value ih =>
      rw [List.flatMap_cons, ← ih, ← escapeLike_singleton, escapeLike, escapeLike,
        escapeLike, ← replace_append, ← replace_append, ← replace_append]
      rfl

/-- A special character that is escaped stands for itself, and so does every
other character. -/
theorem parse_escaped (s : Specials α) (c : α) (pattern : List α) :
    parse s (escaped s c ++ pattern) =
      (parse s pattern).map (.literal c :: ·) := by
  rw [escaped]
  split
  next hspecial => exact parse_escape s c pattern
  next hplain =>
    rw [not_or, not_or] at hplain
    obtain ⟨hescape, hpercent, hunderscore⟩ := hplain
    rw [List.singleton_append, parse_cons pattern hescape,
      token_literal hpercent hunderscore]

/-- An escaped string stands for itself. -/
theorem parse_escapeLike (s : Specials α) (value pattern : List α) :
    parse s (escapeLike s value ++ pattern) =
      (parse s pattern).map (value.map .literal ++ ·) := by
  rw [escapeLike_eq_flatMap]
  induction value with
  | nil => simp
  | cons c value ih =>
      rw [List.flatMap_cons, List.append_assoc, parse_escaped, ih,
        Option.map_map]
      rfl

theorem parse_containsPattern (s : Specials α) (value : List α) :
    parse s (containsPattern s value) =
      some (.anyText :: (value.map .literal ++ [.anyText])) := by
  rw [containsPattern, parse_cons _ s.percent_ne_escape, token_percent,
    parse_escapeLike, parse, if_neg s.percent_ne_escape, token_percent]
  rfl

/-- For every alphabet, search string and text: the pattern built from the string
is never refused, and the text matches it exactly when it contains the string. -/
theorem like_containsPattern
    (s : Specials α) (value text : List α) :
    like s (containsPattern s value) text ≠ none ∧
      (like s (containsPattern s value) text = some true ↔
        value <:+: text) := by
  rw [like, parse_containsPattern, Option.map_some]
  constructor
  · exact Option.some_ne_none _
  · rw [Option.some_inj]
    exact matchesTokens_contains value text

example : like sqlSpecials (containsPattern sqlSpecials "100%".toList)
    "Cut 100% Sharp".toList = some true := by
  decide +kernel

end BarberHub
