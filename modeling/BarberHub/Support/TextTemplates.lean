import Mathlib.Data.List.Basic

/-!
# Texts with placeholders

A template is read once from left to right.  After a dollar sign, a second one
stands for the sign itself, an identifier, in braces or not, for a value, and
anything else leaves the sign as it is.  A placeholder without a value stays.
The values are not read again.
-/

namespace TextTemplates

/-- A piece of a template. -/
inductive Token where
  | literal (c : Char)
  | escaped
  | named (id : List Char)
  | braced (id : List Char)
  | invalid
  deriving DecidableEq, Repr

def startsIdentifier (c : Char) : Bool :=
  c = '_' || c.isAlpha

def continuesIdentifier (c : Char) : Bool :=
  c = '_' || c.isAlphanum

/-- The longest identifier a text begins with, and what follows it. -/
def identifier : List Char → Option (List Char × List Char)
  | [] => none
  | c :: rest =>
      if startsIdentifier c then
        some (c :: rest.takeWhile continuesIdentifier,
          rest.dropWhile continuesIdentifier)
      else none

/-- An identifier in braces, and what follows it. -/
def bracedIdentifier : List Char → Option (List Char × List Char)
  | '{' :: rest =>
      match identifier rest with
      | some (id, '}' :: rest) => some (id, rest)
      | _ => none
  | _ => none

/-- The piece a text begins with after a dollar sign, and what follows it. -/
def afterDollar : List Char → Token × List Char
  | '$' :: rest => (.escaped, rest)
  | text =>
      match identifier text with
      | some (id, rest) => (.named id, rest)
      | none =>
          match bracedIdentifier text with
          | some (id, rest) => (.braced id, rest)
          | none => (.invalid, text)

/-- The pieces of a text of at most that length. -/
def scan : ℕ → List Char → List Token
  | 0, _ => []
  | _, [] => []
  | fuel + 1, c :: rest =>
      if c = '$' then
        let (token, rest) := afterDollar rest
        token :: scan fuel rest
      else .literal c :: scan fuel rest

def tokens (text : List Char) : List Token :=
  scan text.length text

/-- How a piece is written. -/
def Token.source : Token → List Char
  | literal c => [c]
  | escaped => ['$', '$']
  | named id => '$' :: id
  | braced id => '$' :: '{' :: id ++ ['}']
  | invalid => ['$']

/-- What stands in its place. -/
def Token.fill (values : List Char → Option (List Char)) : Token → List Char
  | literal c => [c]
  | escaped => ['$']
  | named id => (values id).getD (source (named id))
  | braced id => (values id).getD (source (braced id))
  | invalid => ['$']

def safeSubstitute (values : List Char → Option (List Char))
    (text : List Char) : List Char :=
  (tokens text).flatMap (Token.fill values)

/-! ## The pieces make up the text -/

theorem identifier_eq_some {text id rest : List Char}
    (h : identifier text = some (id, rest)) : id ++ rest = text ∧ id ≠ [] := by
  cases text with
  | nil => cases h
  | cons c text =>
      rw [identifier] at h
      split at h
      · cases h
        refine ⟨?_, List.cons_ne_nil _ _⟩
        rw [List.cons_append, List.takeWhile_append_dropWhile]
      · cases h

theorem bracedIdentifier_eq_some {text id rest : List Char}
    (h : bracedIdentifier text = some (id, rest)) :
    '{' :: id ++ '}' :: rest = text := by
  rw [bracedIdentifier.eq_def] at h
  split at h
  next inner =>
    split at h
    next id' rest' hid =>
      cases h
      rw [List.cons_append, (identifier_eq_some hid).1]
    next => cases h
  next => cases h

theorem source_afterDollar (text : List Char) :
    (afterDollar text).1.source ++ (afterDollar text).2 = '$' :: text := by
  rw [afterDollar.eq_def]
  split
  next => rfl
  next =>
    split
    next id rest hid =>
      rw [Token.source, List.cons_append, (identifier_eq_some hid).1]
    next =>
      split
      next id rest hid =>
        rw [Token.source, ← bracedIdentifier_eq_some hid]
        simp
      next => rfl

theorem length_afterDollar_le (text : List Char) :
    (afterDollar text).2.length ≤ text.length := by
  have hlength := congrArg List.length (source_afterDollar text)
  have hsource : 1 ≤ (afterDollar text).1.source.length := by
    cases (afterDollar text).1 <;> simp [Token.source]
  simp only [List.length_append, List.length_cons] at hlength
  omega

theorem source_scan {fuel : ℕ} {text : List Char} (h : text.length ≤ fuel) :
    (scan fuel text).flatMap Token.source = text := by
  induction fuel generalizing text with
  | zero => simp [scan, List.length_eq_zero_iff.mp (Nat.le_zero.mp h)]
  | succ fuel ih =>
      cases text with
      | nil => simp [scan]
      | cons c rest =>
          have hrest : rest.length ≤ fuel := by simpa using h
          rw [scan]
          split
          next hdollar =>
            have hafter := Nat.le_trans (length_afterDollar_le rest) hrest
            rw [List.flatMap_cons, ih hafter, source_afterDollar, hdollar]
          next => rw [List.flatMap_cons, ih hrest, Token.source, List.singleton_append]

/-- The length is enough: nothing of a text is lost in reading it. -/
theorem source_tokens (text : List Char) :
    (tokens text).flatMap Token.source = text :=
  source_scan (Nat.le_refl _)

/-! ## Values stand as they are -/

variable {κ : Type}

/-- The result is put together from fixed texts and whole values, in an
arrangement that does not depend on the values. -/
def Verbatim (result : (κ → List Char) → List Char) : Prop :=
  ∃ pieces : List (List Char ⊕ κ), ∀ values,
    result values = pieces.flatMap (Sum.elim id values)

/-- A piece as a fixed text or the key of a value. -/
def Token.piece (key : List Char → Option κ) : Token → List Char ⊕ κ
  | literal c => .inl [c]
  | escaped => .inl ['$']
  | named id => (key id).elim (.inl (source (named id))) .inr
  | braced id => (key id).elim (.inl (source (braced id))) .inr
  | invalid => .inl ['$']

def pieces (key : List Char → Option κ) (text : List Char) :
    List (List Char ⊕ κ) :=
  (tokens text).map (Token.piece key)

theorem fill_eq_piece (key : List Char → Option κ) (values : κ → List Char)
    (token : Token) :
    token.fill (fun id => (key id).map values) =
      Sum.elim id values (token.piece key) := by
  cases token with
  | named id =>
      rw [Token.fill, Token.piece]
      cases key id <;> rfl
  | braced id =>
      rw [Token.fill, Token.piece]
      cases key id <;> rfl
  | _ => rfl

theorem safeSubstitute_eq (key : List Char → Option κ) (values : κ → List Char)
    (text : List Char) :
    safeSubstitute (fun id => (key id).map values) text =
      (pieces key text).flatMap (Sum.elim id values) := by
  rw [safeSubstitute, pieces, List.flatMap_map]
  exact congrArg (List.flatMap · _) (funext (fill_eq_piece key values))

/-- No part of a value is taken for a placeholder. -/
theorem verbatim_safeSubstitute (key : List Char → Option κ) (text : List Char) :
    Verbatim fun values : κ → List Char =>
      safeSubstitute (fun id => (key id).map values) text :=
  ⟨pieces key text, fun values => safeSubstitute_eq key values text⟩

/-- The keys of the values in a text. -/
def placeholders (key : List Char → Option κ) (text : List Char) : List κ :=
  (pieces key text).filterMap Sum.getRight?

/-- The fixed characters of a text. -/
def fixedText (key : List Char → Option κ) (text : List Char) : List Char :=
  ((pieces key text).filterMap Sum.getLeft?).flatten

/-- If the fixed characters have a property, all do exactly if those of the
values in the text do. -/
theorem forall_mem_safeSubstitute_iff {P : Char → Prop}
    {key : List Char → Option κ} {text : List Char}
    (hfixed : ∀ c ∈ fixedText key text, P c) (values : κ → List Char) :
    (∀ c ∈ safeSubstitute (fun id => (key id).map values) text, P c) ↔
      ∀ k ∈ placeholders key text, ∀ c ∈ values k, P c := by
  rw [safeSubstitute_eq]
  constructor
  · intro hall k hk c hc
    obtain ⟨piece, hpiece, hright⟩ := List.mem_filterMap.mp hk
    rw [Sum.getRight?_eq_some_iff] at hright
    subst hright
    exact hall c (List.mem_flatMap.mpr ⟨_, hpiece, hc⟩)
  · intro hvalues c hc
    obtain ⟨piece, hpiece, hmem⟩ := List.mem_flatMap.mp hc
    cases piece with
    | inl fixed =>
        apply hfixed c
        exact List.mem_flatten.mpr
          ⟨fixed, List.mem_filterMap.mpr ⟨_, hpiece, rfl⟩, hmem⟩
    | inr k => exact hvalues k (List.mem_filterMap.mpr ⟨_, hpiece, rfl⟩) c hmem

/-- The result ends as its last piece does. -/
theorem getLast?_safeSubstitute {key : List Char → Option κ} {text : List Char}
    {last : List Char ⊕ κ} (hlast : (pieces key text).getLast? = some last)
    (values : κ → List Char) (hne : Sum.elim id values last ≠ []) :
    (safeSubstitute (fun id => (key id).map values) text).getLast? =
      (Sum.elim id values last).getLast? := by
  obtain ⟨init, hinit⟩ := List.getLast?_eq_some_iff.mp hlast
  rw [safeSubstitute_eq, hinit, List.flatMap_append, List.flatMap_singleton]
  exact List.getLast?_append_of_ne_nil _ hne

end TextTemplates
