import Mathlib.Algebra.Order.Group.Defs
import Mathlib.Algebra.Order.Sub.Basic
import Mathlib.Data.List.Induction
import Mathlib.Logic.Function.Basic
import BarberHub.Support.Runs

/-!
# Sliding-window limiters

This module contains the bookkeeping of a limiter that keeps, for each key, the
times of the attempts it let through, and forgets them when they are older than
the window.  For one key that is a limit on every stretch of time as long as
the window; over several keys it is one exactly as long as the attempts of the
last window fall short of the limit or share the key of the next attempt.

It is parameterized by the type of keys and by an ordered group of times, and
names no application.
-/

namespace SlidingWindow

variable {κ τ : Type*} [DecidableEq κ] [AddCommGroup τ] [LinearOrder τ]
  [IsOrderedAddMonoid τ]

/-- The times a limiter keeps for each key, the oldest first, and everything it
has let through so far. -/
structure State (κ τ : Type*) where
  hits : κ → List τ
  admitted : List (τ × κ)

/-- A limiter that has seen nothing. -/
def State.empty : State κ τ := ⟨fun _ => [], []⟩

/-- Forget the times that are older than the window. -/
def prune (window now : τ) (hits : List τ) : List τ :=
  hits.dropWhile fun t => window < now - t

/-- An attempt at `now` with a key: it is let through while fewer than `limit`
times are kept for the key. -/
def attempt (limit : ℕ) (window : τ) (s : State κ τ) (e : τ × κ) :
    State κ τ :=
  let kept := prune window e.1 (s.hits e.2)
  if kept.length < limit then
    ⟨Function.update s.hits e.2 (kept ++ [e.1]), s.admitted ++ [e]⟩
  else ⟨Function.update s.hits e.2 kept, s.admitted⟩

/-- What was let through in the closed stretch of one window from `a` on. -/
def within (window a : τ) (admitted : List (τ × κ)) : List (τ × κ) :=
  admitted.filter fun e => a ≤ e.1 ∧ e.1 ≤ a + window

/-- What was let through in the window that ends at `now`. -/
def recent (window now : τ) (admitted : List (τ × κ)) : List (τ × κ) :=
  admitted.filter fun e => now - e.1 ≤ window

/-- At most `limit` attempts are let through in any stretch of one window. -/
def Limited (limit : ℕ) (window : τ) (admitted : List (τ × κ)) : Prop :=
  ∀ a, (within window a admitted).length ≤ limit

/-- The attempts of the last window fall short of the limit, or all of them
share the key of the next one. -/
def Counted (limit : ℕ) (window : τ) (s : State κ τ) (e : τ × κ) : Prop :=
  (recent window e.1 s.admitted).length < limit ∨
    ∀ earlier ∈ recent window e.1 s.admitted, earlier.2 = e.2

instance (limit : ℕ) (window : τ) (s : State κ τ) (e : τ × κ) :
    Decidable (Counted limit window s e) :=
  inferInstanceAs (Decidable (_ ∨ ∀ earlier ∈ _, _))

/-! ## What is kept -/

omit [DecidableEq κ] [IsOrderedAddMonoid τ] in
theorem prune_cons_of_lt {window now t : τ} (hits : List τ)
    (h : window < now - t) : prune window now (t :: hits) = prune window now hits :=
  List.dropWhile_cons_of_pos (by simpa using h)

omit [DecidableEq κ] [IsOrderedAddMonoid τ] in
theorem prune_cons_of_le {window now t : τ} (hits : List τ)
    (h : now - t ≤ window) : prune window now (t :: hits) = t :: hits :=
  List.dropWhile_cons_of_neg (by simpa using h)

omit [DecidableEq κ] [IsOrderedAddMonoid τ] in
theorem length_prune_le (window now : τ) (hits : List τ) :
    (prune window now hits).length ≤ hits.length :=
  (List.dropWhile_sublist _).length_le

omit [DecidableEq κ] [IsOrderedAddMonoid τ] in
/-- The oldest time that is not forgotten is recent. -/
theorem sub_le_of_prune_eq_cons
    {window now first : τ} {hits kept : List τ}
    (h : prune window now hits = first :: kept) : now - first ≤ window := by
  have hhead := List.head?_dropWhile_not (fun t => decide (window < now - t)) hits
  rw [prune] at h
  rw [h] at hhead
  simpa using hhead

/-- Dropping from the front of an ordered list drops all that is too old. -/
theorem prune_eq_filter
    {window now : τ} {hits : List τ} (h : hits.Pairwise (· ≤ ·)) :
    prune window now hits = hits.filter fun t => now - t ≤ window := by
  induction hits with
  | nil => rfl
  | cons t hits ih =>
      obtain ⟨hfirst, hrest⟩ := List.pairwise_cons.mp h
      by_cases hold : window < now - t
      · rw [prune_cons_of_lt hits hold, List.filter_cons_of_neg]
        · exact ih hrest
        · rw [decide_eq_true_eq]
          exact not_le.mpr hold
      · rw [prune_cons_of_le hits (not_lt.mp hold)]
        symm
        rw [List.filter_eq_self]
        intro u hu
        rw [decide_eq_true_eq]
        have hle : t ≤ u := by
          rcases List.mem_cons.mp hu with rfl | hu
          · exact le_rfl
          · exact hfirst u hu
        exact (sub_le_sub_left hle now).trans (not_lt.mp hold)

/-- What is recent at a moment was recent before. -/
theorem filter_prune
    {window now later : τ} {hits : List τ} (h : hits.Pairwise (· ≤ ·))
    (hlater : now ≤ later) :
    (prune window now hits).filter (fun t => later - t ≤ window) =
      hits.filter fun t => later - t ≤ window := by
  rw [prune_eq_filter h, List.filter_filter]
  apply List.filter_congr
  intro t _
  by_cases hrecent : later - t ≤ window
  · have hbefore := (sub_le_sub_right hlater t).trans hrecent
    rw [decide_eq_true hrecent, decide_eq_true hbefore, Bool.and_self]
  · rw [decide_eq_false hrecent, Bool.false_and]

/-- The times kept for a key are ordered and not later than `last`, and what
they leave out of the attempts let through is too old from `last` on. -/
structure Kept (window last : τ) (s : State κ τ) : Prop where
  ordered : ∀ key, (s.hits key).Pairwise (· ≤ ·)
  past : ∀ key, ∀ t ∈ s.hits key, t ≤ last
  keeps : ∀ key now, last ≤ now →
    (s.hits key).filter (fun t => now - t ≤ window) =
      ((recent window now s.admitted).filter fun e => e.2 = key).map Prod.fst

omit [IsOrderedAddMonoid τ] in
theorem kept_empty (window last : τ) :
    Kept window last (State.empty : State κ τ) where
  ordered _ := List.Pairwise.nil
  past _ _ ht := by simp [State.empty] at ht
  keeps _ _ _ := rfl

section

variable {limit : ℕ} {window last : τ} {s : State κ τ} {e : τ × κ}

/-- The times kept for a key at the moment of an attempt. -/
theorem Kept.prune_eq (h : Kept window last s) (key : κ) {now : τ}
    (hnow : last ≤ now) :
    prune window now (s.hits key) =
      ((recent window now s.admitted).filter fun e => e.2 = key).map
        Prod.fst := by
  rw [prune_eq_filter (h.ordered key), h.keeps key now hnow]

/-- States that have let through the same attempts with a key keep the same
recent times for it. -/
theorem Kept.prune_congr {s' : State κ τ} (h : Kept window last s)
    (h' : Kept window last s') {key : κ} {now : τ} (hnow : last ≤ now)
    (hsame : s.admitted.filter (fun e => e.2 = key) =
      s'.admitted.filter fun e => e.2 = key) :
    prune window now (s.hits key) = prune window now (s'.hits key) := by
  have hswap : ∀ admitted : List (τ × κ),
      (recent window now admitted).filter (fun e => e.2 = key) =
        recent window now (admitted.filter fun e => e.2 = key) := by
    intro admitted
    rw [recent, recent, List.filter_filter, List.filter_filter]
    exact List.filter_congr fun e _ => Bool.and_comm _ _
  rw [h.prune_eq key hnow, h'.prune_eq key hnow, hswap, hswap, hsame]

/-- An attempt is let through while fewer than `limit` recent ones were let
through with its key. -/
theorem Kept.admitted_attempt (h : Kept window last s) (he : last ≤ e.1) :
    (attempt limit window s e).admitted =
      if ((recent window e.1 s.admitted).filter fun a => a.2 = e.2).length <
        limit then s.admitted ++ [e] else s.admitted := by
  rw [attempt, h.prune_eq e.2 he, List.length_map]
  split <;> rfl

omit [IsOrderedAddMonoid τ] in
/-- New times for one key, as far as they keep what they should. -/
theorem Kept.update
    (h : Kept window last s) {now : τ} (hnow : last ≤ now) (key : κ)
    {times : List τ} {admitted : List (τ × κ)}
    (hordered : times.Pairwise (· ≤ ·)) (hpast : ∀ t ∈ times, t ≤ now)
    (hkeeps : ∀ later, now ≤ later →
      times.filter (fun t => later - t ≤ window) =
        ((recent window later admitted).filter fun a => a.2 = key).map Prod.fst)
    (hothers : ∀ other later, other ≠ key →
      (recent window later admitted).filter (fun a => a.2 = other) =
        (recent window later s.admitted).filter fun a => a.2 = other) :
    Kept window now ⟨Function.update s.hits key times, admitted⟩ where
  ordered other := by
    by_cases hkey : other = key
    · subst hkey
      simpa using hordered
    · simpa [hkey] using h.ordered other
  past other t ht := by
    by_cases hkey : other = key
    · subst hkey
      exact hpast t (by simpa using ht)
    · exact (h.past other t (by simpa [hkey] using ht)).trans hnow
  keeps other later hlater := by
    dsimp only
    by_cases hkey : other = key
    · subst hkey
      rw [Function.update_self]
      exact hkeeps later hlater
    · rw [Function.update_of_ne hkey, hothers other later hkey]
      exact h.keeps other later (hnow.trans hlater)

/-- An attempt keeps what is to be kept. -/
theorem Kept.attempt (h : Kept window last s) (he : last ≤ e.1) :
    Kept window e.1 (attempt limit window s e) := by
  obtain ⟨now, key⟩ := e
  have hordered : (prune window now (s.hits key)).Pairwise (· ≤ ·) :=
    (h.ordered key).sublist (List.dropWhile_sublist _)
  have hpast : ∀ t ∈ prune window now (s.hits key), t ≤ now := by
    intro t ht
    exact (h.past key t ((List.dropWhile_sublist _).subset ht)).trans he
  rw [SlidingWindow.attempt]
  dsimp only
  split
  next hfew =>
    refine h.update he key ?_ ?_ ?_ ?_
    · apply List.pairwise_append.mpr
      refine ⟨hordered, List.pairwise_singleton _ _, ?_⟩
      intro t ht u hu
      rw [List.mem_singleton.mp hu]
      exact hpast t ht
    · intro t ht
      rcases List.mem_append.mp ht with ht | ht
      · exact hpast t ht
      · exact le_of_eq (List.mem_singleton.mp ht)
    · intro later hlater
      rw [List.filter_append, filter_prune (h.ordered key) hlater,
        h.keeps key later (he.trans hlater)]
      by_cases hrecent : later ≤ window + now <;>
        simp [recent, List.filter_append, hrecent]
    · intro other later hkey
      have hne : ¬ key = other := fun heq => hkey heq.symm
      simp [recent, List.filter_append, hne]
  next hfull =>
    refine h.update he key hordered hpast ?_ fun _ _ _ => rfl
    intro later hlater
    rw [filter_prune (h.ordered key) hlater]
    exact h.keeps key later (he.trans hlater)

end

/-! ## The limit -/

section

variable {limit : ℕ} {window last : τ} {s : State κ τ} {e : τ × κ}

omit [DecidableEq κ] [IsOrderedAddMonoid τ] in
/-- What was let through earlier is limited, too. -/
theorem Limited.of_append
    {first rest : List (τ × κ)} (h : Limited limit window (first ++ rest)) :
    Limited limit window first := by
  intro a
  refine le_trans ?_ (h a)
  exact ((List.sublist_append_left first rest).filter _).length_le

omit [DecidableEq κ] in
/-- The stretch that ends with an attempt holds it and what is recent then. -/
theorem within_append
    (hpast : ∀ a ∈ s.admitted, a.1 ≤ e.1) (hwindow : 0 ≤ window) :
    within window (e.1 - window) (s.admitted ++ [e]) =
      recent window e.1 s.admitted ++ [e] := by
  have hself : e.1 - window ≤ e.1 ∧ e.1 ≤ e.1 - window + window := by
    constructor
    · exact sub_le_self _ hwindow
    · rw [sub_add_cancel]
  rw [within, List.filter_append, recent]
  congr 1
  · apply List.filter_congr
    intro a ha
    have hle := hpast a ha
    rw [sub_add_cancel]
    simp only [hle, and_true, sub_le_comm]
  · rw [List.filter_singleton, decide_eq_true hself]
    rfl

omit [DecidableEq κ] in
/-- A stretch that holds the attempt holds nothing else than what is recent
then. -/
theorem length_within_le
    (a : τ) (hin : a ≤ e.1 ∧ e.1 ≤ a + window) :
    (within window a s.admitted).length ≤
      (recent window e.1 s.admitted).length := by
  apply List.Sublist.length_le
  apply List.monotone_filter_right
  intro b hb
  rw [decide_eq_true_eq] at hb ⊢
  exact (sub_le_sub_left hb.1 e.1).trans (sub_le_iff_le_add'.mpr hin.2)

/-- One attempt that is counted keeps the limit. -/
theorem Limited.attempt
    (h : Limited limit window s.admitted) (hkept : Kept window last s)
    (he : last ≤ e.1) (hcounted : Counted limit window s e) :
    Limited limit window (attempt limit window s e).admitted := by
  rw [hkept.admitted_attempt he]
  split
  next hfew =>
    have hrecent : (recent window e.1 s.admitted).length < limit := by
      rcases hcounted with hfree | hsame
      · exact hfree
      · -- everything recent shares the key
        rwa [List.filter_eq_self.mpr fun a ha => decide_eq_true (hsame a ha)]
          at hfew
    intro a
    rw [within, List.filter_append, List.length_append]
    by_cases hin : a ≤ e.1 ∧ e.1 ≤ a + window
    · have hle := length_within_le (s := s) a hin
      rw [within] at hle
      have hone := List.length_filter_le (fun b : τ × κ =>
        decide (a ≤ b.1 ∧ b.1 ≤ a + window)) [e]
      rw [List.length_singleton] at hone
      omega
    · rw [List.filter_singleton, decide_eq_false hin]
      exact h a
  next hfull => exact h

/-- An attempt after which the limit still holds was counted. -/
theorem counted_of_limited
    (hpast : ∀ a ∈ s.admitted, a.1 ≤ last) (hwindow : 0 ≤ window)
    (hkept : Kept window last s) (he : last ≤ e.1)
    (h : Limited limit window (attempt limit window s e).admitted) :
    Counted limit window s e := by
  by_contra hnot
  rw [Counted, not_or, not_lt] at hnot
  obtain ⟨hfull, hother⟩ := hnot
  have hpast' : ∀ a ∈ s.admitted, a.1 ≤ e.1 := fun a ha => (hpast a ha).trans he
  rw [hkept.admitted_attempt he] at h
  by_cases hfew : ((recent window e.1 s.admitted).filter
      fun a => a.2 = e.2).length < limit
  · rw [if_pos hfew] at h
    have hlast := h (e.1 - window)
    rw [within_append hpast' hwindow, List.length_append,
      List.length_singleton] at hlast
    omega
  · -- the recent ones with the key fill the limit, and another comes on top
    rw [if_neg hfew] at h
    push Not at hother
    obtain ⟨a, ha, hkey⟩ := hother
    have hlast := h (e.1 - window)
    have hrecent : recent window e.1 s.admitted =
        within window (e.1 - window) s.admitted := by
      apply List.filter_congr
      intro b hb
      have hle := hpast' b hb
      rw [sub_add_cancel]
      simp only [hle, and_true, sub_le_comm]
    rw [← hrecent] at hlast
    have hless : ((recent window e.1 s.admitted).filter
        fun b => b.2 = e.2).length < (recent window e.1 s.admitted).length := by
      apply List.length_filter_lt_length_iff_exists.mpr
      exact ⟨a, ha, by simpa using hkey⟩
    omega

end

/-! ## Runs -/

variable {limit : ℕ} {window : τ}

/-- What a run of attempts at nondecreasing times keeps. -/
structure Orderly (window last : τ) (s : State κ τ) : Prop where
  kept : Kept window last s
  past : ∀ a ∈ s.admitted, a.1 ≤ last

theorem Orderly.attempt
    {last : τ} {s : State κ τ} {e : τ × κ} (h : Orderly window last s)
    (limit : ℕ) (he : last ≤ e.1) : Orderly window e.1 (attempt limit window s e) where
  kept := h.kept.attempt he
  past a ha := by
    rw [h.kept.admitted_attempt he] at ha
    have hbefore : ∀ a ∈ s.admitted, a.1 ≤ e.1 := by
      intro a ha
      exact (h.past a ha).trans he
    split at ha
    · rcases List.mem_append.mp ha with ha | ha
      · exact hbefore a ha
      · rw [List.mem_singleton.mp ha]
    · exact hbefore a ha

omit [IsOrderedAddMonoid τ] in
theorem Orderly.mono {last now : τ} {s : State κ τ} (h : Orderly window last s)
    (hle : last ≤ now) : Orderly window now s where
  kept := {
    ordered := h.kept.ordered
    past := fun key t ht => (h.kept.past key t ht).trans hle
    keeps := fun key later hlater => h.kept.keeps key later (hle.trans hlater) }
  past a ha := (h.past a ha).trans hle

/-- A run of attempts at nondecreasing times leaves an orderly state. -/
theorem Orderly.foldl
    {last now : τ} {s : State κ τ} {attempts : List (τ × κ)}
    (h : Orderly window last s) (hlast : ∀ e ∈ attempts, last ≤ e.1)
    (htimes : attempts.Pairwise fun e e' => e.1 ≤ e'.1) (hnow : last ≤ now)
    (hend : ∀ e ∈ attempts, e.1 ≤ now) :
    Orderly window now (attempts.foldl (SlidingWindow.attempt limit window) s) := by
  induction attempts generalizing last s with
  | nil => exact h.mono hnow
  | cons e attempts ih =>
      obtain ⟨hfirst, hrest⟩ := List.pairwise_cons.mp htimes
      apply ih (h.attempt limit (hlast e List.mem_cons_self)) hfirst hrest
      · exact hend e List.mem_cons_self
      · intro e' he'
        exact hend e' (List.mem_cons_of_mem e he')

/-- What counts against an attempt is what was let through with its key and is
recent. -/
theorem Orderly.length_prune
    {last now : τ} {s : State κ τ} (h : Orderly window last s) (key : κ)
    (hnow : last ≤ now) :
    (prune window now (s.hits key)).length =
      ((recent window now s.admitted).filter fun e => e.2 = key).length := by
  rw [h.kept.prune_eq key hnow, List.length_map]

omit [AddCommGroup τ] [LinearOrder τ] [IsOrderedAddMonoid τ] in
/-- No more times are kept for a key than it may have. -/
def Bounded (limit : ℕ) (s : State κ τ) : Prop :=
  ∀ key, (s.hits key).length ≤ limit

omit [AddCommGroup τ] [LinearOrder τ] [IsOrderedAddMonoid τ] in
theorem Bounded.update {s : State κ τ} (h : Bounded limit s) (key : κ)
    {times : List τ} (htimes : times.length ≤ limit) (admitted : List (τ × κ)) :
    Bounded limit ⟨Function.update s.hits key times, admitted⟩ := by
  intro other
  dsimp only
  by_cases hkey : other = key
  · subst hkey
    rw [Function.update_self]
    exact htimes
  · rw [Function.update_of_ne hkey]
    exact h other

omit [IsOrderedAddMonoid τ] in
theorem Bounded.attempt {s : State κ τ} (h : Bounded limit s) (e : τ × κ) :
    Bounded limit (attempt limit window s e) := by
  have hpruned : (prune window e.1 (s.hits e.2)).length ≤ limit :=
    (length_prune_le window e.1 (s.hits e.2)).trans (h e.2)
  rw [SlidingWindow.attempt]
  split
  next hfew =>
    apply h.update
    rw [List.length_append, List.length_singleton]
    exact hfew
  next hfull => exact h.update e.2 hpruned s.admitted

omit [IsOrderedAddMonoid τ] in
theorem Bounded.foldl {s : State κ τ} (h : Bounded limit s)
    (attempts : List (τ × κ)) :
    Bounded limit (attempts.foldl (SlidingWindow.attempt limit window) s) := by
  induction attempts generalizing s with
  | nil => exact h
  | cons e attempts ih => exact ih (h.attempt e)

omit [IsOrderedAddMonoid τ] in
/-- A run takes nothing back of what was let through. -/
theorem admitted_foldl (limit : ℕ) (window : τ) (s : State κ τ)
    (attempts : List (τ × κ)) :
    ∃ more, (attempts.foldl (attempt limit window) s).admitted =
      s.admitted ++ more := by
  induction attempts generalizing s with
  | nil => exact ⟨[], (List.append_nil _).symm⟩
  | cons e attempts ih =>
      obtain ⟨more, hmore⟩ := ih (attempt limit window s e)
      rw [List.foldl_cons, hmore, attempt]
      split
      · exact ⟨e :: more, List.append_assoc _ _ _⟩
      · exact ⟨more, rfl⟩

/-- From a moment on, the limit still holds at the end of a run exactly when
every attempt of it is counted. -/
theorem limited_iff_of_orderly
    (hwindow : 0 ≤ window) {last : τ} {s : State κ τ} {attempts : List (τ × κ)}
    (hs : Orderly window last s) (hstart : Limited limit window s.admitted)
    (hlast : ∀ e ∈ attempts, last ≤ e.1)
    (htimes : attempts.Pairwise fun e e' => e.1 ≤ e'.1) :
    Limited limit window (attempts.foldl (attempt limit window) s).admitted ↔
      Runs.Along (attempt limit window) (Counted limit window) s attempts := by
  induction attempts generalizing last s with
  | nil =>
      constructor
      · intro _
        trivial
      · intro _
        exact hstart
  | cons e attempts ih =>
      obtain ⟨hfirst, hrest⟩ := List.pairwise_cons.mp htimes
      have he : last ≤ e.1 := hlast e List.mem_cons_self
      have hnext := hs.attempt limit he
      constructor
      · intro h
        have hone : Limited limit window (attempt limit window s e).admitted := by
          obtain ⟨more, hmore⟩ := admitted_foldl limit window
            (attempt limit window s e) attempts
          rw [List.foldl_cons, hmore] at h
          exact h.of_append
        have hcounted := counted_of_limited hs.past hwindow hs.kept he hone
        exact ⟨hcounted, (ih hnext hone hfirst hrest).mp h⟩
      · intro h
        obtain ⟨hcounted, hruns⟩ := h
        exact (ih hnext (hstart.attempt hs.kept he hcounted) hfirst hrest).mpr hruns

omit [IsOrderedAddMonoid τ] in
theorem orderly_empty (window last : τ) :
    Orderly window last (State.empty : State κ τ) where
  kept := kept_empty window last
  past a ha := by simp [State.empty] at ha

/-- For every run of attempts at nondecreasing times: no stretch of one window
sees more than `limit` of them let through, exactly when every attempt is
counted. -/
theorem limited_iff
    (hwindow : 0 ≤ window) {attempts : List (τ × κ)}
    (htimes : attempts.Pairwise fun e e' => e.1 ≤ e'.1) :
    Limited limit window
        (attempts.foldl (attempt limit window) .empty).admitted ↔
      Runs.Along (attempt limit window) (Counted limit window) .empty
        attempts := by
  have hstart : Limited limit window (State.empty : State κ τ).admitted := by
    intro a
    exact Nat.zero_le limit
  cases attempts with
  | nil =>
      constructor
      · intro _
        trivial
      · intro _
        exact hstart
  | cons e attempts =>
      apply limited_iff_of_orderly hwindow (orderly_empty window e.1) hstart _ htimes
      intro e' he'
      rcases List.mem_cons.mp he' with rfl | he'
      · exact le_rfl
      · exact (List.pairwise_cons.mp htimes).1 e' he'

end SlidingWindow
