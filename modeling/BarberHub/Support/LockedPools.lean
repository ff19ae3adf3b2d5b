import Mathlib.Data.List.Nodup
import Mathlib.Logic.Function.Basic
import BarberHub.Support.LockDiscipline
import BarberHub.Support.Runs

/-!
# Pools of transactions that take locks

This module contains the interleaving of sessions over one database.  A move
executes the next statement of a session, which does nothing while the session
waits for a lock, or kills the session, which rolls its writes back and leaves
the messages it has sent in the queue.  Sessions that keep to a discipline keep
its invariant in every committed state, and as long as none is killed or raises
an error between a message and its commit, no two messages have one key.  The
module names no application.
-/

namespace LockedTransactions

/-- What a session has still to do, if it is not killed, its pending writes,
and the messages sent since its last commit. -/
structure Session (σ κ μ ε α : Type) where
  rest : Option (Transaction σ κ μ ε α)
  pending : σ → σ
  sent : List μ

/-- The session has ended with an error. -/
def Session.raised {σ κ μ ε α : Type} (x : Session σ κ μ ε α) : Bool :=
  match x.rest with
  | some (.done (.error _)) => true
  | _ => false

/-- A session that has not started. -/
def Session.fresh {σ κ μ ε α : Type} (p : Transaction σ κ μ ε α) :
    Session σ κ μ ε α :=
  ⟨some p, id, []⟩

/-- The committed state, who holds which key, the sessions, and the messages in
the order in which they were sent. -/
structure Pool (ι σ κ μ ε α : Type) where
  committed : σ
  holder : κ → Option ι
  session : ι → Session σ κ μ ε α
  queue : List μ

/-- A session executes its next statement, or it is killed. -/
inductive Move (ι : Type) where
  | step (i : ι)
  | abort (i : ι)
  deriving DecidableEq

namespace Pool

variable {ι σ κ μ ε α : Type}

/-- Sessions that have not started, over a database without locks. -/
def start (s : σ) (program : ι → Transaction σ κ μ ε α) :
    Pool ι σ κ μ ε α where
  committed := s
  holder _ := none
  session i := .fresh (program i)
  queue := []

/-- Where session `i` stands. -/
def standing (c : Pool ι σ κ μ ε α) (D : Discipline σ κ μ) (i : ι) :
    Standing σ κ where
  held := {k | c.holder k = some i}
  sent := (c.session i).sent.map D.keyOf
  pending := (c.session i).pending
  committed := c.committed

/-- What a session answers, with everything accounted for unless it is an
error. -/
def Concludes (post : Except ε α → Prop) (r : Except ε α)
    (v : Standing σ κ) : Prop :=
  post r ∧ ∀ a, r = .ok a → v.sent = []

/-- The committed state satisfies the invariant, and every session that is not
killed guards the discipline from where it stands. -/
structure Keeps (D : Discipline σ κ μ) (post : ι → Except ε α → Prop)
    (c : Pool ι σ κ μ ε α) : Prop where
  inv : D.Inv c.committed
  guards : ∀ i p, (c.session i).rest = some p →
    Guards D (Concludes (post i)) p (c.standing D i)

/-- `c'` follows from `c` by a move of session `i`: the other sessions have as
much to do and hold the same keys, and what was committed, if it was, respects
them. -/
structure MovedBy (D : Discipline σ κ μ) (i : ι) (c c' : Pool ι σ κ μ ε α) :
    Prop where
  session : ∀ j, j ≠ i → c'.session j = c.session j
  holder : ∀ j, j ≠ i → ∀ k, c'.holder k = some j ↔ c.holder k = some j
  inv : D.Inv c'.committed
  rely : ∀ j, j ≠ i → D.Rely (c.standing D j).held c.committed c'.committed

/-- No two messages have one key, and every message is remembered by the
database or is under the key of the session that has just sent it. -/
structure Accounts (D : Discipline σ κ μ) (c : Pool ι σ κ μ ε α) : Prop where
  nodup : (c.queue.map D.keyOf).Nodup
  accounted : ∀ k ∈ c.queue.map D.keyOf, D.Settled k c.committed ∨
    ∃ i, k ∈ (c.standing D i).sent ∧ c.holder k = some i

section Keeps

variable {D : Discipline σ κ μ} {post : ι → Except ε α → Prop}
  {c c' : Pool ι σ κ μ ε α} {i : ι}

/-- Sessions that guard the discipline before they start. -/
theorem keeps_start
    {s : σ} {program : ι → Transaction σ κ μ ε α} (hinv : D.Inv s)
    (h : ∀ i, Guards D (Concludes (post i)) (program i) (.idle s)) :
    (start s program).Keeps D post where
  inv := hinv
  guards i p hp := by
    obtain rfl := Option.some.inj hp
    have hidle : (start s program).standing D i = .idle s := by
      simp [standing, start, Session.fresh, Standing.idle]
    rw [hidle]
    exact h i

/-- What a session commits does not concern what another one holds. -/
theorem rely_of_allows
    {j : ι} (hij : j ≠ i) {s' : σ}
    (h : D.Allows (c.standing D i).held (c.standing D i).sent c.committed s') :
    D.Rely (c.standing D j).held c.committed s' := by
  refine ⟨h.inv, fun k hk => h.frame k fun hki => hij ?_⟩
  exact Option.some.inj (hk.symm.trans hki)

/-- After a move only the session that made it has to be looked at. -/
theorem Keeps.of_movedBy
    (h : c.Keeps D post) (hmoved : MovedBy D i c c')
    (hown : ∀ p, (c'.session i).rest = some p →
      Guards D (Concludes (post i)) p (c'.standing D i)) :
    c'.Keeps D post where
  inv := hmoved.inv
  guards j p hp := by
    by_cases hji : j = i
    · subst hji
      exact hown p hp
    · rw [hmoved.session j hji] at hp
      have hstanding : c'.standing D j =
          { c.standing D j with committed := c'.committed } := by
        simp only [standing, hmoved.session j hji, hmoved.holder j hji]
      rw [hstanding]
      exact (h.guards j p hp).stable (hmoved.rely j hji)

/-- A session that has answered. -/
theorem Keeps.answered (h : c.Keeps D post) {r : Except ε α}
    (hr : (c.session i).rest = some (.done r)) : post i r :=
  (h.guards i _ hr _ (.refl h.inv)).1

/-- A move that sends nothing, after which the session still holds the keys of
what it has sent, or has settled it. -/
theorem Accounts.of_movedBy
    (h : c.Accounts D) (hmoved : MovedBy D i c c') (hqueue : c'.queue = c.queue)
    (hsettled : ∀ k, D.Settled k c.committed → D.Settled k c'.committed)
    (hown : ∀ k ∈ (c.standing D i).sent, c.holder k = some i →
      D.Settled k c'.committed ∨
        k ∈ (c'.standing D i).sent ∧ c'.holder k = some i) :
    c'.Accounts D where
  nodup := by
    rw [hqueue]
    exact h.nodup
  accounted k hk := by
    rw [hqueue] at hk
    rcases h.accounted k hk with hdone | ⟨j, hsent, hholder⟩
    · exact Or.inl (hsettled k hdone)
    · by_cases hji : j = i
      · subst hji
        rcases hown k hsent hholder with hdone | hstill
        · exact Or.inl hdone
        · exact Or.inr ⟨j, hstill⟩
      · refine Or.inr ⟨j, ?_, (hmoved.holder j hji k).mpr hholder⟩
        rwa [standing, hmoved.session j hji]

end Keeps

/-! ## Moves -/

variable [DecidableEq ι]

/-- Replace session `i`. -/
def replace (c : Pool ι σ κ μ ε α) (i : ι) (x : Session σ κ μ ε α) :
    Pool ι σ κ μ ε α :=
  { c with session := Function.update c.session i x }

/-- Session `i` continues as `x`, without its locks and with the committed
state `s`. -/
def release (c : Pool ι σ κ μ ε α) (i : ι) (x : Session σ κ μ ε α) (s : σ) :
    Pool ι σ κ μ ε α :=
  { c.replace i x with
    committed := s
    holder := fun k => if c.holder k = some i then none else c.holder k }

/-- Session `i` is killed and its transaction rolled back. -/
def abort (c : Pool ι σ κ μ ε α) (i : ι) : Pool ι σ κ μ ε α :=
  c.release i ⟨none, id, []⟩ c.committed

section Moves

variable {D : Discipline σ κ μ} {post : ι → Except ε α → Prop}
  {c : Pool ι σ κ μ ε α} {i : ι}

@[simp] theorem session_replace_self (x : Session σ κ μ ε α) :
    (c.replace i x).session i = x := by
  simp [replace]

theorem session_replace_of_ne {j : ι} (h : j ≠ i) (x : Session σ κ μ ε α) :
    (c.replace i x).session j = c.session j :=
  Function.update_of_ne h _ _

@[simp] theorem session_release_self (x : Session σ κ μ ε α) (s : σ) :
    (c.release i x s).session i = x :=
  session_replace_self x

theorem holder_release_eq_some_iff
    {x : Session σ κ μ ε α} {s : σ} {j : ι} {k : κ} :
    (c.release i x s).holder k = some j ↔ c.holder k = some j ∧ j ≠ i := by
  rw [release]
  dsimp only
  split
  next hk =>
    constructor
    · intro h
      simp at h
    · rintro ⟨h, hne⟩
      exact absurd (Option.some.inj (h.symm.trans hk)) hne
  next hk =>
    refine ⟨fun h => ⟨h, ?_⟩, And.left⟩
    rintro rfl
    exact hk h

theorem movedBy_replace (hinv : D.Inv c.committed) (x : Session σ κ μ ε α) :
    MovedBy D i c (c.replace i x) where
  session _ hj := session_replace_of_ne hj x
  holder _ _ _ := Iff.rfl
  inv := hinv
  rely _ _ := .refl hinv

/-- A session that has gone on to a transaction that guards the discipline. -/
theorem Keeps.replace (h : c.Keeps D post) {x : Session σ κ μ ε α}
    {p : Transaction σ κ μ ε α} (hrest : x.rest = some p)
    (hown : Guards D (Concludes (post i)) p ((c.replace i x).standing D i)) :
    (c.replace i x).Keeps D post := by
  apply h.of_movedBy (movedBy_replace h.inv x)
  intro p' hp'
  rw [session_replace_self, hrest] at hp'
  obtain rfl := Option.some.inj hp'
  exact hown

/-- A session that has gone on and sent nothing. -/
theorem Accounts.replace (h : c.Accounts D) (hinv : D.Inv c.committed)
    {x : Session σ κ μ ε α} (hsent : x.sent = (c.session i).sent) :
    (c.replace i x).Accounts D := by
  apply h.of_movedBy (movedBy_replace hinv x) rfl (fun _ hk => hk)
  intro k hk hholder
  refine Or.inr ⟨?_, hholder⟩
  rwa [standing, session_replace_self, hsent]

theorem movedBy_release
    {s : σ} (hinv : D.Inv s)
    (h : ∀ j, j ≠ i → D.Rely (c.standing D j).held c.committed s)
    (x : Session σ κ μ ε α) : MovedBy D i c (c.release i x s) where
  session _ hj := session_replace_of_ne hj x
  holder _ hj _ := holder_release_eq_some_iff.trans (and_iff_left hj)
  inv := hinv
  rely := h

/-- A session that has released its locks. -/
theorem standing_release_fresh (p : Transaction σ κ μ ε α) (s : σ) :
    (c.release i (.fresh p) s).standing D i = .idle s := by
  have hheld : {k | (c.release i (.fresh p) s).holder k = some i} = ∅ := by
    ext k
    simp [holder_release_eq_some_iff]
  simp only [standing, session_release_self, hheld]
  rfl

theorem Keeps.abort (h : c.Keeps D post) (i : ι) :
    (c.abort i).Keeps D post := by
  rw [Pool.abort]
  apply h.of_movedBy (movedBy_release h.inv (fun j _ => .refl h.inv) _)
  intro p hp
  rw [session_release_self] at hp
  simp at hp

/-- Killing a session that has nothing to account for. -/
theorem Accounts.abort (h : c.Accounts D) (hinv : D.Inv c.committed)
    (hclean : (c.session i).sent = []) : (c.abort i).Accounts D := by
  apply h.of_movedBy
    (movedBy_release hinv (fun j _ => .refl hinv) ⟨none, id, []⟩) rfl
    (fun k hk => hk)
  intro k hk
  simp [standing, hclean] at hk

/-- A session sends a message under a key it holds. -/
theorem Accounts.send
    (h : c.Accounts D) {c' : Pool ι σ κ μ ε α} (hmoved : MovedBy D i c c')
    {message : μ} (hqueue : c'.queue = c.queue ++ [message])
    (hcommitted : c'.committed = c.committed)
    (hsession : (c'.session i).sent = message :: (c.session i).sent)
    (hholder : c'.holder = c.holder)
    (hheld : c.holder (D.keyOf message) = some i)
    (hnew : D.keyOf message ∉ (c.standing D i).sent)
    (hunsettled : ¬ D.Settled (D.keyOf message) c.committed) :
    c'.Accounts D where
  nodup := by
    rw [hqueue, List.map_append, List.map_singleton]
    refine List.Nodup.append h.nodup (List.nodup_singleton _) ?_
    rw [List.disjoint_singleton]
    intro hold
    rcases h.accounted _ hold with hdone | ⟨j, hsent, hj⟩
    · exact hunsettled hdone
    · obtain rfl := Option.some.inj (hheld.symm.trans hj)
      exact hnew hsent
  accounted k hk := by
    rw [hqueue, List.map_append, List.map_singleton, List.mem_append,
      List.mem_singleton] at hk
    rw [hcommitted, hholder]
    have hsent : ∀ j k, k ∈ (c.standing D j).sent →
        k ∈ (c'.standing D j).sent := by
      intro j k hk
      by_cases hji : j = i
      · subst hji
        rw [standing, hsession]
        exact List.mem_cons_of_mem _ hk
      · rwa [standing, hmoved.session j hji]
    rcases hk with hk | rfl
    · rcases h.accounted k hk with hdone | ⟨j, hj, hkj⟩
      · exact Or.inl hdone
      · exact Or.inr ⟨j, hsent j k hj, hkj⟩
    · refine Or.inr ⟨i, ?_, hheld⟩
      rw [standing, hsession]
      exact List.mem_cons_self

end Moves

variable [DecidableEq κ]

/-- No session is killed, or ends with an error, that has sent a message since
its last commit. -/
def Clean (c : Pool ι σ κ μ ε α) : Move ι → Prop
  | .step i => (c.session i).raised = true → (c.session i).sent = []
  | .abort i => (c.session i).sent = []

instance (c : Pool ι σ κ μ ε α) : ∀ m, Decidable (c.Clean m)
  | .step i => inferInstanceAs (Decidable ((c.session i).raised = true → _))
  | .abort i => inferInstanceAs (Decidable ((c.session i).sent = []))

/-- Session `i` takes a key and continues as `x`. -/
def take (c : Pool ι σ κ μ ε α) (i : ι) (x : Session σ κ μ ε α) (key : κ) :
    Pool ι σ κ μ ε α :=
  { c.replace i x with holder := Function.update c.holder key (some i) }

/-- Session `i` executes its next statement. -/
def step (c : Pool ι σ κ μ ε α) (i : ι) : Pool ι σ κ μ ε α :=
  let x := c.session i
  match x.rest with
  | none => c
  | some (.done r) => c.release i (.fresh (.done r)) c.committed
  | some (.read next) =>
      c.replace i { x with rest := some (next (x.pending c.committed)) }
  | some (.acquire key taken next) =>
      if c.holder key = none ∨ c.holder key = some i then
        if taken (x.pending c.committed) then
          c.replace i { x with rest := some (next false) }
        else c.take i { x with rest := some (next true) } key
      else c
  | some (.write change next) =>
      c.replace i { x with rest := some next, pending := change ∘ x.pending }
  | some (.send message next) =>
      { c.replace i { x with rest := some next, sent := message :: x.sent } with
        queue := c.queue ++ [message] }
  | some (.commit next) =>
      c.release i (.fresh next) (x.pending c.committed)

def move (c : Pool ι σ κ μ ε α) : Move ι → Pool ι σ κ μ ε α
  | .step i => c.step i
  | .abort i => c.abort i

/-- The moves are made one after another. -/
def exec (c : Pool ι σ κ μ ε α) (moves : List (Move ι)) : Pool ι σ κ μ ε α :=
  moves.foldl move c

section Runs

variable {D : Discipline σ κ μ} {post : ι → Except ε α → Prop}
  {c : Pool ι σ κ μ ε α} {i : ι}

@[simp] theorem session_take_self (x : Session σ κ μ ε α) (key : κ) :
    (c.take i x key).session i = x :=
  session_replace_self x

theorem movedBy_take
    (hinv : D.Inv c.committed) {key : κ}
    (hfree : c.holder key = none ∨ c.holder key = some i)
    (x : Session σ κ μ ε α) : MovedBy D i c (c.take i x key) where
  session _ hj := session_replace_of_ne hj x
  holder j hj k := by
    rw [take]
    dsimp only
    by_cases hk : k = key
    · subst hk
      rw [Function.update_self]
      constructor
      · intro h
        exact absurd (Option.some.inj h).symm hj
      · intro h
        rcases hfree with hfree | hfree
        · simp [hfree] at h
        · exact absurd (Option.some.inj (h.symm.trans hfree)) hj
    · rw [Function.update_of_ne hk]
  inv := hinv
  rely _ _ := .refl hinv

theorem holder_take_eq_some_iff
    {x : Session σ κ μ ε α} {key k : κ} :
    (c.take i x key).holder k = some i ↔ k = key ∨ c.holder k = some i := by
  rw [take]
  by_cases hk : k = key
  · simp [hk]
  · simp [hk]

/-- The keys of a session that takes one. -/
theorem held_take (x : Session σ κ μ ε α) (key : κ) :
    {k | (c.take i x key).holder k = some i} =
      insert key {k | c.holder k = some i} := by
  ext k
  exact holder_take_eq_some_iff

/-- A session that is not killed guards the discipline after its next
statement. -/
theorem Keeps.step (h : c.Keeps D post) (i : ι) : (c.step i).Keeps D post := by
  rw [Pool.step]
  dsimp only
  split
  · exact h
  next r hrest =>
    have hown := h.guards i _ hrest _ (.refl h.inv)
    refine h.of_movedBy (movedBy_release h.inv (fun j _ => .refl h.inv) _) ?_
    intro p hp
    rw [session_release_self] at hp
    obtain rfl := Option.some.inj hp
    rw [standing_release_fresh]
    exact fun s _ => ⟨hown.1, fun _ _ => rfl⟩
  next next hrest =>
    have hown := h.guards i _ hrest _ (.refl h.inv)
    apply h.replace rfl
    simpa [standing, Pool.replace] using hown
  next key taken next hrest =>
    have hown : if taken ((c.session i).pending c.committed) then _ else _ :=
      h.guards i _ hrest _ (.refl h.inv)
    split
    next hfree =>
      split
      next htaken =>
        rw [if_pos htaken] at hown
        apply h.replace rfl
        simpa [standing, Pool.replace] using hown
      next htaken =>
        rw [if_neg htaken] at hown
        refine h.of_movedBy (movedBy_take h.inv hfree _) ?_
        intro p hp
        rw [session_take_self] at hp
        obtain rfl := Option.some.inj hp
        rw [standing, held_take, session_take_self]
        exact hown
    next => exact h
  next change next hrest =>
    have hown := h.guards i _ hrest
    rw [Guards] at hown
    apply h.replace rfl
    simpa [standing, Pool.replace] using hown
  next message next hrest =>
    have hown := (h.guards i _ hrest _ (.refl h.inv)).2.2.2
    have hmoved := movedBy_replace (D := D) (i := i) h.inv
      { c.session i with
        rest := some next, sent := message :: (c.session i).sent }
    refine h.of_movedBy
      ⟨hmoved.session, hmoved.holder, hmoved.inv, hmoved.rely⟩ ?_
    intro p hp
    rw [session_replace_self] at hp
    obtain rfl := Option.some.inj hp
    simpa [standing, Pool.replace] using hown
  next next hrest =>
    obtain ⟨hallows, hown⟩ := h.guards i _ hrest _ (.refl h.inv)
    refine h.of_movedBy
      (movedBy_release hallows.inv (fun j hj => rely_of_allows hj hallows) _) ?_
    intro p hp
    rw [session_release_self] at hp
    obtain rfl := Option.some.inj hp
    rw [standing_release_fresh]
    exact hown

/-- Whatever the order of the statements, and whichever sessions are killed. -/
theorem Keeps.exec (h : c.Keeps D post) (moves : List (Move ι)) :
    (c.exec moves).Keeps D post := by
  induction moves generalizing c with
  | nil => exact h
  | cons move moves ih =>
      cases move with
      | step i => exact ih (h.step i)
      | abort i => exact ih (h.abort i)

/-- The next statement of a session leaves every message accounted for. -/
theorem Accounts.step
    (h : c.Accounts D) (hkeeps : c.Keeps D post) (i : ι)
    (hclean : c.Clean (.step i)) : (c.step i).Accounts D := by
  have hstay : ∀ k, D.Settled k c.committed → D.Settled k c.committed :=
    fun _ hk => hk
  rw [Pool.step]
  dsimp only
  split
  · exact h
  next r hrest =>
    have hown := hkeeps.guards i _ hrest _ (.refl hkeeps.inv)
    apply h.of_movedBy
      (movedBy_release hkeeps.inv (fun j _ => .refl hkeeps.inv) _) rfl hstay
    intro k hk
    cases r with
    | ok a =>
        rw [hown.2 a rfl] at hk
        simp at hk
    | error e =>
        have hraised : (c.session i).raised = true := by
          rw [Session.raised, hrest]
        simp [standing, hclean hraised] at hk
  next next hrest =>
    exact h.replace hkeeps.inv rfl
  next key taken next hrest =>
    split
    next hfree =>
      split
      next htaken =>
        exact h.replace hkeeps.inv rfl
      next htaken =>
        apply h.of_movedBy (movedBy_take hkeeps.inv hfree _) rfl hstay
        intro k hk hholder
        refine Or.inr ⟨?_, holder_take_eq_some_iff.mpr (Or.inr hholder)⟩
        rwa [standing, session_take_self]
    next => exact h
  next change next hrest =>
    exact h.replace hkeeps.inv rfl
  next message next hrest =>
    obtain ⟨hheld, hnew, hunsettled, -⟩ :=
      hkeeps.guards i _ hrest _ (.refl hkeeps.inv)
    have hmoved := movedBy_replace (D := D) (i := i) hkeeps.inv
      { c.session i with
        rest := some next, sent := message :: (c.session i).sent }
    refine h.send ⟨hmoved.session, hmoved.holder, hmoved.inv, hmoved.rely⟩ rfl
      rfl ?_ rfl hheld hnew hunsettled
    rw [session_replace_self]
  next next hrest =>
    obtain ⟨hallows, -⟩ := hkeeps.guards i _ hrest _ (.refl hkeeps.inv)
    apply h.of_movedBy
      (movedBy_release hallows.inv (fun j hj => rely_of_allows hj hallows) _)
      rfl hallows.settled
    intro k hk _
    exact Or.inl (hallows.sent_settled k hk)

/-- As long as no session is killed or ends with an error between a message and
its commit, no two messages have one key. -/
theorem Accounts.exec
    (h : c.Accounts D) (hkeeps : c.Keeps D post) {moves : List (Move ι)}
    (hclean : Runs.Along move Clean c moves) : (c.exec moves).Accounts D := by
  induction moves generalizing c with
  | nil => exact h
  | cons move moves ih =>
      obtain ⟨hmove, hrest⟩ := hclean
      cases move with
      | step i => exact ih (h.step hkeeps i hmove) (hkeeps.step i) hrest
      | abort i => exact ih (h.abort hkeeps.inv hmove) (hkeeps.abort i) hrest

end Runs

end Pool

end LockedTransactions
