import Mathlib.Data.Finset.Max
import Mathlib.Logic.Hydra
import BarberHub.Support.LockedPools

/-!
# Locks taken in order

Transactions that take their locks in the order of a rank never wait for one
another in a circle.  So whatever has happened, sessions that have not ended can
all be brought to their end, by executing statements and killing none.  The
module names no application.
-/

namespace LockedTransactions

variable {ι σ κ μ ε α β : Type}

/-! ## Transactions -/

namespace Transaction

/-- With `held` locked, the transaction asks for no key below one it holds, as
long as what it reads satisfies the invariant; and where it answers, `Q`
holds of what it holds then. -/
def InOrder (Inv : σ → Prop) (rank : κ → ℕ) (Q : α → Set κ → Prop) :
    Transaction σ κ μ ε α → Set κ → Prop
  | done r, held => ∀ a, r = .ok a → Q a held
  | read next, held => ∀ s, Inv s → (next s).InOrder Inv rank Q held
  | acquire key taken next, held =>
      (key ∉ held → ∀ k ∈ held, rank k < rank key) ∧
        (next true).InOrder Inv rank Q (insert key held) ∧
        ((∃ s, taken s = true) → (next false).InOrder Inv rank Q held)
  | write change next, held =>
      (∀ s, Inv s → Inv (change s)) ∧ next.InOrder Inv rank Q held
  | send _ next, held => next.InOrder Inv rank Q held
  | commit next, _ => next.InOrder Inv rank Q ∅

variable {Inv : σ → Prop} {rank : κ → ℕ} {held : Set κ}
  {Q : α → Set κ → Prop}

theorem InOrder.bind {Q' : β → Set κ → Prop}
    {p : Transaction σ κ μ ε α} {f : α → Transaction σ κ μ ε β}
    (h : p.InOrder Inv rank Q held)
    (hf : ∀ a held', Q a held' → (f a).InOrder Inv rank Q' held') :
    (p >>= f).InOrder Inv rank Q' held := by
  induction p generalizing held with
  | done r =>
      cases r with
      | ok a => exact hf a held (h a rfl)
      | error e =>
          intro b hb
          simp at hb
  | read next ih => exact fun s hs => ih s (h s hs)
  | acquire key taken next ih =>
      exact ⟨h.1, ih true h.2.1, fun htaken => ih false (h.2.2 htaken)⟩
  | write change next ih => exact ⟨h.1, ih h.2⟩
  | send message next ih => exact ih h
  | commit next ih => exact ih h

theorem InOrder.mono {Q' : α → Set κ → Prop} {p : Transaction σ κ μ ε α}
    (h : p.InOrder Inv rank Q held)
    (hpost : ∀ a held', Q a held' → Q' a held') :
    p.InOrder Inv rank Q' held := by
  induction p generalizing held with
  | done r => exact fun a ha => hpost a held (h a ha)
  | read next ih => exact fun s hs => ih s (h s hs)
  | acquire key taken next ih =>
      exact ⟨h.1, ih true h.2.1, fun htaken => ih false (h.2.2 htaken)⟩
  | write change next ih => exact ⟨h.1, ih h.2⟩
  | send message next ih => exact ih h
  | commit next ih => exact ih h

theorem inOrder_query {f : σ → α} (h : ∀ s, Inv s → Q (f s) held) :
    (query f : Transaction σ κ μ ε α).InOrder Inv rank Q held := by
  intro s hs a ha
  obtain rfl := Except.ok.inj ha
  exact h s hs

theorem inOrder_foundOr (e : ε) {row : Option α}
    (h : ∀ a, row = some a → Q a held) :
    (foundOr e row : Transaction σ κ μ ε α).InOrder Inv rank Q held := by
  cases row with
  | none =>
      intro a ha
      simp at ha
  | some a =>
      intro b hb
      obtain rfl := Except.ok.inj hb
      exact h a rfl

theorem inOrder_ensure (p : Prop) [Decidable p] (e : ε)
    {Q : Unit → Set κ → Prop} (h : p → Q () held) :
    (ensure p e : Transaction σ κ μ ε Unit).InOrder Inv rank Q held := by
  rw [ensure]
  split
  next hp => exact fun _ _ => h hp
  · intro a ha
    simp at ha

/-- A row that nobody can have taken is locked when the wait is over. -/
theorem inOrder_lock {key : κ} {Q : Unit → Set κ → Prop}
    (horder : key ∉ held → ∀ k ∈ held, rank k < rank key)
    (h : Q () (insert key held)) :
    (lock key : Transaction σ κ μ ε Unit).InOrder Inv rank Q held := by
  refine ⟨horder, fun _ _ => h, ?_⟩
  rintro ⟨s, hs⟩
  exact absurd hs Bool.false_ne_true

theorem inOrder_modify {change : σ → σ} {Q : Unit → Set κ → Prop}
    (hchange : ∀ s, Inv s → Inv (change s)) (h : Q () held) :
    (modify change : Transaction σ κ μ ε Unit).InOrder Inv rank Q held :=
  ⟨hchange, fun _ _ => h⟩

theorem ReadOnly.inOrder {p : Transaction σ κ μ ε α} (hp : p.ReadOnly)
    (h : ∀ a, Q a held) : p.InOrder Inv rank Q held := by
  induction p with
  | done r => exact fun a _ => h a
  | read next ih => exact fun s _ => ih s (hp s)
  | acquire key taken next ih => exact hp.elim
  | write change next ih => exact hp.elim
  | send message next ih => exact hp.elim
  | commit next ih => exact hp.elim

/-- One statement less to execute. -/
inductive Follows : Option (Transaction σ κ μ ε α) →
    Option (Transaction σ κ μ ε α) → Prop where
  | ended (p) : Follows none (some p)
  | read (next) (s : σ) : Follows (some (next s)) (some (.read next))
  | acquire (key) (taken) (next) (b : Bool) :
      Follows (some (next b)) (some (.acquire key taken next))
  | write (change) (next) : Follows (some next) (some (.write change next))
  | send (message) (next) : Follows (some next) (some (.send message next))
  | commit (next) : Follows (some next) (some (.commit next))

theorem Follows.none {q o : Option (Transaction σ κ μ ε α)}
    (h : Follows q o) : Follows none o := by
  cases h with
  | ended => exact .ended _
  | read => exact .ended _
  | acquire => exact .ended _
  | write => exact .ended _
  | send => exact .ended _
  | commit => exact .ended _

theorem wellFounded_follows :
    WellFounded (Follows : Option (Transaction σ κ μ ε α) → _ → Prop) := by
  have hnone : Acc Follows (none : Option (Transaction σ κ μ ε α)) := by
    constructor
    intro p hp
    cases hp
  refine ⟨fun p => ?_⟩
  cases p with
  | none => exact hnone
  | some p =>
      induction p with
      | done r =>
          constructor
          intro q hq
          cases hq
          exact hnone
      | read next ih =>
          constructor
          intro q hq
          cases hq with
          | ended => exact hnone
          | read _ s => exact ih s
      | acquire key taken next ih =>
          constructor
          intro q hq
          cases hq with
          | ended => exact hnone
          | acquire _ _ _ b => exact ih b
      | write change next ih =>
          constructor
          intro q hq
          cases hq with
          | ended => exact hnone
          | write => exact ih
      | send message next ih =>
          constructor
          intro q hq
          cases hq with
          | ended => exact hnone
          | send => exact ih
      | commit next ih =>
          constructor
          intro q hq
          cases hq with
          | ended => exact hnone
          | commit => exact ih

end Transaction

/-! ## Pools -/

/-- The session whose statement is executed. -/
def Move.stepped? : Move ι → Option ι
  | .step i => some i
  | .abort _ => none

namespace Pool

open Transaction

variable [DecidableEq ι] [DecidableEq κ]

section Moves

variable {c : Pool ι σ κ μ ε α} {i j : ι}

/-- A statement of one session leaves the others where they are. -/
theorem session_step_of_ne (h : j ≠ i) :
    (c.step i).session j = c.session j := by
  rw [step]
  dsimp only
  split
  · rfl
  · exact session_replace_of_ne h _
  · exact session_replace_of_ne h _
  · split
    · split
      · exact session_replace_of_ne h _
      · exact session_replace_of_ne h _
    · rfl
  · exact session_replace_of_ne h _
  · exact session_replace_of_ne h _
  · exact session_replace_of_ne h _

/-- It takes free keys only, and gives back its own. -/
theorem holder_step_of_ne (h : j ≠ i) (k : κ) :
    (c.step i).holder k = some j ↔ c.holder k = some j := by
  rw [step]
  dsimp only
  split
  · rfl
  · exact holder_release_eq_some_iff.trans (and_iff_left h)
  · rfl
  next key taken next hrest =>
    split
    next hfree =>
      split
      · rfl
      · rw [take]
        dsimp only
        by_cases hk : k = key
        · subst hk
          rw [Function.update_self]
          rcases hfree with hfree | hfree
          · simp [hfree, h.symm]
          · simp [hfree]
        · rw [Function.update_of_ne hk]
    · rfl
  · rfl
  · rfl
  · exact holder_release_eq_some_iff.trans (and_iff_left h)

end Moves

/-- What the sessions hold and have still to do, for transactions that take
their locks in order. -/
structure InOrder (Inv : σ → Prop) (rank : κ → ℕ) (c : Pool ι σ κ μ ε α) :
    Prop where
  inv : Inv c.committed
  pending : ∀ i s, Inv s → Inv ((c.session i).pending s)
  killed : ∀ i, (c.session i).rest = none → ∀ k, c.holder k ≠ some i
  sessions : ∀ i p, (c.session i).rest = some p →
    p.InOrder Inv rank (fun _ _ => True) {k | c.holder k = some i}

section InOrder

variable {Inv : σ → Prop} {rank : κ → ℕ} {c c' : Pool ι σ κ μ ε α} {i : ι}

omit [DecidableEq ι] [DecidableEq κ] in
theorem inOrder_start {s : σ} {program : ι → Transaction σ κ μ ε α}
    (hinv : Inv s) (h : ∀ i,
      (program i).InOrder Inv rank (fun _ _ => True) ∅) :
    (Pool.start s program).InOrder Inv rank where
  inv := hinv
  pending _ _ hs := hs
  killed i hi := by simp [start, Session.fresh] at hi
  sessions i p hp := by
    obtain rfl := Option.some.inj hp
    simpa [start] using h i

omit [DecidableEq ι] [DecidableEq κ] in
/-- A move of one session, judged by that session. -/
theorem InOrder.of_move (h : c.InOrder Inv rank)
    (hsession : ∀ j, j ≠ i → c'.session j = c.session j)
    (hholder : ∀ j, j ≠ i → ∀ k, c'.holder k = some j ↔ c.holder k = some j)
    (hinv : Inv c'.committed)
    (hpending : ∀ s, Inv s → Inv ((c'.session i).pending s))
    (hkilled : (c'.session i).rest = none → ∀ k, c'.holder k ≠ some i)
    (hown : ∀ p, (c'.session i).rest = some p →
      p.InOrder Inv rank (fun _ _ => True) {k | c'.holder k = some i}) :
    c'.InOrder Inv rank where
  inv := hinv
  pending j s hs := by
    by_cases hj : j = i
    · rw [hj]
      exact hpending s hs
    · rw [hsession j hj]
      exact h.pending j s hs
  killed j hrest k := by
    by_cases hj : j = i
    · subst hj
      exact hkilled hrest k
    · rw [hsession j hj] at hrest
      rw [ne_eq, hholder j hj]
      exact h.killed j hrest k
  sessions j p hp := by
    by_cases hj : j = i
    · subst hj
      exact hown p hp
    · rw [hsession j hj] at hp
      simpa only [hholder j hj] using h.sessions j p hp

omit [DecidableEq κ] in
/-- A session that goes on without its locks. -/
theorem InOrder.release (h : c.InOrder Inv rank) {s : σ} (hs : Inv s)
    {rest : Option (Transaction σ κ μ ε α)}
    (hown : ∀ p, rest = some p → p.InOrder Inv rank (fun _ _ => True) ∅) :
    (c.release i ⟨rest, id, []⟩ s).InOrder Inv rank := by
  have hheld : ∀ k, (c.release i ⟨rest, id, []⟩ s).holder k ≠ some i := by
    intro k hk
    exact (holder_release_eq_some_iff.mp hk).2 rfl
  refine h.of_move (i := i) (fun j hj => session_replace_of_ne hj _)
    (fun j hj k => holder_release_eq_some_iff.trans (and_iff_left hj)) hs ?_
    (fun _ => hheld) ?_
  · rw [session_release_self]
    exact fun _ ht => ht
  · intro p hp
    rw [session_release_self] at hp
    have hempty : {k | (c.release i ⟨rest, id, []⟩ s).holder k = some i} = ∅ :=
      Set.eq_empty_of_forall_notMem hheld
    rw [hempty]
    exact hown p hp

omit [DecidableEq κ] in
theorem InOrder.abort (h : c.InOrder Inv rank) (i : ι) :
    (c.abort i).InOrder Inv rank := by
  rw [Pool.abort]
  apply h.release h.inv
  intro p hp
  simp at hp

omit [DecidableEq κ] in
/-- A session that goes on with its locks. -/
theorem InOrder.replace (h : c.InOrder Inv rank) {x : Session σ κ μ ε α}
    {p : Transaction σ κ μ ε α} (hrest : x.rest = some p)
    (hpending : ∀ s, Inv s → Inv (x.pending s))
    (hown : p.InOrder Inv rank (fun _ _ => True) {k | c.holder k = some i}) :
    (c.replace i x).InOrder Inv rank := by
  refine h.of_move (i := i) (fun j hj => session_replace_of_ne hj x)
    (fun _ _ _ => Iff.rfl) h.inv ?_ ?_ ?_
  · rw [session_replace_self]
    exact hpending
  · rw [session_replace_self, hrest]
    intro hnone
    simp at hnone
  · intro p' hp'
    rw [session_replace_self, hrest] at hp'
    obtain rfl := Option.some.inj hp'
    exact hown

theorem InOrder.step (h : c.InOrder Inv rank) (i : ι) :
    (c.step i).InOrder Inv rank := by
  have hown := h.sessions i
  have hseen : Inv ((c.session i).pending c.committed) :=
    h.pending i _ h.inv
  rw [Pool.step]
  dsimp only
  split
  · exact h
  next r hrest =>
    apply h.release h.inv
    intro p hp
    obtain rfl := Option.some.inj hp
    exact fun _ _ => trivial
  next next hrest =>
    exact h.replace rfl (h.pending i) (hown _ hrest _ hseen)
  next key taken next hrest =>
    obtain ⟨-, htrue, hfalse⟩ := hown _ hrest
    split
    next hfree =>
      split
      next htaken =>
        exact h.replace rfl (h.pending i) (hfalse ⟨_, htaken⟩)
      next htaken =>
        have hstep : ∀ j, j ≠ i → ∀ k, (c.take i
            { c.session i with rest := some (next true) } key).holder k =
              some j ↔ c.holder k = some j := by
          intro j hj k
          have hsame := holder_step_of_ne (c := c) hj k
          rw [Pool.step, hrest] at hsame
          dsimp only at hsame
          rwa [if_pos hfree, if_neg htaken] at hsame
        refine h.of_move (i := i) (fun j hj => session_replace_of_ne hj _) hstep
          h.inv ?_ ?_ ?_
        · rw [session_take_self]
          exact h.pending i
        · rw [session_take_self]
          intro hnone
          simp at hnone
        · intro p hp
          rw [session_take_self] at hp
          obtain rfl := Option.some.inj hp
          rw [held_take]
          exact htrue
    next => exact h
  next change next hrest =>
    obtain ⟨hchange, hnext⟩ := hown _ hrest
    exact h.replace rfl (fun s hs => hchange _ (h.pending i s hs)) hnext
  next message next hrest =>
    have hnext := hown (.send message next) hrest
    rw [Transaction.InOrder] at hnext
    have hreplaced := h.replace (i := i)
      (x := { c.session i with
        rest := some next, sent := message :: (c.session i).sent })
      rfl (h.pending i) hnext
    exact ⟨hreplaced.inv, hreplaced.pending, hreplaced.killed,
      hreplaced.sessions⟩
  next next hrest =>
    apply h.release hseen
    intro p hp
    obtain rfl := Option.some.inj hp
    exact hown _ hrest

theorem InOrder.exec (h : c.InOrder Inv rank) (moves : List (Move ι)) :
    (c.exec moves).InOrder Inv rank := by
  induction moves generalizing c with
  | nil => exact h
  | cons move moves ih =>
      cases move with
      | step i => exact ih (h.step i)
      | abort i => exact ih (h.abort i)

end InOrder

/-! ## Nobody waits forever -/

section Waiting

variable {Inv : σ → Prop} {rank : κ → ℕ} {c : Pool ι σ κ μ ε α} {i : ι}

/-- The session waits for the key, which another one holds. -/
def WaitsAt (c : Pool ι σ κ μ ε α) (i : ι) (key : κ) : Prop :=
  (∃ taken next, (c.session i).rest = some (.acquire key taken next)) ∧
    c.holder key ≠ none ∧ c.holder key ≠ some i

/-- The session has answered, or was killed, and holds no lock. -/
def Ended (c : Pool ι σ κ μ ε α) (i : ι) : Prop :=
  (∀ p, (c.session i).rest = some p → ∃ r, p = .done r) ∧
    ∀ k, c.holder k ≠ some i

/-- What a session has still to do. -/
noncomputable def left (c : Pool ι σ κ μ ε α) (i : ι) :
    Option (Transaction σ κ μ ε α) :=
  open Classical in if c.Ended i then none else (c.session i).rest

theorem ended_step_of_ne {j : ι} (h : j ≠ i) :
    (c.step i).Ended j ↔ c.Ended j := by
  rw [Ended, Ended, session_step_of_ne h]
  simp only [ne_eq, holder_step_of_ne h]

theorem left_step_of_ne {j : ι} (h : j ≠ i) :
    (c.step i).left j = c.left j := by
  rw [left, left, session_step_of_ne h]
  by_cases hended : c.Ended j
  · rw [if_pos hended, if_pos ((ended_step_of_ne h).mpr hended)]
  · rw [if_neg hended, if_neg (mt (ended_step_of_ne h).mp hended)]

omit [DecidableEq ι] [DecidableEq κ] in
theorem follows_left {o : Option (Transaction σ κ μ ε α)}
    (h : Follows (c.session i).rest o) : Follows (c.left i) o := by
  rw [left]
  split
  · exact h.none
  · exact h

/-- A session that has not ended and does not wait has less to do after its next
statement. -/
theorem follows_step (h : c.InOrder Inv rank) (hunended : ¬ c.Ended i)
    (hfree : ∀ key, ¬ c.WaitsAt i key) :
    Follows ((c.step i).left i) (c.left i) := by
  have hleft : c.left i = (c.session i).rest := if_neg hunended
  rw [hleft]
  cases hrest : (c.session i).rest with
  | none =>
      refine absurd ⟨?_, h.killed i hrest⟩ hunended
      intro p hp
      rw [hrest] at hp
      simp at hp
  | some p =>
      cases p with
      | done r =>
          have hended : (c.step i).Ended i := by
            rw [Pool.step, hrest]
            constructor
            · intro p hp
              rw [session_release_self] at hp
              obtain rfl := Option.some.inj hp
              exact ⟨r, rfl⟩
            · intro k hk
              exact (holder_release_eq_some_iff.mp hk).2 rfl
          rw [left, if_pos hended]
          exact .ended _
      | read next =>
          apply follows_left
          rw [Pool.step, hrest]
          dsimp only
          rw [session_replace_self]
          exact .read _ _
      | acquire key taken next =>
          have hmine : c.holder key = none ∨ c.holder key = some i := by
            by_contra hother
            rw [not_or] at hother
            exact hfree key ⟨⟨taken, next, hrest⟩, hother⟩
          apply follows_left
          rw [Pool.step, hrest]
          dsimp only
          rw [if_pos hmine]
          split
          · rw [session_replace_self]
            exact .acquire _ _ _ _
          · rw [session_take_self]
            exact .acquire _ _ _ _
      | write change next =>
          apply follows_left
          rw [Pool.step, hrest]
          dsimp only
          rw [session_replace_self]
          exact .write _ _
      | send message next =>
          apply follows_left
          rw [Pool.step, hrest]
          have hself := session_replace_self (c := c) (i := i)
            { c.session i with
              rest := some next, sent := message :: (c.session i).sent }
          exact hself ▸ .send _ _
      | commit next =>
          apply follows_left
          rw [Pool.step, hrest]
          dsimp only
          rw [session_release_self]
          exact .commit _

omit [DecidableEq κ] in
/-- Among sessions that hold all the locks, one that has not ended and waits for
a key of the highest rank waits for one that does not wait. -/
theorem exists_not_waiting (h : c.InOrder Inv rank) {T : Finset ι}
    (hT : ∀ k j, c.holder k = some j → j ∈ T) {i : ι} (hi : i ∈ T)
    (hunended : ¬ c.Ended i) :
    ∃ j ∈ T, ¬ c.Ended j ∧ ∀ key, ¬ c.WaitsAt j key := by
  classical
  by_contra hall
  push Not at hall
  have hwait : ∀ j, ∃ n, j ∈ T → ¬ c.Ended j →
      ∃ key, c.WaitsAt j key ∧ rank key = n := by
    intro j
    by_cases hj : j ∈ T ∧ ¬ c.Ended j
    · obtain ⟨key, hkey⟩ := hall j hj.1 hj.2
      exact ⟨rank key, fun _ _ => ⟨key, hkey, rfl⟩⟩
    · exact ⟨0, fun hmem hj' => absurd ⟨hmem, hj'⟩ hj⟩
  choose n hn using hwait
  -- the session that waits for the key of the highest rank
  obtain ⟨j, hj, hmax⟩ := Finset.exists_max_image
    (T.filter fun j => ¬ c.Ended j) n ⟨i, Finset.mem_filter.mpr ⟨hi, hunended⟩⟩
  obtain ⟨hjT, hjunended⟩ := Finset.mem_filter.mp hj
  obtain ⟨key, ⟨-, htaken, -⟩, hrank⟩ := hn j hjT hjunended
  obtain ⟨l, hl⟩ := Option.ne_none_iff_exists'.mp htaken
  have hlT := hT key l hl
  have hlunended : ¬ c.Ended l := fun hended => hended.2 key hl
  obtain ⟨key', ⟨⟨taken, next, hrest⟩, -, hother⟩, hrank'⟩ :=
    hn l hlT hlunended
  have hlt := (h.sessions l _ hrest).1 hother key hl
  have hle := hmax l (Finset.mem_filter.mpr ⟨hlT, hlunended⟩)
  omega

/-- Sessions that take their locks in order and hold them all can be brought to
their end by executing their statements. -/
theorem InOrder.exists_completion (h : c.InOrder Inv rank) (T : Finset ι)
    (hT : ∀ k j, c.holder k = some j → j ∈ T) :
    ∃ more : List ι, (∀ i ∈ more, i ∈ T) ∧
      ∀ i ∈ T, (c.exec (more.map Move.step)).Ended i := by
  classical
  have hwf : WellFounded fun c' c : Pool ι σ κ μ ε α =>
      Relation.CutExpand Follows (T.val.map c'.left) (T.val.map c.left) :=
    InvImage.wf (fun c : Pool ι σ κ μ ε α => T.val.map c.left)
      wellFounded_follows.cutExpand
  induction c using hwf.induction with
  | _ c ih =>
    by_cases hended : ∀ i ∈ T, c.Ended i
    · exact ⟨[], by simp, hended⟩
    push Not at hended
    obtain ⟨i, hi, hunended⟩ := hended
    obtain ⟨j, hj, hjunended, hfree⟩ := exists_not_waiting h hT hi hunended
    have hless : Relation.CutExpand Follows (T.val.map (c.step j).left)
        (T.val.map c.left) := by
      have hothers : (T.erase j).val.map (c.step j).left =
          (T.erase j).val.map c.left := by
        apply Multiset.map_congr rfl
        intro l hl
        exact left_step_of_ne (Finset.ne_of_mem_erase hl)
      have hsplit : T.val = j ::ₘ (T.erase j).val := by
        rw [Finset.erase_val, Multiset.cons_erase hj]
      rw [hsplit, Multiset.map_cons, Multiset.map_cons, hothers,
        ← Multiset.singleton_add, ← Multiset.singleton_add]
      exact Relation.cutExpand_single_add (follows_step h hjunended hfree) _
    obtain ⟨more, hmore, hall⟩ := ih (c.step j) hless (h.step j) (by
      intro k l hl
      by_cases hlj : l = j
      · rw [hlj]
        exact hj
      · exact hT k l ((holder_step_of_ne hlj k).mp hl))
    exact ⟨j :: more, List.forall_mem_cons.mpr ⟨hj, hmore⟩, hall⟩

end Waiting

/-! ## From the start -/

section Start

variable {c : Pool ι σ κ μ ε α} {i : ι}

theorem exec_append (c : Pool ι σ κ μ ε α) (first rest : List (Move ι)) :
    c.exec (first ++ rest) = (c.exec first).exec rest :=
  List.foldl_append

/-- Only sessions that have executed a statement hold a key. -/
theorem holder_exec {moves : List (Move ι)} {k : κ}
    (h : (c.exec moves).holder k = some i) :
    c.holder k = some i ∨ Move.step i ∈ moves := by
  induction moves generalizing c with
  | nil => exact Or.inl h
  | cons move moves ih =>
      rcases ih h with hheld | hlater
      · cases move with
        | step j =>
            by_cases hij : i = j
            · rw [hij]
              exact Or.inr List.mem_cons_self
            · exact Or.inl ((holder_step_of_ne hij k).mp hheld)
        | abort j => exact Or.inl (holder_release_eq_some_iff.mp hheld).1
      · exact Or.inr (List.mem_cons_of_mem _ hlater)

/-- A statement kills nobody. -/
theorem rest_step_ne_none (h : (c.session i).rest ≠ none) (j : ι) :
    ((c.step j).session i).rest ≠ none := by
  by_cases hij : i = j
  · subst hij
    rw [step]
    dsimp only
    split
    next hrest => exact absurd hrest h
    · rw [session_release_self]
      exact Option.some_ne_none _
    · rw [session_replace_self]
      exact Option.some_ne_none _
    · split
      · split
        · rw [session_replace_self]
          exact Option.some_ne_none _
        · rw [session_take_self]
          exact Option.some_ne_none _
      · exact h
    · rw [session_replace_self]
      exact Option.some_ne_none _
    next message next hrest =>
      change ((c.replace i { c.session i with
        rest := some next
        sent := message :: (c.session i).sent }).session i).rest ≠ none
      rw [session_replace_self]
      exact Option.some_ne_none _
    · rw [session_release_self]
      exact Option.some_ne_none _
  · rw [session_step_of_ne hij]
    exact h

theorem rest_exec_ne_none {moves : List (Move ι)}
    (h : (c.session i).rest ≠ none) (hmoves : Move.abort i ∉ moves) :
    ((c.exec moves).session i).rest ≠ none := by
  induction moves generalizing c with
  | nil => exact h
  | cons move moves ih =>
      obtain ⟨hmove, hmoves⟩ := not_or.mp (mt List.mem_cons.mpr hmoves)
      refine ih ?_ hmoves
      cases move with
      | step j => exact rest_step_ne_none h j
      | abort j =>
          have hij : i ≠ j := fun heq => hmove (by rw [heq])
          rw [move, Pool.abort, release]
          dsimp only
          rw [session_replace_of_ne hij]
          exact h

/-- Whatever has happened since the start, any sessions that were not killed can
be brought to an answer by executing statements. -/
theorem exists_answers (Inv : σ → Prop) (rank : κ → ℕ) {s : σ}
    {program : ι → Transaction σ κ μ ε α} (hinv : Inv s)
    (h : ∀ i, (program i).InOrder Inv rank (fun _ _ => True) ∅)
    (moves : List (Move ι)) (T : Finset ι) :
    ∃ more : List ι, ∀ i ∈ T, Move.abort i ∉ moves →
      ∃ r, (((start s program).exec (moves ++ more.map .step)).session
        i).rest = some (.done r) := by
  have hinorder := (inOrder_start hinv h).exec moves
  obtain ⟨more, -, hended⟩ := hinorder.exists_completion
    (T ∪ (moves.filterMap Move.stepped?).toFinset) (by
      intro k j hj
      rcases holder_exec hj with hstart | hmoved
      · simp [start] at hstart
      · apply Finset.mem_union_right
        rw [List.mem_toFinset, List.mem_filterMap]
        exact ⟨_, hmoved, rfl⟩)
  refine ⟨more, ?_⟩
  intro i hi halive
  have hrest : (((start s program).exec
      (moves ++ more.map .step)).session i).rest ≠ none := by
    apply rest_exec_ne_none
    · exact Option.some_ne_none _
    · simp [halive]
  obtain ⟨p, hp⟩ := Option.ne_none_iff_exists'.mp hrest
  have hdone := hended i (Finset.mem_union_left _ hi)
  rw [← exec_append] at hdone
  obtain ⟨r, rfl⟩ := hdone.1 p hp
  exact ⟨r, hp⟩

end Start

end Pool

end LockedTransactions
