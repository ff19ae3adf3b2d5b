import BarberHub.Support.LockedTransactions
import BarberHub.Support.RelyGuarantee

/-!
# Transactions without their locks

A transaction that takes locks is run as a program that never waits: it reads
the committed state with its own pending writes, and its commit applies them.
Every interleaving the locks allow is one of these programs, so what holds of
every interleaving of the programs holds with the locks, too.

It is parameterized by the types of states, keys and messages, and names no
application.
-/

namespace LockedTransactions

namespace Transaction

open ReadCommitted

variable {σ κ μ ε α β : Type}

/-- The program of a transaction with these writes pending; it takes no lock,
and its messages are left out. -/
def unlocked : Transaction σ κ μ ε α → (σ → σ) → Program σ ε α
  | done r, _ => .done r
  | read next, pending => .read fun s => (next (pending s)).unlocked pending
  | acquire _ taken next, pending =>
      .read fun s => (next (!taken (pending s))).unlocked pending
  | write change next, pending => next.unlocked fun s => change (pending s)
  | send _ next, pending => next.unlocked pending
  | commit next, pending =>
      .commit (fun s => .ok (pending s)) (next.unlocked id)

/-- Every write of the transaction is related to the state it is made in. -/
def Writes (R : σ → σ → Prop) : Transaction σ κ μ ε α → Prop
  | done _ => True
  | read next => ∀ s, (next s).Writes R
  | acquire _ _ next => ∀ accepted, (next accepted).Writes R
  | write change next => (∀ s, R s (change s)) ∧ next.Writes R
  | send _ next => next.Writes R
  | commit next => next.Writes R

section

variable {R : σ → σ → Prop}

theorem ReadOnly.writes {p : Transaction σ κ μ ε α} (h : p.ReadOnly) :
    p.Writes R := by
  induction p with
  | done r => trivial
  | read next ih => exact fun s => ih s (h s)
  | acquire key taken next ih => exact h.elim
  | write change next ih => exact h.elim
  | send message next ih => exact h.elim
  | commit next ih => exact h.elim

theorem Writes.bind
    {p : Transaction σ κ μ ε α} {f : α → Transaction σ κ μ ε β}
    (hp : p.Writes R) (hf : ∀ a, (f a).Writes R) : (p >>= f).Writes R := by
  induction p with
  | done r =>
      cases r with
      | ok a => exact hf a
      | error e => trivial
  | read next ih => exact fun s => ih s (hp s)
  | acquire key taken next ih => exact fun accepted => ih accepted (hp accepted)
  | write change next ih => exact ⟨hp.1, ih hp.2⟩
  | send message next ih => exact ih hp
  | commit next ih => exact ih hp

theorem Writes.mono
    {R' : σ → σ → Prop} {p : Transaction σ κ μ ε α} (h : p.Writes R)
    (hR : ∀ s s', R s s' → R' s s') : p.Writes R' := by
  induction p with
  | done r => trivial
  | read next ih => exact fun s => ih s (h s)
  | acquire key taken next ih => exact fun accepted => ih accepted (h accepted)
  | write change next ih => exact ⟨fun s => hR _ _ (h.1 s), ih h.2⟩
  | send message next ih => exact ih h
  | commit next ih => exact ih h

theorem writes_lock (key : κ) : (lock key : Transaction σ κ μ ε Unit).Writes R :=
  fun _ => trivial

theorem writes_ensure (p : Prop) [Decidable p] (e : ε) :
    (ensure p e : Transaction σ κ μ ε Unit).Writes R := by
  rw [ensure]
  split <;> trivial

theorem writes_modify {change : σ → σ} (h : ∀ s, R s (change s)) :
    (modify change : Transaction σ κ μ ε Unit).Writes R :=
  ⟨h, trivial⟩

theorem writes_insertRow
    {key : κ} {taken : σ → Bool} {change : σ → σ} (h : ∀ s, R s (change s)) :
    (insertRow key taken change : Transaction σ κ μ ε Bool).Writes R := by
  intro accepted
  cases accepted with
  | false => trivial
  | true => exact ⟨h, trivial⟩

/-- What every write is related by, every commit is related by: whatever others
commit, the pending writes are applied to the state it is made in. -/
theorem Writes.learns_unlocked
    {rely : σ → σ → Prop} (hR : Program.IsRely R)
    {p : Transaction σ κ μ ε α} (h : p.Writes R) {pending : σ → σ}
    (hpending : ∀ s, R s (pending s)) (s : σ) :
    (p.unlocked pending).Learns rely R (fun _ _ => True) s := by
  induction p generalizing pending s with
  | done r => exact Program.learns_done fun _ _ _ _ => trivial
  | read next ih => exact fun t _ => ih (pending t) (h (pending t)) hpending t
  | acquire key taken next ih => exact fun t _ => ih _ (h _) hpending t
  | write change next ih =>
      exact ih h.2 (fun t => hR.trans (hpending t) (h.1 (pending t))) s
  | send message next ih => exact ih h hpending s
  | commit next ih =>
      intro t _
      exact ⟨hpending t, ih h (fun u => hR.refl u) (pending t)⟩

end

end Transaction

end LockedTransactions
