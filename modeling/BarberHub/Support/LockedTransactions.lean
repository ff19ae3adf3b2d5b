import Mathlib.Data.Set.Insert

/-!
# Transactions that take locks and send messages

This module contains a language of transactions that hold locks until they
end, see their own uncommitted writes, and hand messages to a queue that is
not part of the database: a rollback takes the writes back, not the messages.
A lock stands for a row locked `FOR UPDATE` or for a unique key whose insertion
is not committed yet.  Here transactions are executed alone, and `Guards` says
what a transaction takes care of while others commit between its statements.

It is parameterized by the types of states, keys and messages, and names no
application.
-/

namespace LockedTransactions

/-- A transaction over the states `σ` that locks keys in `κ`, sends messages in
`μ` and raises errors in `ε`. -/
inductive Transaction (σ κ μ ε α : Type) where
  /-- The session ends; what is not committed is rolled back. -/
  | done (result : Except ε α)
  /-- One statement: it sees the committed state with the own writes. -/
  | read (next : σ → Transaction σ κ μ ε α)
  /-- Wait until no other transaction holds the key, and take it unless it is
  taken in the database. -/
  | acquire (key : κ) (taken : σ → Bool)
      (next : Bool → Transaction σ κ μ ε α)
  /-- A write, pending until the commit. -/
  | write (change : σ → σ) (next : Transaction σ κ μ ε α)
  /-- Hand a message to the queue. -/
  | send (message : μ) (next : Transaction σ κ μ ε α)
  /-- Commit the pending writes and release the locks. -/
  | commit (next : Transaction σ κ μ ε α)

namespace Transaction

variable {σ κ μ ε α β : Type}

protected def bind :
    Transaction σ κ μ ε α → (α → Transaction σ κ μ ε β) →
      Transaction σ κ μ ε β
  | done (.ok a), f => f a
  | done (.error e), _ => done (.error e)
  | read next, f => read fun s => (next s).bind f
  | acquire key taken next, f => acquire key taken fun b => (next b).bind f
  | write change next, f => write change (next.bind f)
  | send message next, f => send message (next.bind f)
  | commit next, f => commit (next.bind f)

instance : Monad (Transaction σ κ μ ε) where
  pure a := done (.ok a)
  bind := Transaction.bind

/-- One query. -/
def query (f : σ → α) : Transaction σ κ μ ε α :=
  read fun s => done (.ok (f s))

/-- Raise an exception: the transaction is rolled back. -/
def raise (e : ε) : Transaction σ κ μ ε α :=
  done (.error e)

/-- The row a query has found, or the error when there is none. -/
def foundOr (e : ε) : Option α → Transaction σ κ μ ε α
  | some row => done (.ok row)
  | none => raise e

/-- Raise unless the condition holds. -/
def ensure (p : Prop) [Decidable p] (e : ε) : Transaction σ κ μ ε Unit :=
  if p then done (.ok ()) else raise e

/-- `SELECT … FOR UPDATE` of the row with that key. -/
def lock (key : κ) : Transaction σ κ μ ε Unit :=
  acquire key (fun _ => false) fun _ => done (.ok ())

/-- `INSERT` of a row with a unique key: whether it was accepted. -/
def insertRow (key : κ) (taken : σ → Bool) (change : σ → σ) :
    Transaction σ κ μ ε Bool :=
  acquire key taken fun accepted =>
    if accepted then write change (done (.ok true)) else done (.ok false)

/-- A write that cannot be refused. -/
def modify (change : σ → σ) : Transaction σ κ μ ε Unit :=
  write change (done (.ok ()))

/-- Hand a message to the queue. -/
def emit (message : μ) : Transaction σ κ μ ε Unit :=
  send message (done (.ok ()))

/-- Commit the pending writes. -/
def commitPending : Transaction σ κ μ ε Unit :=
  commit (done (.ok ()))

@[simp] theorem pure_eq_done (a : α) :
    (pure a : Transaction σ κ μ ε α) = done (.ok a) := rfl

@[simp] theorem done_ok_bind (a : α) (f : α → Transaction σ κ μ ε β) :
    (done (.ok a) >>= f) = f a := rfl

@[simp] theorem done_error_bind (e : ε) (f : α → Transaction σ κ μ ε β) :
    (done (.error e) >>= f) = done (.error e) := rfl

@[simp] theorem raise_bind (e : ε) (f : α → Transaction σ κ μ ε β) :
    (raise e >>= f) = raise e := rfl

@[simp] theorem query_bind (g : σ → α) (f : α → Transaction σ κ μ ε β) :
    (query g >>= f) = read fun s => f (g s) := rfl

@[simp] theorem lock_bind (key : κ) (f : Unit → Transaction σ κ μ ε β) :
    (lock key >>= f) = acquire key (fun _ => false) fun _ => f () := rfl

@[simp] theorem modify_bind
    (change : σ → σ) (f : Unit → Transaction σ κ μ ε β) :
    (modify change >>= f) = write change (f ()) := rfl

@[simp] theorem emit_bind (message : μ) (f : Unit → Transaction σ κ μ ε β) :
    (emit message >>= f) = send message (f ()) := rfl

@[simp] theorem insertRow_bind
    (key : κ) (taken : σ → Bool) (change : σ → σ)
    (f : Bool → Transaction σ κ μ ε β) :
    (insertRow key taken change >>= f) =
      acquire key taken fun accepted =>
        if accepted then write change (f true) else f false := by
  refine congrArg (acquire key taken) (funext ?_)
  intro accepted
  cases accepted <;> rfl

theorem bind_bind
    {γ : Type} (p : Transaction σ κ μ ε α) (f : α → Transaction σ κ μ ε β)
    (g : β → Transaction σ κ μ ε γ) :
    ((p >>= f) >>= g) = (p >>= fun a => f a >>= g) := by
  induction p with
  | done r =>
      cases r with
      | ok a => rfl
      | error e => rfl
  | read next ih => exact congrArg read (funext fun s => ih s)
  | acquire key taken next ih =>
      exact congrArg (acquire key taken) (funext fun b => ih b)
  | write change next ih => exact congrArg (write change) ih
  | send message next ih => exact congrArg (send message) ih
  | commit next ih => exact congrArg commit ih

/-- The transaction only reads. -/
def ReadOnly : Transaction σ κ μ ε α → Prop
  | done _ => True
  | read next => ∀ s, (next s).ReadOnly
  | _ => False

theorem readOnly_query (f : σ → α) :
    (query f : Transaction σ κ μ ε α).ReadOnly :=
  fun _ => trivial

theorem readOnly_foundOr (e : ε) (row : Option α) :
    (foundOr e row : Transaction σ κ μ ε α).ReadOnly := by
  cases row <;> trivial

theorem ReadOnly.bind
    {p : Transaction σ κ μ ε α} {f : α → Transaction σ κ μ ε β}
    (hp : p.ReadOnly) (hf : ∀ a, (f a).ReadOnly) : (p >>= f).ReadOnly := by
  induction p with
  | done r =>
      cases r with
      | ok a => exact hf a
      | error e => trivial
  | read next ih => exact fun s => ih s (hp s)
  | acquire key taken next ih => exact hp.elim
  | write change next ih => exact hp.elim
  | send message next ih => exact hp.elim
  | commit next ih => exact hp.elim

/-! ## Execution with no concurrent transaction -/

/-- What an execution leaves: the answer, the committed state, the state with
the writes not committed yet, and the messages sent. -/
structure Outcome (σ μ ε α : Type) where
  answer : Except ε α
  committed : σ
  view : σ
  sent : List μ

/-- Execute alone, with `view` the state that shows the pending writes. -/
def runFrom : Transaction σ κ μ ε α → σ → σ → Outcome σ μ ε α
  | done r, s, v => ⟨r, s, v, []⟩
  | read next, s, v => (next v).runFrom s v
  | acquire _ taken next, s, v => (next (!taken v)).runFrom s v
  | write change next, s, v => next.runFrom s (change v)
  | send message next, s, v =>
      { next.runFrom s v with sent := message :: (next.runFrom s v).sent }
  | commit next, _, v => next.runFrom v v

/-- Execute a transaction alone. -/
def run (p : Transaction σ κ μ ε α) (s : σ) : Outcome σ μ ε α :=
  p.runFrom s s

@[simp] theorem runFrom_done (r : Except ε α) (s v : σ) :
    (done r : Transaction σ κ μ ε α).runFrom s v = ⟨r, s, v, []⟩ := rfl

@[simp] theorem runFrom_raise (e : ε) (s v : σ) :
    (raise e : Transaction σ κ μ ε α).runFrom s v =
      ⟨.error e, s, v, []⟩ := rfl

@[simp] theorem runFrom_read
    (next : σ → Transaction σ κ μ ε α) (s v : σ) :
    (read next).runFrom s v = (next v).runFrom s v := rfl

@[simp] theorem runFrom_acquire
    (key : κ) (taken : σ → Bool) (next : Bool → Transaction σ κ μ ε α)
    (s v : σ) :
    (acquire key taken next).runFrom s v = (next (!taken v)).runFrom s v :=
  rfl

@[simp] theorem runFrom_write
    (change : σ → σ) (next : Transaction σ κ μ ε α) (s v : σ) :
    (write change next).runFrom s v = next.runFrom s (change v) := rfl

@[simp] theorem runFrom_send
    (message : μ) (next : Transaction σ κ μ ε α) (s v : σ) :
    (send message next).runFrom s v =
      { next.runFrom s v with
        sent := message :: (next.runFrom s v).sent } := rfl

/-- A transaction followed by another. -/
theorem runFrom_bind_of_ok
    {p : Transaction σ κ μ ε α} {f : α → Transaction σ κ μ ε β} {s v : σ}
    {a : α} {s' v' : σ} {sent : List μ}
    (h : p.runFrom s v = ⟨.ok a, s', v', sent⟩) :
    (p >>= f).runFrom s v =
      { (f a).runFrom s' v' with
        sent := sent ++ ((f a).runFrom s' v').sent } := by
  induction p generalizing s v sent with
  | done r =>
      rw [runFrom_done, Outcome.mk.injEq] at h
      obtain ⟨rfl, rfl, rfl, rfl⟩ := h
      rfl
  | read next ih => exact ih v h
  | acquire key taken next ih => exact ih (!taken v) h
  | write change next ih => exact ih h
  | send message next ih =>
      rw [runFrom_send, Outcome.mk.injEq] at h
      obtain ⟨hanswer, rfl, rfl, rfl⟩ := h
      have hrun : next.runFrom s v = ⟨.ok a, (next.runFrom s v).committed,
          (next.runFrom s v).view, (next.runFrom s v).sent⟩ := by
        rw [← hanswer]
      change { (next >>= f).runFrom s v with
        sent := message :: ((next >>= f).runFrom s v).sent } = _
      rw [ih hrun]
      rfl
  | commit next ih => exact ih h

/-- A composition that answers has had an answer of its first part. -/
theorem exists_answer_of_bind
    {p : Transaction σ κ μ ε α} {f : α → Transaction σ κ μ ε β} {s v : σ}
    {b : β} (h : ((p >>= f).runFrom s v).answer = .ok b) :
    ∃ a, (p.runFrom s v).answer = .ok a := by
  induction p generalizing s v with
  | done r =>
      cases r with
      | ok a => exact ⟨a, rfl⟩
      | error e => simp at h
  | read next ih => exact ih v h
  | acquire key taken next ih => exact ih (!taken v) h
  | write change next ih => exact ih h
  | send message next ih => exact ih h
  | commit next ih => exact ih h

end Transaction

end LockedTransactions
