import Mathlib.Logic.Basic

/-!
# Database transactions as programs

This module contains a small language of database transactions.  A program
reads the committed state one statement at a time, decides on what it saw, and
commits its pending writes at once; a write the schema refuses rolls the
transaction back.  Here programs are run alone.

It is parameterized by the type of states, errors and results, and names no
application.
-/

namespace ReadCommitted

/-- A transaction over the committed states `σ`, raising errors in `ε`. -/
inductive Program (σ ε α : Type) where
  /-- The request has been answered. -/
  | done (result : Except ε α)
  /-- One statement: it sees the state committed before it started. -/
  | read (next : σ → Program σ ε α)
  /-- Flush the pending writes and commit; a refused write is an error. -/
  | commit (write : σ → Except ε σ) (next : Program σ ε α)

namespace Program

variable {σ ε α β : Type}

protected def bind :
    Program σ ε α → (α → Program σ ε β) → Program σ ε β
  | done (.ok a), f => f a
  | done (.error e), _ => done (.error e)
  | read next, f => read fun s => (next s).bind f
  | commit write next, f => commit write (next.bind f)

instance : Monad (Program σ ε) where
  pure a := done (.ok a)
  bind := Program.bind

/-- One query against the committed state. -/
def query (f : σ → α) : Program σ ε α :=
  read fun s => done (.ok (f s))

/-- Raise an exception: the transaction is rolled back. -/
def raise (e : ε) : Program σ ε α :=
  done (.error e)

/-- Plain computation that may raise. -/
def ofExcept (r : Except ε α) : Program σ ε α :=
  done r

/-- Commit the pending writes. -/
def write (w : σ → Except ε σ) : Program σ ε Unit :=
  commit w (done (.ok ()))

@[simp] theorem pure_eq_done (a : α) :
    (pure a : Program σ ε α) = done (.ok a) := rfl

@[simp] theorem done_ok_bind (a : α) (f : α → Program σ ε β) :
    (done (.ok a) >>= f) = f a := rfl

@[simp] theorem done_error_bind (e : ε) (f : α → Program σ ε β) :
    (done (.error e) >>= f) = done (.error e) := rfl

@[simp] theorem raise_bind (e : ε) (f : α → Program σ ε β) :
    (raise e >>= f) = raise e := rfl

@[simp] theorem ofExcept_ok_bind (a : α) (f : α → Program σ ε β) :
    (ofExcept (.ok a) >>= f) = f a := rfl

@[simp] theorem read_bind
    (next : σ → Program σ ε α) (f : α → Program σ ε β) :
    (read next >>= f) = read fun s => next s >>= f := rfl

@[simp] theorem query_bind (g : σ → α) (f : α → Program σ ε β) :
    (query g >>= f) = read fun s => f (g s) := rfl

@[simp] theorem commit_bind
    (w : σ → Except ε σ) (next : Program σ ε α) (f : α → Program σ ε β) :
    (commit w next >>= f) = commit w (next >>= f) := rfl

@[simp] theorem write_bind
    (w : σ → Except ε σ) (f : Unit → Program σ ε β) :
    (write w >>= f) = commit w (f ()) := rfl

theorem bind_bind
    {γ : Type} (p : Program σ ε α) (f : α → Program σ ε β)
    (g : β → Program σ ε γ) :
    ((p >>= f) >>= g) = (p >>= fun a => f a >>= g) := by
  induction p with
  | done r =>
      cases r with
      | ok a => rfl
      | error e => rfl
  | read next ih => exact congrArg read (funext fun s => ih s)
  | commit w next ih => exact congrArg (commit w) ih

/-! ## Execution with no concurrent transaction -/

/-- The answer of a program executed alone and the state it leaves. -/
def run : Program σ ε α → σ → Except ε α × σ
  | done r, s => (r, s)
  | read next, s => (next s).run s
  | commit w next, s =>
      match w s with
      | .ok s' => next.run s'
      | .error e => (.error e, s)

@[simp] theorem run_done (r : Except ε α) (s : σ) :
    (done r).run s = (r, s) := rfl

@[simp] theorem run_raise (e : ε) (s : σ) :
    (raise e : Program σ ε α).run s = (.error e, s) := rfl

@[simp] theorem run_ofExcept (r : Except ε α) (s : σ) :
    (ofExcept r).run s = (r, s) := rfl

@[simp] theorem run_query (f : σ → α) (s : σ) :
    (query f : Program σ ε α).run s = (.ok (f s), s) := rfl

@[simp] theorem run_read (next : σ → Program σ ε α) (s : σ) :
    (read next).run s = (next s).run s := rfl

theorem run_commit_ok
    {w : σ → Except ε σ} {next : Program σ ε α} {s s' : σ}
    (h : w s = .ok s') : (commit w next).run s = next.run s' := by
  simp [run, h]

theorem run_commit_error
    {w : σ → Except ε σ} {next : Program σ ε α} {s : σ} {e : ε}
    (h : w s = .error e) : (commit w next).run s = (.error e, s) := by
  simp [run, h]

/-- The writes are refused, or the program goes on from what they leave. -/
theorem run_commit_cases
    (w : σ → Except ε σ) (next : Program σ ε α) (s : σ) :
    (∃ e, w s = .error e ∧ (commit w next).run s = (.error e, s)) ∨
      ∃ s', w s = .ok s' ∧ (commit w next).run s = next.run s' := by
  cases hw : w s with
  | ok s' => exact Or.inr ⟨s', rfl, run_commit_ok hw⟩
  | error e => exact Or.inl ⟨e, rfl, run_commit_error hw⟩

theorem run_write_congr {w w' : σ → Except ε σ} {s : σ} (h : w s = w' s) :
    (write w).run s = (write w').run s := by
  simp only [write, run, h]

/-- A program followed by another, executed alone. -/
theorem run_bind (p : Program σ ε α) (f : α → Program σ ε β) (s : σ) :
    (p >>= f).run s =
      match p.run s with
      | (.ok a, s') => (f a).run s'
      | (.error e, s') => (.error e, s') := by
  induction p generalizing s with
  | done r => cases r <;> rfl
  | read next ih =>
      simp only [read_bind, run_read]
      exact ih s s
  | commit w next ih =>
      rw [commit_bind]
      cases hw : w s with
      | ok s' =>
          rw [run_commit_ok hw, run_commit_ok hw]
          exact ih s'
      | error e => rw [run_commit_error hw, run_commit_error hw]

theorem run_bind_of_ok
    {p : Program σ ε α} {f : α → Program σ ε β} {s s' : σ} {a : α}
    (h : p.run s = (.ok a, s')) : (p >>= f).run s = (f a).run s' := by
  rw [run_bind, h]

theorem run_bind_of_error
    {p : Program σ ε α} {f : α → Program σ ε β} {s s' : σ} {e : ε}
    (h : p.run s = (.error e, s')) : (p >>= f).run s = (.error e, s') := by
  rw [run_bind, h]

/-- Compositions that agree from every answer of the first part. -/
theorem run_bind_congr
    {p : Program σ ε α} {f g : α → Program σ ε β} {s : σ}
    (h : ∀ a t, p.run s = (.ok a, t) → (f a).run t = (g a).run t) :
    (p >>= f).run s = (p >>= g).run s := by
  rw [run_bind, run_bind]
  rcases hp : p.run s with ⟨e | a, t⟩
  · rfl
  · exact h a t hp

/-- A composition answers when both parts do. -/
theorem run_bind_eq_ok_iff
    {p : Program σ ε α} {f : α → Program σ ε β} {s s' : σ} {b : β} :
    (p >>= f).run s = (.ok b, s') ↔
      ∃ a t, p.run s = (.ok a, t) ∧ (f a).run t = (.ok b, s') := by
  rw [run_bind]
  rcases p.run s with ⟨r | a, t⟩
  · simp
  · constructor
    · exact fun h => ⟨a, t, rfl, h⟩
    · rintro ⟨_, _, heq, h⟩
      simp only [Prod.mk.injEq, Except.ok.injEq] at heq
      obtain ⟨rfl, rfl⟩ := heq
      exact h

theorem run_ofExcept_eq_ok_iff
    {r : Except ε α} {s s' : σ} {a : α} :
    (ofExcept r).run s = (.ok a, s') ↔ r = .ok a ∧ s' = s := by
  rw [run_ofExcept, Prod.mk.injEq, @eq_comm _ s]

theorem run_ofExcept_bind_eq_ok_iff
    {r : Except ε α} {f : α → Program σ ε β} {s s' : σ} {b : β} :
    (ofExcept r >>= f).run s = (.ok b, s') ↔
      ∃ a, r = .ok a ∧ (f a).run s = (.ok b, s') := by
  cases r with
  | ok a => simp [ofExcept]
  | error e => simp [ofExcept]

/-- The program only reads. -/
def ReadOnly : Program σ ε α → Prop
  | done _ => True
  | read next => ∀ s, (next s).ReadOnly
  | commit _ _ => False

theorem ReadOnly.run_state {p : Program σ ε α} (h : p.ReadOnly) (s : σ) :
    (p.run s).2 = s := by
  induction p with
  | done r => rfl
  | read next ih => exact ih s (h s)
  | commit w next ih => exact h.elim

theorem ReadOnly.eq_of_run
    {p : Program σ ε α} (h : p.ReadOnly) {s t : σ} {r : Except ε α}
    (hrun : p.run s = (r, t)) : s = t := by
  rw [← h.run_state s, hrun]

/-- What follows a read-only program starts where that started. -/
theorem ReadOnly.run_bind_congr
    {p : Program σ ε α} (hp : p.ReadOnly) {f g : α → Program σ ε β} {s : σ}
    (h : ∀ a, p.run s = (.ok a, s) → (f a).run s = (g a).run s) :
    (p >>= f).run s = (p >>= g).run s := by
  apply Program.run_bind_congr
  intro a t hrun
  obtain rfl := hp.eq_of_run hrun
  exact h a hrun

theorem ReadOnly.bind
    {p : Program σ ε α} {f : α → Program σ ε β}
    (hp : p.ReadOnly) (hf : ∀ a, (f a).ReadOnly) : (p >>= f).ReadOnly := by
  induction p with
  | done r =>
      cases r with
      | ok a => exact hf a
      | error e => trivial
  | read next ih => exact fun s => ih s (hp s)
  | commit w next ih => exact hp.elim

/-- Compositions that answer alike, executed alone from two states. -/
theorem ReadOnly.answer_bind_congr
    {p q : Program σ ε α} {f g : α → Program σ ε β} {s t : σ}
    (hp : p.ReadOnly) (hq : q.ReadOnly) (h : (p.run s).1 = (q.run t).1)
    (hfg : ∀ a, ((f a).run s).1 = ((g a).run t).1) :
    ((p >>= f).run s).1 = ((q >>= g).run t).1 := by
  have hstate := hp.run_state s
  have hstate' := hq.run_state t
  rw [run_bind, run_bind]
  rcases hps : p.run s with ⟨r, s'⟩
  rcases hqt : q.run t with ⟨r', t'⟩
  rw [hps] at h hstate
  rw [hqt] at h hstate'
  dsimp only at h hstate hstate'
  subst h hstate hstate'
  cases r with
  | error e => rfl
  | ok a => exact hfg a

theorem readOnly_query (f : σ → α) :
    (query f : Program σ ε α).ReadOnly :=
  fun _ => trivial

theorem readOnly_raise (e : ε) : (raise e : Program σ ε α).ReadOnly :=
  trivial

theorem readOnly_ofExcept (r : Except ε α) :
    (ofExcept r : Program σ ε α).ReadOnly :=
  trivial

/-- The program has answered. -/
def Finished : Program σ ε α → Prop
  | done _ => True
  | _ => False

instance (p : Program σ ε α) : Decidable p.Finished :=
  match p with
  | done _ => inferInstanceAs (Decidable True)
  | read _ => inferInstanceAs (Decidable False)
  | commit _ _ => inferInstanceAs (Decidable False)

/-! ## Rolling back -/

/-- An error leaves the state as it was. -/
def RollsBack (p : Program σ ε α) : Prop :=
  ∀ s t e, p.run s = (.error e, t) → t = s

/-- The program answers only after a write, which is its last act. -/
def EndsInWrite : Program σ ε Unit → Prop
  | done r => ∃ e, r = .error e
  | read next => ∀ s, (next s).EndsInWrite
  | commit _ next => next = done (.ok ())

section EndsInWrite

theorem endsInWrite_write (w : σ → Except ε σ) : (write w).EndsInWrite :=
  rfl

/-- Reads before the write. -/
theorem EndsInWrite.after
    {p : Program σ ε α} {f : α → Program σ ε Unit}
    (hp : p.ReadOnly) (hf : ∀ a, (f a).EndsInWrite) :
    (p >>= f).EndsInWrite := by
  induction p with
  | done r =>
      cases r with
      | ok a => exact hf a
      | error e => exact ⟨e, rfl⟩
  | read next ih => exact fun s => ih s (hp s)
  | commit w next ih => exact hp.elim

/-- A program whose last act is its write rolls back. -/
theorem EndsInWrite.rollsBack {p : Program σ ε Unit} (h : p.EndsInWrite) :
    p.RollsBack := by
  intro s t e hrun
  induction p with
  | done r => exact (Prod.mk.inj hrun).2.symm
  | read next ih => exact ih s (h s) hrun
  | commit w next ih =>
      subst h
      rcases run_commit_cases w (done (.ok ())) s with
        ⟨_, -, hrefused⟩ | ⟨_, -, haccepted⟩
      · rw [hrefused] at hrun
        exact (Prod.mk.inj hrun).2.symm
      · rw [haccepted] at hrun
        simp at hrun

end EndsInWrite

/-! ## What a program raises -/

/-- Executed alone, the program raises only errors that satisfy `P`. -/
def RaisesOnly (P : ε → Prop) (p : Program σ ε α) : Prop :=
  ∀ s t e, p.run s = (.error e, t) → P e

/-- Whatever its statements see, the program raises only errors that satisfy
`P`; refused writes are apart. -/
def Raises (P : ε → Prop) : Program σ ε α → Prop
  | done r => ∀ e, r = .error e → P e
  | read next => ∀ s, (next s).Raises P
  | commit _ next => next.Raises P

/-- Every write of the program is refused only with errors that satisfy
`P`. -/
def Refuses (P : ε → Prop) : Program σ ε α → Prop
  | done _ => True
  | read next => ∀ s, (next s).Refuses P
  | commit w next => (∀ s e, w s = .error e → P e) ∧ next.Refuses P

section Raises

variable {P : ε → Prop}

theorem raises_pure (a : α) : Raises P (pure a : Program σ ε α) := by
  intro e h
  simp at h

theorem raises_raise {e : ε} (h : P e) :
    Raises P (raise e : Program σ ε α) := by
  intro e' heq
  obtain rfl := Except.error.inj heq
  exact h

theorem raises_query (f : σ → α) : Raises P (query f : Program σ ε α) := by
  intro s e h
  simp at h

theorem raises_ofExcept {r : Except ε α} (h : ∀ e, r = .error e → P e) :
    Raises P (ofExcept r : Program σ ε α) :=
  h

theorem raises_write (w : σ → Except ε σ) : Raises P (write w) := by
  intro e h
  simp at h

theorem Raises.bind
    {p : Program σ ε α} {f : α → Program σ ε β}
    (hp : p.Raises P) (hf : ∀ a, (f a).Raises P) : (p >>= f).Raises P := by
  induction p with
  | done r =>
      cases r with
      | ok a => exact hf a
      | error e =>
          intro e' heq
          obtain rfl := Except.error.inj heq
          exact hp e rfl
  | read next ih => exact fun s => ih s (hp s)
  | commit w next ih => exact ih hp

theorem Raises.mono
    {P' : ε → Prop} {p : Program σ ε α} (h : p.Raises P)
    (hP : ∀ e, P e → P' e) : p.Raises P' := by
  induction p with
  | done r => exact fun e he => hP e (h e he)
  | read next ih => exact fun s => ih s (h s)
  | commit w next ih => exact ih h

/-- A program that only reads raises nothing else when it is executed alone. -/
theorem Raises.raisesOnly
    {p : Program σ ε α} (h : p.Raises P) (hread : p.ReadOnly) :
    p.RaisesOnly P := by
  intro s t e hrun
  induction p with
  | done r => exact h e (Prod.mk.inj hrun).1
  | read next ih => exact ih s (h s) (hread s) hrun
  | commit w next ih => exact hread.elim

theorem ReadOnly.refuses {p : Program σ ε α} (h : p.ReadOnly) :
    p.Refuses P := by
  induction p with
  | done r => trivial
  | read next ih => exact fun s => ih s (h s)
  | commit w next ih => exact h.elim

theorem refuses_write {w : σ → Except ε σ} (h : ∀ s e, w s = .error e → P e) :
    (write w).Refuses P :=
  ⟨h, trivial⟩

theorem Refuses.bind
    {p : Program σ ε α} {f : α → Program σ ε β}
    (hp : p.Refuses P) (hf : ∀ a, (f a).Refuses P) : (p >>= f).Refuses P := by
  induction p with
  | done r =>
      cases r with
      | ok a => exact hf a
      | error e => trivial
  | read next ih => exact fun s => ih s (hp s)
  | commit w next ih => exact ⟨hp.1, ih hp.2⟩

end Raises

/-! ## Writing last -/

/-- Whatever its statements see, the program answers only results that satisfy
`Q`, and it writes at most once, as its last act: `K` holds of that write and
the answer given after it. -/
def EndsWith (Q : α → Prop) (K : (σ → Except ε σ) → Except ε α → Prop) :
    Program σ ε α → Prop
  | done r => ∀ a, r = .ok a → Q a
  | read next => ∀ s, (next s).EndsWith Q K
  | commit w next => ∃ r, next = done r ∧ (∀ a, r = .ok a → Q a) ∧ K w r

section EndsWith

variable {Q : α → Prop} {K : (σ → Except ε σ) → Except ε α → Prop}

theorem endsWith_error (e : ε) :
    (done (.error e) : Program σ ε α).EndsWith Q K := by
  intro a h
  simp at h

theorem endsWith_ok {a : α} (h : Q a) :
    (done (.ok a) : Program σ ε α).EndsWith Q K := by
  rintro b hb
  obtain rfl := Except.ok.inj hb
  exact h

theorem endsWith_query_bind {f : σ → β} {g : β → Program σ ε α}
    (h : ∀ s, (g (f s)).EndsWith Q K) : (query f >>= g).EndsWith Q K :=
  h

theorem endsWith_ofExcept_bind {r : Except ε β} {f : β → Program σ ε α}
    (h : ∀ b, r = .ok b → (f b).EndsWith Q K) :
    (ofExcept r >>= f).EndsWith Q K := by
  cases r with
  | ok b => exact h b rfl
  | error e => exact endsWith_error e

/-- One write, and then the answer. -/
theorem endsWith_write {w : σ → Except ε σ} {r : Except ε α}
    (hQ : ∀ a, r = .ok a → Q a) (hK : K w r) :
    (commit w (done r)).EndsWith Q K :=
  ⟨r, rfl, hQ, hK⟩

end EndsWith

/-! ## Reading a part of the state -/

/-- No statement of the read-only program tells related states apart. -/
def Respects (R : σ → σ → Prop) : Program σ ε α → Prop
  | done _ => True
  | read next =>
      (∀ s s', R s s' → next s = next s') ∧ ∀ s, (next s).Respects R
  | commit _ _ => False

section Respects

variable {R : σ → σ → Prop}

theorem respects_query {f : σ → α} (h : ∀ s s', R s s' → f s = f s') :
    (query f : Program σ ε α).Respects R :=
  ⟨fun s s' hs => by simp only [h s s' hs], fun _ => trivial⟩

theorem respects_ofExcept (r : Except ε α) :
    (ofExcept r : Program σ ε α).Respects R :=
  trivial

theorem Respects.bind
    {p : Program σ ε α} {f : α → Program σ ε β}
    (hp : p.Respects R) (hf : ∀ a, (f a).Respects R) :
    (p >>= f).Respects R := by
  induction p with
  | done r =>
      cases r with
      | ok a => exact hf a
      | error e => trivial
  | read next ih =>
      refine ⟨?_, fun s => ih s (hp.2 s)⟩
      intro s s' hs
      change (next s).bind f = (next s').bind f
      rw [hp.1 s s' hs]
  | commit w next ih => exact hp.elim

theorem Respects.mono
    {R' : σ → σ → Prop} {p : Program σ ε α} (h : p.Respects R)
    (hR : ∀ s s', R' s s' → R s s') : p.Respects R' := by
  induction p with
  | done r => trivial
  | read next ih =>
      exact ⟨fun s s' hs => h.1 s s' (hR s s' hs), fun s => ih s (h.2 s)⟩
  | commit w next ih => exact h.elim

theorem Respects.readOnly {p : Program σ ε α} (h : p.Respects R) :
    p.ReadOnly := by
  induction p with
  | done r => trivial
  | read next ih => exact fun s => ih s (h.2 s)
  | commit w next ih => exact h.elim

theorem Respects.run_eq
    {p : Program σ ε α} (h : p.Respects R) {s s' : σ} (hs : R s s') :
    (p.run s).1 = (p.run s').1 := by
  induction p with
  | done r => rfl
  | read next ih =>
      rw [run_read, run_read, ← h.1 s s' hs]
      exact ih s (h.2 s)
  | commit w next ih => exact h.elim

end Respects

end Program

end ReadCommitted
