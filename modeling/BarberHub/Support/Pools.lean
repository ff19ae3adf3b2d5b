import Mathlib.Data.List.Infix
import Mathlib.Logic.Function.Basic
import BarberHub.Support.RelyGuarantee

/-!
# Pools of transactions under READ COMMITTED

This module contains the interleaving of programs: a pool of threads over one
committed state, which a schedule runs statement by statement.  What each
thread ensures alone, against its own rely, is put together for every schedule
whose commits the threads in flight tolerate.  It names no application.
-/

namespace ReadCommitted

/-- The committed state and what each transaction still has to do. -/
structure Pool (ι σ ε α : Type) where
  committed : σ
  running : ι → Program σ ε α

namespace Pool

open Program

variable {ι σ ε α : Type} [DecidableEq ι]

/-- Replace what thread `i` still has to do. -/
def update (c : Pool ι σ ε α) (i : ι) (p : Program σ ε α) : Pool ι σ ε α where
  committed := c.committed
  running := Function.update c.running i p

/-- Thread `i` executes its next statement. -/
def step (c : Pool ι σ ε α) (i : ι) : Pool ι σ ε α :=
  match c.running i with
  | .done _ => c
  | .read next => c.update i (next c.committed)
  | .commit w next =>
      match w c.committed with
      | .ok s => { c.update i next with committed := s }
      | .error e => c.update i (.done (.error e))

/-- The threads execute their statements in the order of the schedule. -/
def exec (c : Pool ι σ ε α) (schedule : List ι) : Pool ι σ ε α :=
  schedule.foldl step c

@[simp] theorem exec_nil (c : Pool ι σ ε α) : c.exec [] = c := rfl

@[simp] theorem exec_concat (c : Pool ι σ ε α) (schedule : List ι) (i : ι) :
    c.exec (schedule ++ [i]) = (c.exec schedule).step i := by
  simp [exec]

/-- A step of thread `i` leaves what the other threads have to do. -/
theorem step_running_of_ne
    (c : Pool ι σ ε α) {i j : ι} (h : j ≠ i) :
    (c.step i).running j = c.running j := by
  rw [step]
  cases c.running i with
  | done r => rfl
  | read next => exact Function.update_of_ne h _ _
  | commit w next =>
      dsimp only
      cases w c.committed with
      | ok s => exact Function.update_of_ne h _ _
      | error e => exact Function.update_of_ne h _ _

theorem exec_append (c : Pool ι σ ε α) (first rest : List ι) :
    c.exec (first ++ rest) = (c.exec first).exec rest := by
  simp [exec, List.foldl_append]

/-- A thread that does not step has as much to do as before. -/
theorem exec_running_of_not_mem
    (c : Pool ι σ ε α) {schedule : List ι} {i : ι} (h : i ∉ schedule) :
    (c.exec schedule).running i = c.running i := by
  induction schedule generalizing c with
  | nil => rfl
  | cons j schedule ih =>
      rw [List.mem_cons, not_or] at h
      have hrest := ih (c.step j) h.2
      rw [step_running_of_ne c h.1] at hrest
      exact hrest

/-- A thread about to make a statement. -/
theorem step_of_read
    {c : Pool ι σ ε α} {i : ι} {next : σ → Program σ ε α}
    (h : c.running i = .read next) :
    c.step i = c.update i (next c.committed) := by
  rw [step, h]

/-- A thread whose writes are accepted. -/
theorem step_of_accepted
    {c : Pool ι σ ε α} {i : ι} {w : σ → Except ε σ} {next : Program σ ε α}
    {s : σ} (h : c.running i = .commit w next) (hw : w c.committed = .ok s) :
    c.step i = { c.update i next with committed := s } := by
  rw [step, h]
  dsimp only
  rw [hw]

/-- A thread whose writes are refused. -/
theorem step_of_refused
    {c : Pool ι σ ε α} {i : ι} {w : σ → Except ε σ} {next : Program σ ε α}
    {e : ε} (h : c.running i = .commit w next)
    (hw : w c.committed = .error e) :
    c.step i = c.update i (.done (.error e)) := by
  rw [step, h]
  dsimp only
  rw [hw]

@[simp] theorem update_running_self
    (c : Pool ι σ ε α) (i : ι) (p : Program σ ε α) :
    (c.update i p).running i = p := by
  simp [update]

@[simp] theorem update_committed
    (c : Pool ι σ ε α) (i : ι) (p : Program σ ε α) :
    (c.update i p).committed = c.committed := rfl

/-- A thread that has made a statement and has not stepped since. -/
theorem running_after_read
    {c : Pool ι σ ε α} {first between : List ι} {i : ι}
    {next : σ → Program σ ε α} (h : (c.exec first).running i = .read next)
    (hbetween : i ∉ between) :
    (c.exec (first ++ i :: between)).running i =
      next (c.exec first).committed := by
  rw [exec_append]
  change (((c.exec first).step i).exec between).running i = _
  rw [exec_running_of_not_mem _ hbetween, step_of_read h, update_running_self]

/-- What a thread has still to write is refused as its program may be. -/
theorem refuses_exec
    {P : ε → Prop} {c : Pool ι σ ε α} {i : ι}
    (h : (c.running i).Refuses P) (schedule : List ι) :
    ((c.exec schedule).running i).Refuses P := by
  induction schedule generalizing c with
  | nil => exact h
  | cons j schedule ih =>
      refine ih (c := c.step j) ?_
      by_cases hij : i = j
      · subst hij
        cases hp : c.running i with
        | done r =>
            rw [step, hp]
            exact h
        | read next =>
            rw [hp] at h
            rw [step_of_read hp, update_running_self]
            exact h c.committed
        | commit w next =>
            rw [hp] at h
            cases hw : w c.committed with
            | ok s =>
                rw [step_of_accepted hp hw]
                simpa [update] using h.2
            | error e =>
                rw [step_of_refused hp hw, update_running_self]
                trivial
      · rwa [step_running_of_ne c hij]

/-- A thread that writes last still does after a step. -/
theorem endsWith_step
    {Q : α → Prop} {K : (σ → Except ε σ) → Except ε α → Prop}
    {c : Pool ι σ ε α} {i : ι} (h : (c.running i).EndsWith Q K) :
    ((c.step i).running i).EndsWith Q K := by
  cases hp : c.running i with
  | done r =>
      rw [step, hp]
      exact h
  | read next =>
      rw [hp] at h
      rw [step_of_read hp, update_running_self]
      exact h c.committed
  | commit w next =>
      rw [hp] at h
      obtain ⟨r, rfl, hQ, -⟩ := h
      cases hw : w c.committed with
      | ok s =>
          have hanswer : (c.step i).running i = .done r := by
            rw [step_of_accepted hp hw]
            simp [update]
          rw [hanswer]
          exact hQ
      | error e =>
          rw [step_of_refused hp hw, update_running_self]
          exact endsWith_error e

/-- A thread that writes last commits nothing, or the write after which it has
answered. -/
theorem committed_step_of_endsWith
    {Q : α → Prop} {K : (σ → Except ε σ) → Except ε α → Prop}
    {c : Pool ι σ ε α} {i : ι} (h : (c.running i).EndsWith Q K) :
    (c.step i).committed = c.committed ∨
      ∃ w r, K w r ∧ w c.committed = .ok (c.step i).committed ∧
        (c.step i).running i = .done r := by
  cases hp : c.running i with
  | done r =>
      left
      rw [step, hp]
  | read next =>
      left
      rw [step_of_read hp, update_committed]
  | commit w next =>
      rw [hp] at h
      obtain ⟨r, rfl, -, hK⟩ := h
      cases hw : w c.committed with
      | ok s =>
          right
          rw [step_of_accepted hp hw]
          exact ⟨w, r, hK, hw, by simp [update]⟩
      | error e =>
          left
          rw [step_of_refused hp hw, update_committed]

/-! ## Running to the end -/

/-- A thread that has answered does not step again. -/
theorem step_of_finished
    {c : Pool ι σ ε α} {i : ι} (h : (c.running i).Finished) : c.step i = c := by
  rw [step]
  cases hp : c.running i with
  | done r => rfl
  | read next => rw [hp] at h; exact h.elim
  | commit w next => rw [hp] at h; exact h.elim

/-- An answer stands. -/
theorem answered_step
    {c : Pool ι σ ε α} {i : ι} {r : Except ε α}
    (h : c.running i = .done r) (j : ι) : (c.step j).running i = .done r := by
  by_cases hij : i = j
  · subst hij
    rw [step, h]
    exact h
  · rwa [step_running_of_ne c hij]

theorem finished_step
    {c : Pool ι σ ε α} {i : ι} (h : (c.running i).Finished) (j : ι) :
    ((c.step j).running i).Finished := by
  by_cases hij : i = j
  · subst hij
    rwa [step_of_finished h]
  · rwa [step_running_of_ne c hij]

theorem finished_exec
    {c : Pool ι σ ε α} {i : ι} (h : (c.running i).Finished)
    (schedule : List ι) : ((c.exec schedule).running i).Finished := by
  induction schedule generalizing c with
  | nil => exact h
  | cons j schedule ih => exact ih (finished_step h j)

/-- Steps enough of one thread bring it to its answer. -/
theorem exists_exec_finished (c : Pool ι σ ε α) (i : ι) :
    ∃ rest, ((c.exec rest).running i).Finished := by
  generalize hp : c.running i = p
  induction p generalizing c with
  | done r => exact ⟨[], by rw [exec_nil, hp]; trivial⟩
  | read next ih =>
      have hstep : (c.step i).running i = next c.committed := by
        simp [step, hp, update]
      obtain ⟨rest, hrest⟩ := ih c.committed (c.step i) hstep
      exact ⟨i :: rest, hrest⟩
  | commit w next ih =>
      cases hw : w c.committed with
      | ok s =>
          have hstep : (c.step i).running i = next := by
            simp [step, hp, hw, update]
          obtain ⟨rest, hrest⟩ := ih (c.step i) hstep
          exact ⟨i :: rest, hrest⟩
      | error e =>
          refine ⟨[i], ?_⟩
          have hstep : (c.step i).running i = .done (.error e) := by
            simp [step, hp, hw, update]
          change ((c.step i).running i).Finished
          rw [hstep]
          trivial

/-- A schedule can be continued until any given threads have answered. -/
theorem exists_completion (c : Pool ι σ ε α) (schedule threads : List ι) :
    ∃ rest, ∀ i ∈ threads, ((c.exec (schedule ++ rest)).running i).Finished := by
  induction threads with
  | nil => exact ⟨[], by simp⟩
  | cons i threads ih =>
      obtain ⟨rest, hrest⟩ := ih
      obtain ⟨more, hmore⟩ := exists_exec_finished (c.exec (schedule ++ rest)) i
      have heq : c.exec (schedule ++ (rest ++ more)) =
          (c.exec (schedule ++ rest)).exec more := by
        simp [exec, List.foldl_append]
      refine ⟨rest ++ more, ?_⟩
      intro j hj
      rw [heq]
      rcases List.mem_cons.mp hj with rfl | hj
      · exact hmore
      · exact finished_exec (hrest j hj) more

/-! ## Assertions of threads -/

/-- What a thread is committed to: the postcondition once it has answered, the
rely/guarantee assertion before. -/
def Upholds (rely guar : σ → σ → Prop) (post : Except ε α → σ → Prop)
    (p : Program σ ε α) (s : σ) : Prop :=
  match p with
  | .done r => post r s
  | p => p.Ensures rely guar post s

theorem Upholds.of_ensures
    {rely guar : σ → σ → Prop} {post : Except ε α → σ → Prop}
    {p : Program σ ε α} {s : σ} (hrely : IsRely rely)
    (h : p.Ensures rely guar post s) : Upholds rely guar post p s := by
  cases p with
  | done r => exact h s (hrely.refl s)
  | read next => exact h
  | commit w next => exact h

/-- One step of thread `i` keeps its own assertion, and what it commits, if it
commits, is allowed by its guarantee. -/
theorem step_own
    {rely guar : σ → σ → Prop} {post : Except ε α → σ → Prop}
    {c : Pool ι σ ε α} {i : ι} (hrely : IsRely rely)
    (h : Upholds rely guar post (c.running i) c.committed) :
    Upholds rely guar post ((c.step i).running i) (c.step i).committed ∧
      ((c.step i).committed = c.committed ∨
        guar c.committed (c.step i).committed) := by
  rw [step]
  cases hp : c.running i with
  | done r =>
      rw [hp] at h
      simpa [hp] using h
  | read next =>
      rw [hp] at h
      refine ⟨?_, Or.inl rfl⟩
      simpa [update] using
        Upholds.of_ensures hrely (h c.committed (hrely.refl _))
  | commit w next =>
      rw [hp] at h
      have hw := h c.committed (hrely.refl _)
      cases hwc : w c.committed with
      | ok s =>
          rw [hwc] at hw
          refine ⟨?_, Or.inr (by simpa [hwc] using hw.1)⟩
          simpa [update, hwc] using Upholds.of_ensures hrely hw.2
      | error e =>
          rw [hwc] at hw
          refine ⟨?_, Or.inl (by simp [update, hwc])⟩
          simpa [update, hwc, Upholds] using hw c.committed (hrely.refl _)

/-- Thread `i` has started and has not answered yet. -/
def InFlight (c : Pool ι σ ε α) (started : List ι) (i : ι) : Prop :=
  i ∈ started ∧ ¬ (c.running i).Finished

/-- At every step of the schedule, what is committed is tolerated by every
transaction in flight. -/
def Tolerant (c : Pool ι σ ε α) (tolerates : ι → σ → σ → Prop)
    (schedule : List ι) : Prop :=
  ∀ started j, started ++ [j] <+: schedule →
    ∀ i, i ≠ j → (c.exec started).InFlight started i →
      tolerates i (c.exec started).committed
        ((c.exec started).step j).committed

theorem Tolerant.of_prefix
    {c : Pool ι σ ε α} {tolerates : ι → σ → σ → Prop}
    {schedule schedule' : List ι} (h : c.Tolerant tolerates schedule)
    (hp : schedule' <+: schedule) : c.Tolerant tolerates schedule' :=
  fun started j hj => h started j (hj.trans hp)

theorem tolerant_nil (c : Pool ι σ ε α) (tolerates : ι → σ → σ → Prop) :
    c.Tolerant tolerates [] := by
  intro started j hpre
  have := hpre.length_le
  simp at this

theorem tolerant_concat_iff
    {c : Pool ι σ ε α} {tolerates : ι → σ → σ → Prop} {schedule : List ι}
    {j : ι} :
    c.Tolerant tolerates (schedule ++ [j]) ↔
      c.Tolerant tolerates schedule ∧
        ∀ i, i ≠ j → (c.exec schedule).InFlight schedule i →
          tolerates i (c.exec schedule).committed
            ((c.exec schedule).step j).committed := by
  constructor
  · exact fun h => ⟨h.of_prefix (List.prefix_append _ _),
      h schedule j (List.prefix_refl _)⟩
  · rintro ⟨hbefore, hlast⟩ started k hpre
    rcases List.prefix_concat_iff.mp hpre with heq | hpre
    · obtain ⟨rfl, hk⟩ := List.append_inj' heq rfl
      obtain rfl := List.singleton_inj.mp hk
      exact hlast
    · exact hbefore started k hpre

/-- A thread that steps while no other is in flight disturbs none, and no
other is in flight after it. -/
theorem Tolerant.alone
    {c : Pool ι σ ε α} {tolerates : ι → σ → σ → Prop} {schedule : List ι}
    (h : c.Tolerant tolerates schedule) (j : ι)
    (hidle : ∀ i, i ≠ j → ¬ (c.exec schedule).InFlight schedule i) (n : ℕ) :
    c.Tolerant tolerates (schedule ++ List.replicate n j) ∧
      ∀ i, i ≠ j → ¬ (c.exec (schedule ++ List.replicate n j)).InFlight
        (schedule ++ List.replicate n j) i := by
  induction n with
  | zero => simpa using And.intro h hidle
  | succ n ih =>
      obtain ⟨htol, hnone⟩ := ih
      rw [List.replicate_succ', ← List.append_assoc]
      refine ⟨tolerant_concat_iff.mpr ⟨htol, ?_⟩,
        fun i hij hfly => hnone i hij ?_⟩
      · intro i hij hfly
        exact absurd hfly (hnone i hij)
      · obtain ⟨hmem, hrunning⟩ := hfly
        rw [exec_concat, step_running_of_ne _ hij] at hrunning
        exact ⟨by simpa [hij] using hmem, hrunning⟩

/-- Two threads, one after the other. -/
theorem tolerant_serial
    {c : Pool ι σ ε α} {tolerates : ι → σ → σ → Prop} (i j : ι) (n m : ℕ)
    (hanswered : ((c.exec (List.replicate n i)).running i).Finished) :
    c.Tolerant tolerates (List.replicate n i ++ List.replicate m j) := by
  have hfirst := (tolerant_nil c tolerates).alone i
    (fun k _ hfly => by simpa using hfly.1) n
  rw [List.nil_append] at hfirst
  refine (hfirst.1.alone j ?_ m).1
  intro k _ hfly
  obtain rfl := List.eq_of_mem_replicate hfly.1
  exact hfly.2 hanswered

/-- What is shown of the threads of a pool: each is verified alone, from any
state that satisfies the invariant and that it may begin in, against its own
rely; the invariant is kept by every guarantee, and what a thread begins with
by the guarantees of the others; a commit that a thread in flight tolerates is
allowed by its rely; answers already given stay true. -/
structure Verified (c : Pool ι σ ε α) (Inv : σ → Prop) (before : ι → σ → Prop)
    (rely guar tolerates : ι → σ → σ → Prop)
    (post : ι → Except ε α → σ → Prop) : Prop where
  isRely : ∀ i, IsRely (rely i)
  init : Inv c.committed
  begin_init : ∀ i, before i c.committed
  start : ∀ i s, Inv s → before i s →
    (c.running i).Ensures (rely i) (guar i) (post i) s
  inv : ∀ i s s', Inv s → guar i s s' → Inv s'
  begin_keep : ∀ i j s s', i ≠ j → Inv s → guar j s s' → before i s →
    before i s'
  compat : ∀ i j s s', i ≠ j → Inv s → guar j s s' →
    tolerates i s s' → rely i s s'
  answer : ∀ i j s s' r, i ≠ j → Inv s → guar j s s' →
    post i r s → post i r s'

section Verified

variable {c : Pool ι σ ε α} {Inv : σ → Prop} {before : ι → σ → Prop}
  {rely guar tolerates : ι → σ → σ → Prop}
  {post : ι → Except ε α → σ → Prop}

/-- A thread about to step upholds its assertion, whether it has started or
not. -/
theorem Verified.current
    (h : c.Verified Inv before rely guar tolerates post)
    {started : List ι} {j : ι} (hI : Inv (c.exec started).committed)
    (hthread : (j ∈ started → Upholds (rely j) (guar j) (post j)
        ((c.exec started).running j) (c.exec started).committed) ∧
      (j ∉ started → (c.exec started).running j = c.running j ∧
        before j (c.exec started).committed)) :
    Upholds (rely j) (guar j) (post j)
      ((c.exec started).running j) (c.exec started).committed := by
  by_cases hmem : j ∈ started
  · exact hthread.1 hmem
  · rw [(hthread.2 hmem).1]
    exact Upholds.of_ensures (h.isRely j) (h.start j _ hI (hthread.2 hmem).2)

/-- Interference rule: the invariant and every assertion hold along the whole
schedule. -/
theorem Verified.upholds
    (h : c.Verified Inv before rely guar tolerates post)
    {schedule : List ι} (htol : c.Tolerant tolerates schedule) :
    Inv (c.exec schedule).committed ∧
      ∀ i, (i ∈ schedule →
          Upholds (rely i) (guar i) (post i)
            ((c.exec schedule).running i) (c.exec schedule).committed) ∧
        (i ∉ schedule → (c.exec schedule).running i = c.running i ∧
          before i (c.exec schedule).committed) := by
  induction schedule using List.reverseRecOn with
  | nil => exact ⟨h.init, fun i => ⟨by simp, fun _ => ⟨rfl, h.begin_init i⟩⟩⟩
  | append_singleton started j ih =>
      obtain ⟨hI, hthreads⟩ := ih (htol.of_prefix (List.prefix_append _ _))
      rw [exec_concat]
      obtain ⟨hown, hcommit⟩ :=
        step_own (h.isRely j) (h.current hI (hthreads j))
      have hI' : Inv ((c.exec started).step j).committed := by
        rcases hcommit with heq | hguar
        · rw [heq]
          exact hI
        · exact h.inv j _ _ hI hguar
      refine ⟨hI', fun i => ⟨fun hi => ?_, fun hi => ?_⟩⟩
      · by_cases hij : i = j
        · subst hij
          exact hown
        · have hmem : i ∈ started := by simpa [hij] using hi
          have hold := (hthreads i).1 hmem
          rw [step_running_of_ne _ hij]
          rcases hcommit with heq | hguar
          · rw [heq]
            exact hold
          · have hrely : ¬ ((c.exec started).running i).Finished →
                rely i (c.exec started).committed
                  ((c.exec started).step j).committed := fun hfly =>
              h.compat i j _ _ hij hI hguar
                (htol started j (List.prefix_refl _) i hij ⟨hmem, hfly⟩)
            cases hp : (c.exec started).running i with
            | done r =>
                rw [hp] at hold
                exact h.answer i j _ _ r hij hI hguar hold
            | read next =>
                rw [hp] at hold hrely
                exact Ensures.stable (h.isRely i) hold (hrely id)
            | commit w next =>
                rw [hp] at hold hrely
                exact Ensures.stable (h.isRely i) hold (hrely id)
      · rw [List.mem_append, not_or] at hi
        have hij : i ≠ j := by simpa using hi.2
        obtain ⟨hrunning, hbefore⟩ := (hthreads i).2 hi.1
        refine ⟨by rw [step_running_of_ne _ hij, hrunning], ?_⟩
        rcases hcommit with heq | hguar
        · rw [heq]
          exact hbefore
        · exact h.begin_keep i j _ _ hij hI hguar hbefore

theorem Verified.invariant
    (h : c.Verified Inv before rely guar tolerates post)
    {schedule : List ι} (htol : c.Tolerant tolerates schedule) :
    Inv (c.exec schedule).committed :=
  (h.upholds htol).1

/-- A thread that has answered satisfies its postcondition. -/
theorem Verified.answered
    (h : c.Verified Inv before rely guar tolerates post)
    {schedule : List ι} (htol : c.Tolerant tolerates schedule)
    {i : ι} (hi : i ∈ schedule) {r : Except ε α}
    (hr : (c.exec schedule).running i = .done r) :
    post i r (c.exec schedule).committed := by
  have hup := ((h.upholds htol).2 i).1 hi
  rw [hr] at hup
  exact hup

/-- A thread that had not answered before the run satisfies its postcondition
when it has. -/
theorem Verified.answered_of_unfinished
    (h : c.Verified Inv before rely guar tolerates post)
    {schedule : List ι} (htol : c.Tolerant tolerates schedule) {i : ι}
    (hstart : ¬ (c.running i).Finished) {r : Except ε α}
    (hr : (c.exec schedule).running i = .done r) :
    post i r (c.exec schedule).committed := by
  by_cases hi : i ∈ schedule
  · exact h.answered htol hi hr
  · have hrunning := (((h.upholds htol).2 i).2 hi).1
    rw [← hrunning, hr] at hstart
    exact absurd trivial hstart

/-- Every step commits nothing, or what the thread guarantees. -/
theorem Verified.step_commits
    (h : c.Verified Inv before rely guar tolerates post)
    {started : List ι} {j : ι}
    (htol : c.Tolerant tolerates (started ++ [j])) :
    ((c.exec started).step j).committed = (c.exec started).committed ∨
      guar j (c.exec started).committed
        ((c.exec started).step j).committed := by
  obtain ⟨hI, hthreads⟩ :=
    h.upholds (htol.of_prefix (List.prefix_append started [j]))
  exact (step_own (h.isRely j) (h.current hI (hthreads j))).2

/-- A preorder that contains every guarantee relates any two states of the
run, the earlier to the later. -/
theorem Verified.related
    (h : c.Verified Inv before rely guar tolerates post)
    {R : σ → σ → Prop} (hR : IsRely R)
    (hguar : ∀ i a b, Inv a → guar i a b → R a b)
    {first rest : List ι} (htol : c.Tolerant tolerates (first ++ rest)) :
    R (c.exec first).committed (c.exec (first ++ rest)).committed := by
  induction rest using List.reverseRecOn with
  | nil => simpa using hR.refl _
  | append_singleton rest j ih =>
      rw [← List.append_assoc] at htol ⊢
      have hbefore := htol.of_prefix (List.prefix_append (first ++ rest) [j])
      rw [exec_concat]
      refine hR.trans (ih hbefore) ?_
      rcases h.step_commits htol with heq | hstep
      · rw [heq]
        exact hR.refl _
      · exact hguar j _ _ (h.invariant hbefore) hstep

end Verified

end Pool

end ReadCommitted
