import BarberHub.Support.Pools

/-!
# Transactions that decide on one statement

Many a transaction makes some checks, then reads what it is going to replace,
and commits.  Only what others commit after that deciding statement matters to
it.  This module contains the interference rule for pools of such transactions:
a commit has to be tolerated by the threads that have decided and not answered
yet, not by those that are still checking.  It names no application.
-/

namespace ReadCommitted

namespace Program

variable {σ ε α β : Type}

/-- The program only reads until it is one of `decides`, or raises. -/
inductive Approaches (decides : Program σ ε α → Prop) : Program σ ε α → Prop
  | here {p : Program σ ε α} (h : decides p) : Approaches decides p
  | fails (e : ε) : Approaches decides (done (.error e))
  | read {next : σ → Program σ ε α} (h : ∀ s, Approaches decides (next s)) :
      Approaches decides (read next)

/-- Checks that only read lead to what comes after them. -/
theorem Approaches.after
    {decides : Program σ ε β → Prop} {p : Program σ ε α}
    {f : α → Program σ ε β} {Q : α → Prop} {s : σ} (hread : p.ReadOnly)
    (hp : p.Learns (fun _ _ => True) (fun _ _ => True) (fun a _ => Q a) s)
    (hf : ∀ a, Q a → Approaches decides (f a)) :
    Approaches decides (p >>= f) := by
  induction p generalizing s with
  | done r =>
      cases r with
      | ok a => exact hf a (hp s trivial a rfl)
      | error e => exact .fails e
  | read next ih => exact .read fun t => ih t (hread t) (hp t trivial)
  | commit w next ih => exact hread.elim

end Program

namespace Pool

open Program

variable {ι σ ε α : Type} [DecidableEq ι]

/-- Thread `i` has made its deciding statement and has not answered yet. -/
def Decided (c : Pool ι σ ε α) (decides : ι → Program σ ε α → Prop)
    (started : List ι) (i : ι) : Prop :=
  (∃ first between, started = first ++ i :: between ∧
      decides i ((c.exec first).running i)) ∧
    ¬ ((c.exec started).running i).Finished

/-- At every step of the schedule, what is committed is tolerated by every
other transaction that has decided. -/
def TolerantOfDecided (c : Pool ι σ ε α) (decides : ι → Program σ ε α → Prop)
    (tolerates : ι → σ → σ → Prop) (schedule : List ι) : Prop :=
  ∀ started j, started ++ [j] <+: schedule →
    ∀ i, i ≠ j → c.Decided decides started i →
      tolerates i (c.exec started).committed
        (c.exec (started ++ [j])).committed

/-- A thread that has decided is in flight. -/
theorem Tolerant.tolerantOfDecided
    {c : Pool ι σ ε α} {tolerates : ι → σ → σ → Prop} {schedule : List ι}
    (h : c.Tolerant tolerates schedule)
    (decides : ι → Program σ ε α → Prop) :
    c.TolerantOfDecided decides tolerates schedule := by
  rintro started j hpre i hij ⟨⟨first, between, hsplit, -⟩, hrunning⟩
  rw [exec_concat]
  exact h started j hpre i hij ⟨by rw [hsplit]; simp, hrunning⟩

/-- What is shown of the threads of a pool: each approaches its decision, and
from there on keeps its assertion against its own rely; the invariant is kept
by every guarantee; a commit that a decided thread tolerates is allowed by its
rely; answers already given stay true. -/
structure Deciding (c : Pool ι σ ε α) (Inv : σ → Prop)
    (decides : ι → Program σ ε α → Prop)
    (rely guar tolerates : ι → σ → σ → Prop)
    (post : ι → Except ε α → σ → Prop) : Prop where
  isRely : ∀ i, IsRely (rely i)
  init : Inv c.committed
  approaches : ∀ i, Approaches (decides i) (c.running i)
  decide : ∀ i p, decides i p → ∃ next, p = .read next ∧
    ∀ s, Inv s → (next s).Ensures (rely i) (guar i) (post i) s
  inv : ∀ i s s', Inv s → guar i s s' → Inv s'
  compat : ∀ i j s s', i ≠ j → Inv s → guar j s s' →
    tolerates i s s' → rely i s s'
  answer : ∀ i j s s' r, i ≠ j → Inv s → guar j s s' →
    post i r s → post i r s'

section Deciding

variable {c : Pool ι σ ε α} {Inv : σ → Prop}
  {decides : ι → Program σ ε α → Prop} {rely guar tolerates : ι → σ → σ → Prop}
  {post : ι → Except ε α → σ → Prop} {schedule : List ι}

/-- What is known of thread `i` in the run: it is on the way to its decision,
or it has decided and keeps its assertion. -/
def Known (c : Pool ι σ ε α) (decides : ι → Program σ ε α → Prop)
    (rely guar : ι → σ → σ → Prop) (post : ι → Except ε α → σ → Prop)
    (started : List ι) (i : ι) : Prop :=
  Approaches (decides i) ((c.exec started).running i) ∨
    ((∃ first between, started = first ++ i :: between ∧
        decides i ((c.exec first).running i)) ∧
      Upholds (rely i) (guar i) (post i) ((c.exec started).running i)
        (c.exec started).committed)

theorem Deciding.step_self
    (h : c.Deciding Inv decides rely guar tolerates post)
    {started : List ι} {j : ι} (hI : Inv (c.exec started).committed)
    (hknown : c.Known decides rely guar post started j) :
    c.Known decides rely guar post (started ++ [j]) j ∧
      ((c.exec (started ++ [j])).committed = (c.exec started).committed ∨
        guar j (c.exec started).committed
          (c.exec (started ++ [j])).committed) := by
  rcases hknown with happroaches | ⟨⟨first, between, hsplit, hdecides⟩, hup⟩
  · rw [Known, exec_concat]
    generalize hp : (c.exec started).running j = p at happroaches
    cases happroaches with
    | here hdecides =>
        obtain ⟨next, rfl, hnext⟩ := h.decide j p hdecides
        rw [step_of_read hp, update_running_self, update_committed]
        refine ⟨Or.inr ⟨⟨started, [], rfl, hp ▸ hdecides⟩, ?_⟩, Or.inl rfl⟩
        exact Upholds.of_ensures (h.isRely j) (hnext _ hI)
    | fails e =>
        have hfinished : ((c.exec started).running j).Finished := by
          rw [hp]
          trivial
        rw [step_of_finished hfinished, hp]
        exact ⟨Or.inl (.fails e), Or.inl rfl⟩
    | read hnext =>
        rw [step_of_read hp, update_running_self, update_committed]
        exact ⟨Or.inl (hnext _), Or.inl rfl⟩
  · have hown := step_own (h.isRely j) hup
    rw [← exec_concat] at hown
    refine ⟨Or.inr ⟨⟨first, between ++ [j], ?_, hdecides⟩, hown.1⟩, hown.2⟩
    rw [hsplit]
    simp

theorem Deciding.step_other
    (h : c.Deciding Inv decides rely guar tolerates post)
    {started : List ι} {i j : ι} (hij : i ≠ j)
    (hI : Inv (c.exec started).committed)
    (htol : c.Decided decides started i →
      tolerates i (c.exec started).committed
        (c.exec (started ++ [j])).committed)
    (hcommit : (c.exec (started ++ [j])).committed =
        (c.exec started).committed ∨
      guar j (c.exec started).committed (c.exec (started ++ [j])).committed)
    (hknown : c.Known decides rely guar post started i) :
    c.Known decides rely guar post (started ++ [j]) i := by
  have hrunning : (c.exec (started ++ [j])).running i =
      (c.exec started).running i := by
    rw [exec_concat, step_running_of_ne _ hij]
  rw [Known, hrunning]
  apply hknown.imp_right
  rintro ⟨⟨first, between, hsplit, hdecides⟩, hup⟩
  refine ⟨⟨first, between ++ [j], by rw [hsplit]; simp, hdecides⟩, ?_⟩
  rcases hcommit with heq | hguar
  · rw [heq]
    exact hup
  by_cases hfinished : ((c.exec started).running i).Finished
  · cases hp : (c.exec started).running i with
    | done r =>
        rw [hp] at hup
        exact h.answer i j _ _ r hij hI hguar hup
    | read next => rw [hp] at hfinished; exact hfinished.elim
    | commit w next => rw [hp] at hfinished; exact hfinished.elim
  · have hrely := h.compat i j _ _ hij hI hguar
      (htol ⟨⟨first, between, hsplit, hdecides⟩, hfinished⟩)
    cases hp : (c.exec started).running i with
    | done r => rw [hp] at hfinished; exact absurd trivial hfinished
    | read next =>
        rw [hp] at hup
        exact Ensures.stable (h.isRely i) hup hrely
    | commit w next =>
        rw [hp] at hup
        exact Ensures.stable (h.isRely i) hup hrely

/-- Interference rule: the invariant and every assertion hold along the whole
schedule. -/
theorem Deciding.known
    (h : c.Deciding Inv decides rely guar tolerates post)
    (htol : c.TolerantOfDecided decides tolerates schedule) :
    Inv (c.exec schedule).committed ∧
      ∀ i, c.Known decides rely guar post schedule i := by
  induction schedule using List.reverseRecOn with
  | nil => exact ⟨h.init, fun i => Or.inl (h.approaches i)⟩
  | append_singleton started j ih =>
      obtain ⟨hI, hknown⟩ := ih fun first k hpre =>
        htol first k (hpre.trans (List.prefix_append _ _))
      obtain ⟨hself, hcommit⟩ := h.step_self hI (hknown j)
      constructor
      · rcases hcommit with heq | hguar
        · rw [heq]
          exact hI
        · exact h.inv j _ _ hI hguar
      · intro i
        by_cases hij : i = j
        · subst hij
          exact hself
        · exact h.step_other hij hI
            (htol started j (List.prefix_refl _) i hij) hcommit (hknown i)

/-- A thread that has answered a result satisfies its postcondition. -/
theorem Deciding.answered
    (h : c.Deciding Inv decides rely guar tolerates post)
    (htol : c.TolerantOfDecided decides tolerates schedule) {i : ι} {a : α}
    (hr : (c.exec schedule).running i = .done (.ok a)) :
    post i (.ok a) (c.exec schedule).committed := by
  rcases (h.known htol).2 i with happroaches | ⟨-, hup⟩
  · rw [hr] at happroaches
    cases happroaches with
    | here hdecides =>
        obtain ⟨next, heq, -⟩ := h.decide i _ hdecides
        simp at heq
  · rw [hr] at hup
    exact hup

end Deciding

end Pool

end ReadCommitted
