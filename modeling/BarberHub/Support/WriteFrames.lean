import BarberHub.Support.Pools
import BarberHub.Support.Unlocked

/-!
# Frames of programs

What every write of a program is within, whatever the program has read before:
a condition on the text of the program, which needs no assumption on what others
commit.  In a pool of such programs every two states of a run are related.  It
names no application.
-/

namespace ReadCommitted

namespace Program

variable {σ ε α β : Type}

/-- Every write of the program, if it is accepted, is within the relation. -/
def WritesWithin (R : σ → σ → Prop) : Program σ ε α → Prop
  | done _ => True
  | read next => ∀ s, (next s).WritesWithin R
  | commit w next => (∀ s s', w s = .ok s' → R s s') ∧ next.WritesWithin R

section

variable {R : σ → σ → Prop}

theorem ReadOnly.writesWithin {p : Program σ ε α} (h : p.ReadOnly) :
    p.WritesWithin R := by
  induction p with
  | done r => trivial
  | read next ih => exact fun s => ih s (h s)
  | commit w next ih => exact h.elim

theorem WritesWithin.bind
    {p : Program σ ε α} {f : α → Program σ ε β}
    (hp : p.WritesWithin R) (hf : ∀ a, (f a).WritesWithin R) :
    (p >>= f).WritesWithin R := by
  induction p with
  | done r =>
      cases r with
      | ok a => exact hf a
      | error e => trivial
  | read next ih => exact fun s => ih s (hp s)
  | commit w next ih => exact ⟨hp.1, ih hp.2⟩

/-- What a program has read before its write does not matter. -/
theorem ReadOnly.writesWithin_bind
    {p : Program σ ε α} {f : α → Program σ ε β} (hp : p.ReadOnly)
    (hf : ∀ a, (f a).WritesWithin R) : (p >>= f).WritesWithin R :=
  hp.writesWithin.bind hf

theorem writesWithin_write
    {w : σ → Except ε σ} (h : ∀ s s', w s = .ok s' → R s s') :
    (write w).WritesWithin R :=
  ⟨h, trivial⟩

theorem WritesWithin.mono
    {R' : σ → σ → Prop} {p : Program σ ε α} (h : p.WritesWithin R)
    (hR : ∀ s s', R s s' → R' s s') : p.WritesWithin R' := by
  induction p with
  | done r => trivial
  | read next ih => exact fun s => ih s (h s)
  | commit w next ih =>
      exact ⟨fun s s' hw => hR s s' (h.1 s s' hw), ih h.2⟩

/-- A program that starts with a fact which nobody takes back writes within the
guarantee if the fact makes its frame imply it. -/
theorem WritesWithin.learns
    {rely guar : σ → σ → Prop} {F : σ → Prop} {p : Program σ ε α} {s : σ}
    (h : p.WritesWithin R) (hrely : ∀ t u, F t → rely t u → F u)
    (hkeep : ∀ t u, F t → R t u → F u)
    (hguar : ∀ t u, F t → R t u → guar t u) (hs : F s) :
    p.Learns rely guar (fun _ _ => True) s := by
  induction p generalizing s with
  | done r => exact learns_done fun _ _ _ _ => trivial
  | read next ih => exact fun t ht => ih t (h t) (hrely s t hs ht)
  | commit w next ih =>
      intro t ht
      have hFt := hrely s t hs ht
      cases hw : w t with
      | ok t' =>
          have hR := h.1 t t' hw
          exact ⟨hguar t t' hFt hR, ih h.2 (hkeep t t' hFt hR)⟩
      | error e =>
          intro _ _ _ heq
          simp at heq

end

end Program

namespace Pool

open Program

variable {ι σ ε α : Type} [DecidableEq ι] {R : σ → σ → Prop}
  {c : Pool ι σ ε α}

/-- One step leaves the state as it was or makes a write, and every thread
still writes within the relation. -/
theorem writesWithin_step
    (h : ∀ i, (c.running i).WritesWithin R) (j : ι) :
    ((c.step j).committed = c.committed ∨
        R c.committed (c.step j).committed) ∧
      ∀ i, ((c.step j).running i).WritesWithin R := by
  have hj := h j
  have hothers : ∀ i, i ≠ j → ((c.step j).running i).WritesWithin R := by
    intro i hij
    rw [step_running_of_ne c hij]
    exact h i
  have hall : ((c.step j).running j).WritesWithin R →
      ∀ i, ((c.step j).running i).WritesWithin R := by
    intro hown i
    by_cases hij : i = j
    · rw [hij]
      exact hown
    · exact hothers i hij
  cases hp : c.running j with
  | done r =>
      have hsame : c.step j = c := by
        rw [step, hp]
      rw [hsame]
      exact ⟨Or.inl rfl, h⟩
  | read next =>
      rw [hp] at hj
      refine ⟨Or.inl ?_, hall ?_⟩
      · rw [step_of_read hp, update_committed]
      · rw [step_of_read hp, update_running_self]
        exact hj c.committed
  | commit w next =>
      rw [hp] at hj
      cases hw : w c.committed with
      | ok s =>
          refine ⟨Or.inr ?_, hall ?_⟩
          · rw [step_of_accepted hp hw]
            exact hj.1 _ _ hw
          · rw [step_of_accepted hp hw]
            simpa [update] using hj.2
      | error e =>
          refine ⟨Or.inl ?_, hall ?_⟩
          · rw [step_of_refused hp hw, update_committed]
          · rw [step_of_refused hp hw, update_running_self]
            trivial

/-- Every two states of a run are related, the earlier to the later. -/
theorem related_exec
    (hR : IsRely R) (h : ∀ i, (c.running i).WritesWithin R)
    (schedule : List ι) :
    R c.committed (c.exec schedule).committed ∧
      ∀ i, ((c.exec schedule).running i).WritesWithin R := by
  induction schedule using List.reverseRecOn with
  | nil => exact ⟨hR.refl _, h⟩
  | append_singleton schedule j ih =>
      obtain ⟨hrelated, hthreads⟩ := ih
      obtain ⟨hstep, hthreads'⟩ := writesWithin_step hthreads j
      rw [exec_concat]
      refine ⟨?_, hthreads'⟩
      rcases hstep with heq | hstep
      · rw [heq]
        exact hrelated
      · exact hR.trans hrelated hstep

theorem related_exec_append
    (hR : IsRely R) (h : ∀ i, (c.running i).WritesWithin R)
    (first rest : List ι) :
    R (c.exec first).committed (c.exec (first ++ rest)).committed := by
  rw [exec_append]
  exact (related_exec hR (related_exec hR h first).2 rest).1

end Pool

end ReadCommitted

namespace LockedTransactions

namespace Transaction

open ReadCommitted

variable {σ κ μ ε α : Type} {R : σ → σ → Prop}

/-- A transaction without its locks commits all that it has written before. -/
theorem Writes.writesWithin_unlocked
    (hR : Program.IsRely R) {p : Transaction σ κ μ ε α} (h : p.Writes R)
    {pending : σ → σ} (hpending : ∀ s, R s (pending s)) :
    (p.unlocked pending).WritesWithin R := by
  induction p generalizing pending with
  | done r => trivial
  | read next ih => exact fun t => ih (pending t) (h (pending t)) hpending
  | acquire key taken next ih => exact fun t => ih _ (h _) hpending
  | write change next ih =>
      exact ih h.2 fun t => hR.trans (hpending t) (h.1 (pending t))
  | send message next ih => exact ih h hpending
  | commit next ih =>
      refine ⟨?_, ih h fun t => hR.refl t⟩
      intro s s' hcommit
      obtain rfl := Except.ok.inj hcommit
      exact hpending s

end Transaction

end LockedTransactions
