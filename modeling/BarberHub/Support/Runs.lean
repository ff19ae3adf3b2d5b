import Mathlib.Data.List.Infix

/-!
# Runs of a deterministic system

A run applies the events of a list one after another.  `Along` says that every
step of a run satisfies a condition on the state before it and the event.  The
module is parameterized by the types of states and events and by the step
function, and names no application.
-/

namespace Runs

variable {σ ε : Type*} {step : σ → ε → σ}

/-- Every step of the run from `s` satisfies `P` in the state before it. -/
def Along (step : σ → ε → σ) (P : σ → ε → Prop) : σ → List ε → Prop
  | _, [] => True
  | s, e :: events => P s e ∧ Along step P (step s e) events

instance decidableAlong (P : σ → ε → Prop) [∀ s e, Decidable (P s e)] :
    ∀ s events, Decidable (Along step P s events)
  | _, [] => inferInstanceAs (Decidable True)
  | s, e :: events =>
      have := decidableAlong P (step s e) events
      inferInstanceAs (Decidable (P s e ∧ _))

@[simp] theorem along_nil (P : σ → ε → Prop) (s : σ) : Along step P s [] :=
  trivial

@[simp] theorem along_cons_iff
    {P : σ → ε → Prop} {s : σ} {e : ε} {events : List ε} :
    Along step P s (e :: events) ↔ P s e ∧ Along step P (step s e) events :=
  Iff.rfl

theorem along_append_iff
    {P : σ → ε → Prop} {s : σ} {first rest : List ε} :
    Along step P s (first ++ rest) ↔
      Along step P s first ∧ Along step P (first.foldl step s) rest := by
  induction first generalizing s with
  | nil => simp
  | cons e first ih => simp [ih, and_assoc]

theorem Along.of_prefix
    {P : σ → ε → Prop} {s : σ} {first events : List ε}
    (h : Along step P s events) (hfirst : first <+: events) :
    Along step P s first := by
  obtain ⟨rest, rfl⟩ := hfirst
  exact (along_append_iff.mp h).1

/-- A condition that follows from another at every step. -/
theorem Along.imp
    {P Q : σ → ε → Prop} (h : ∀ s e, P s e → Q s e) {s : σ} {events : List ε}
    (hP : Along step P s events) : Along step Q s events := by
  induction events generalizing s with
  | nil => trivial
  | cons e events ih => exact ⟨h s e hP.1, ih hP.2⟩

/-- An invariant that every step meeting the condition keeps holds in every
state of the run. -/
theorem Along.invariant
    {P : σ → ε → Prop} {Inv : σ → Prop}
    (hstep : ∀ s e, Inv s → P s e → Inv (step s e)) {s : σ} {events : List ε}
    (h : Along step P s events) (hs : Inv s) {first : List ε}
    (hfirst : first <+: events) : Inv (first.foldl step s) := by
  have hP := h.of_prefix hfirst
  clear hfirst h
  induction first generalizing s with
  | nil => exact hs
  | cons e first ih =>
      obtain ⟨he, hrest⟩ := hP
      exact ih (hstep s e hs he) hrest

end Runs
