import Mathlib.Algebra.Order.Group.Int
import Mathlib.Data.List.Chain

/-!
# Events spaced in time

If some of the events of a history, taken in order, follow each other by at
most `width`, then every span of that width has one of them, provided they
begin before the span and go on after its beginning.  The module is
parameterized by the type of events and names no application.
-/

namespace Spacing

variable {α : Type*} {time : α → ℤ} {marked : α → Bool}

/-- The times of the marked events, one after the other. -/
def times (time : α → ℤ) (marked : α → Bool) (events : List α) : List ℤ :=
  (events.filter marked).map time

/-- Each marked event follows the one before it by at most `width`. -/
def Spaced (time : α → ℤ) (marked : α → Bool) (width : ℤ) (events : List α) :
    Prop :=
  (times time marked events).IsChain fun t t' => t' ≤ t + width

instance (width : ℤ) (events : List α) :
    Decidable (Spaced time marked width events) :=
  inferInstanceAs (Decidable (List.IsChain _ _))

theorem times_append (first rest : List α) :
    times time marked (first ++ rest) =
      times time marked first ++ times time marked rest := by
  simp [times]

theorem mem_times {events : List α} {t : ℤ} :
    t ∈ times time marked events ↔
      ∃ e ∈ events, marked e = true ∧ time e = t := by
  simp [times, and_assoc]

/-- The first marked event after `start` is at most `width` after it. -/
theorem exists_first_after
    {width start : ℤ} {events : List α}
    (hordered : events.Pairwise fun e e' => time e ≤ time e')
    (hspaced : Spaced time marked width events)
    (hbefore : ∃ e ∈ events, marked e = true ∧ time e ≤ start)
    (hafter : ∃ e ∈ events, marked e = true ∧ start < time e) :
    ∃ first e rest, events = first ++ e :: rest ∧ marked e = true ∧
      start < time e ∧ time e ≤ start + width ∧
      ∀ e' ∈ first, marked e' = true → time e' ≤ start := by
  obtain ⟨e, hfound⟩ : ∃ e,
      events.find? (fun e => marked e && decide (start < time e)) = some e := by
    obtain ⟨e, he, hmarked, hlate⟩ := hafter
    rw [← Option.isSome_iff_exists, List.find?_isSome]
    exact ⟨e, he, by simp [hmarked, hlate]⟩
  obtain ⟨he, first, rest, rfl, hfirst⟩ :=
    List.find?_eq_some_iff_append.mp hfound
  rw [Bool.and_eq_true, decide_eq_true_eq] at he
  have hearly : ∀ e' ∈ first, marked e' = true → time e' ≤ start := by
    intro e' he' hmarked
    simpa [hmarked] using hfirst e' he'
  refine ⟨first, e, rest, rfl, he.1, he.2, ?_, hearly⟩
  -- The last marked event before `e` is not after `start`.
  have hsome : times time marked first ≠ [] := by
    obtain ⟨e', he', hmarked, hle⟩ := hbefore
    rcases List.mem_append.mp he' with hmem | hmem
    · exact List.ne_nil_of_mem (mem_times.mpr ⟨e', hmem, hmarked, rfl⟩)
    · have hlate : time e ≤ time e' := by
        rcases List.mem_cons.mp hmem with rfl | hmem
        · exact le_refl _
        · have hrest := (List.pairwise_append.mp hordered).2.1
          exact (List.pairwise_cons.mp hrest).1 e' hmem
      omega
  rw [Spaced, times_append, List.isChain_append] at hspaced
  have hlast := List.getLast_mem hsome
  obtain ⟨e', he', hmarked, heq⟩ := mem_times.mp hlast
  have hgap := hspaced.2.2 _ (List.getLast?_eq_some_getLast hsome) (time e)
    (by simp [times, he.1])
  have hle := hearly e' he' hmarked
  omega

end Spacing
