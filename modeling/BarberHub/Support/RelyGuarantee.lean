import BarberHub.Support.Programs

/-!
# Rely and guarantee for transactions

This module contains the rules for reasoning about a program between whose
statements others commit.  `Ensures` is a rely/guarantee assertion: what a
program still guarantees from a state, whatever the rely relation lets others
commit between its statements; `Learns` is its form for programs that may
raise.  It names no application.
-/

namespace ReadCommitted

namespace Program

variable {σ ε α β : Type}

/-! ## Rely and guarantee -/

/-- What others may commit: nothing, or several such commits in a row. -/
structure IsRely (rely : σ → σ → Prop) : Prop where
  refl : ∀ a, rely a a
  trans : ∀ {a b c}, rely a b → rely b c → rely a c

/-- Nobody else commits anything. -/
theorem isRely_eq : IsRely (@Eq σ) :=
  ⟨fun _ => rfl, fun h h' => h.trans h'⟩

/-- Others may be required to keep a fact, too. -/
theorem IsRely.keeping
    {rely : σ → σ → Prop} (h : IsRely rely) (P : σ → Prop) :
    IsRely fun s s' => rely s s' ∧ (P s → P s') where
  refl s := ⟨h.refl s, id⟩
  trans hab hbc := ⟨h.trans hab.1 hbc.1, fun hP => hbc.2 (hab.2 hP)⟩

/-- From `s`, whatever `rely` lets others commit between the statements, every
commit of the program is allowed by `guar` and its answer satisfies `post` in
the state it is given in, and stays so under `rely`. -/
def Ensures (rely guar : σ → σ → Prop) (post : Except ε α → σ → Prop) :
    Program σ ε α → σ → Prop
  | done r, s => ∀ s', rely s s' → post r s'
  | read next, s => ∀ s', rely s s' → Ensures rely guar post (next s') s'
  | commit w next, s => ∀ s', rely s s' →
      match w s' with
      | .ok s'' => guar s' s'' ∧ Ensures rely guar post next s''
      | .error e => ∀ s'', rely s' s'' → post (.error e) s''

section Rules

variable {rely guar : σ → σ → Prop}

/-- What others may commit does not invalidate the assertion. -/
theorem Ensures.stable
    {post : Except ε α → σ → Prop} {p : Program σ ε α} {s s' : σ}
    (hrely : IsRely rely)
    (h : p.Ensures rely guar post s) (hs : rely s s') :
    p.Ensures rely guar post s' := by
  cases p with
  | done r => exact fun t ht => h t (hrely.trans hs ht)
  | read next => exact fun t ht => h t (hrely.trans hs ht)
  | commit w next => exact fun t ht => h t (hrely.trans hs ht)

/-- A weaker postcondition and a weaker guarantee. -/
theorem Ensures.mono
    {guar' : σ → σ → Prop} {post post' : Except ε α → σ → Prop}
    {p : Program σ ε α} {s : σ}
    (h : p.Ensures rely guar post s)
    (hguar : ∀ a b, guar a b → guar' a b)
    (hpost : ∀ r a, post r a → post' r a) :
    p.Ensures rely guar' post' s := by
  induction p generalizing s with
  | done r => exact fun t ht => hpost r t (h t ht)
  | read next ih => exact fun t ht => ih t (h t ht)
  | commit w next ih =>
      intro t ht
      have hw := h t ht
      cases hwt : w t with
      | ok t' =>
          rw [hwt] at hw
          exact ⟨hguar _ _ hw.1, ih hw.2⟩
      | error e =>
          rw [hwt] at hw
          exact fun u hu => hpost _ u (hw u hu)

/-- Sequential composition: the second program starts where the first one
answered. -/
theorem Ensures.bind
    {post : Except ε β → σ → Prop}
    {p : Program σ ε α} {f : α → Program σ ε β} {s : σ}
    (hrely : IsRely rely)
    (h : p.Ensures rely guar
      (fun r t => match r with
        | .ok a => (f a).Ensures rely guar post t
        | .error e => post (.error e) t) s) :
    (p >>= f).Ensures rely guar post s := by
  induction p generalizing s with
  | done r =>
      cases r with
      | ok a => exact h s (hrely.refl s)
      | error e => exact h
  | read next ih => exact fun t ht => ih t (h t ht)
  | commit w next ih =>
      intro t ht
      have hw := h t ht
      cases hwt : w t with
      | ok t' =>
          rw [hwt] at hw
          exact ⟨hw.1, ih hw.2⟩
      | error e =>
          rw [hwt] at hw
          exact hw

/-- A statement sees a state others may have brought about by then. -/
theorem Ensures.query_bind
    {post : Except ε β → σ → Prop} {f : σ → α} {g : α → Program σ ε β} {s : σ}
    (h : ∀ t, rely s t → (g (f t)).Ensures rely guar post t) :
    (query f >>= g).Ensures rely guar post s :=
  h

/-- A program that only reads commits nothing, so any answer is allowed. -/
theorem ReadOnly.ensures
    {p : Program σ ε α} (h : p.ReadOnly) (s : σ) :
    p.Ensures rely guar (fun _ _ => True) s := by
  induction p generalizing s with
  | done r => exact fun _ _ => trivial
  | read next ih => exact fun t _ => ih t (h t) t
  | commit w next ih => exact h.elim

/-- A program that tells no states apart that others may go through answers as
if it were executed alone. -/
theorem Respects.ensures
    {R : σ → σ → Prop} {p : Program σ ε α} {s : σ}
    (hrely : IsRely rely) (h : p.Respects R)
    (hR : ∀ a b, rely a b → R a b) :
    p.Ensures rely guar (fun r t => r = (p.run s).1 ∧ rely s t) s := by
  suffices hgen : ∀ t, rely s t →
      p.Ensures rely guar (fun r u => r = (p.run s).1 ∧ rely s u) t from
    hgen s (hrely.refl s)
  induction p with
  | done r => exact fun t ht u hu => ⟨rfl, hrely.trans ht hu⟩
  | read next ih =>
      intro t ht u hu
      rw [run_read, h.1 s u (hR _ _ (hrely.trans ht hu))]
      have hnext := ih u (h.2 u) u (hrely.trans ht hu)
      exact hnext
  | commit w next ih => exact h.elim

/-- Executed alone, the program commits what the guarantee allows and answers
what the postcondition says. -/
theorem Ensures.run
    {post : Except ε α → σ → Prop} {p : Program σ ε α} {s : σ}
    (hrely : IsRely rely) (h : p.Ensures rely guar post s)
    {Inv : σ → Prop} (hs : Inv s)
    (hinv : ∀ a b, Inv a → guar a b → Inv b) :
    post (p.run s).1 (p.run s).2 ∧ Inv (p.run s).2 := by
  induction p generalizing s with
  | done r => exact ⟨h s (hrely.refl s), hs⟩
  | read next ih => exact ih s (h s (hrely.refl s)) hs
  | commit w next ih =>
      have hw := h s (hrely.refl s)
      cases hws : w s with
      | ok s' =>
          rw [hws] at hw
          rw [run_commit_ok hws]
          exact ih hw.2 (hinv _ _ hs hw.1)
      | error e =>
          rw [hws] at hw
          rw [run_commit_error hws]
          exact ⟨hw s (hrely.refl s), hs⟩

end Rules

/-! ## What a program learns on the way to its commits -/

/-- Every commit of the program is allowed by `guar`, and if it answers a
result, the result satisfies `Q` in the state it is given in. -/
def Learns (rely guar : σ → σ → Prop) (Q : α → σ → Prop)
    (p : Program σ ε α) (s : σ) : Prop :=
  p.Ensures rely guar (fun r t => ∀ a, r = .ok a → Q a t) s

section Learns

variable {rely guar : σ → σ → Prop}

theorem Learns.bind
    {Q : α → σ → Prop} {Q' : β → σ → Prop}
    {p : Program σ ε α} {f : α → Program σ ε β} {s : σ}
    (hrely : IsRely rely)
    (hp : p.Learns rely guar Q s)
    (hf : ∀ a t, Q a t → (f a).Learns rely guar Q' t) :
    (p >>= f).Learns rely guar Q' s := by
  refine Ensures.bind hrely (hp.mono (fun _ _ h => h) ?_)
  intro r t h
  cases r with
  | ok a => exact hf a t (h a rfl)
  | error e => intro b hb; simp at hb

theorem Learns.mono
    {Q Q' : α → σ → Prop} {p : Program σ ε α} {s : σ}
    (hp : p.Learns rely guar Q s) (hQ : ∀ a t, Q a t → Q' a t) :
    p.Learns rely guar Q' s :=
  Ensures.mono hp (fun _ _ h => h) fun _ _ h a ha => hQ _ _ (h a ha)

theorem learns_query
    {Q : α → σ → Prop} {f : σ → α} {s : σ}
    (h : ∀ t u, rely s t → rely t u → Q (f t) u) :
    (query f : Program σ ε α).Learns rely guar Q s := by
  rintro t ht u hu a ha
  obtain rfl := Except.ok.inj ha
  exact h t u ht hu

theorem learns_done
    {Q : α → σ → Prop} {r : Except ε α} {s : σ}
    (h : ∀ a t, r = .ok a → rely s t → Q a t) :
    (done r).Learns rely guar Q s :=
  fun t ht a ha => h a t ha ht

/-- Plain computation learns its result and loses nothing. -/
theorem learns_ofExcept
    {P : α → Prop} {r : Except ε α} {s t : σ} (hrely : IsRely rely)
    (hr : ∀ a, r = .ok a → P a) (hst : rely s t) :
    (ofExcept r).Learns rely guar (fun a u => P a ∧ rely s u) t :=
  learns_done fun a _ ha htu => ⟨hr a ha, hrely.trans hst htu⟩

theorem learns_write
    {Q : Unit → σ → Prop} {w : σ → Except ε σ} {s : σ}
    (h : ∀ t t', rely s t → w t = .ok t' →
      guar t t' ∧ ∀ u, rely t' u → Q () u) :
    (write w).Learns rely guar Q s := by
  intro t ht
  cases hw : w t with
  | ok t' =>
      obtain ⟨hguar, hQ⟩ := h t t' ht hw
      exact ⟨hguar, fun u hu _ _ => hQ u hu⟩
  | error e =>
      intro u _ a ha
      simp at ha

/-- What was learned holds of an answer given alone. -/
theorem Learns.of_run
    {Q : α → σ → Prop} {p : Program σ ε α} {s t : σ} {a : α}
    (hrely : IsRely rely) (hp : p.Learns rely guar Q s)
    (h : p.run s = (.ok a, t)) : Q a t := by
  have htrue : (fun _ => True : σ → Prop) s := trivial
  have hpost := (Ensures.run hrely hp htrue fun _ _ _ _ => trivial).1
  rw [h] at hpost
  exact hpost a rfl

/-- Reading does not lose a fact that others keep. -/
theorem ReadOnly.learns
    {P : σ → Prop} {p : Program σ ε α} {s : σ}
    (h : p.ReadOnly) (hP : ∀ t u, P t → rely t u → P u) (hs : P s) :
    p.Learns rely guar (fun _ t => P t) s := by
  induction p generalizing s with
  | done r => exact fun t ht _ _ => hP s t hs ht
  | read next ih => exact fun t ht => ih t (h t) (hP s t hs ht)
  | commit w next ih => exact h.elim

/-- What a program that only reads has learned comes with what others have
committed since it began. -/
theorem ReadOnly.learns_since
    {Q : α → σ → Prop} {p : Program σ ε α} {s : σ} (hrely : IsRely rely)
    (h : p.ReadOnly) (hp : p.Learns rely guar Q s) :
    p.Learns rely guar (fun a t => Q a t ∧ rely s t) s := by
  suffices hgen : ∀ s', rely s s' → p.Learns rely guar Q s' →
      p.Learns rely guar (fun a t => Q a t ∧ rely s t) s' from
    hgen s (hrely.refl s) hp
  clear hp
  induction p with
  | done r =>
      intro s' hs hp t ht a ha
      exact ⟨hp t ht a ha, hrely.trans hs ht⟩
  | read next ih =>
      intro s' hs hp t ht
      exact ih t (h t) t (hrely.trans hs ht) (hp t ht)
  | commit w next ih => exact h.elim

/-- What follows a program that only reads. -/
theorem ReadOnly.learns_bind
    {Q : β → σ → Prop} {p : Program σ ε α} {f : α → Program σ ε β} {s : σ}
    (hrely : IsRely rely) (hp : p.ReadOnly)
    (hf : ∀ a t, rely s t → (f a).Learns rely guar Q t) :
    (p >>= f).Learns rely guar Q s := by
  have hstable : ∀ t u, rely s t → rely t u → rely s u := fun _ _ => hrely.trans
  exact Learns.bind hrely (hp.learns hstable (hrely.refl s)) hf

/-- A program that tells no states apart that others may go through learns
what it would learn alone. -/
theorem Respects.learns
    {R : σ → σ → Prop} {p : Program σ ε α} {s : σ}
    (hrely : IsRely rely) (h : p.Respects R)
    (hR : ∀ a b, rely a b → R a b) :
    p.Learns rely guar (fun a t => (p.run s).1 = .ok a ∧ rely s t) s :=
  Ensures.mono (h.ensures hrely hR) (fun _ _ h => h)
    fun _ _ h _ ha => ⟨h.1 ▸ ha, h.2⟩

theorem ReadOnly.respects_eq {p : Program σ ε α} (h : p.ReadOnly) :
    p.Respects Eq := by
  induction p with
  | done r => trivial
  | read next ih => exact ⟨fun s s' hs => by rw [hs], fun s => ih s (h s)⟩
  | commit w next ih => exact h.elim

/-- Alone, what follows a program that only reads knows what that program
answers. -/
theorem ReadOnly.learns_bind_alone
    {Q : β → σ → Prop} {p : Program σ ε α} {f : α → Program σ ε β} {s : σ}
    (hp : p.ReadOnly)
    (hf : ∀ a, p.run s = (.ok a, s) → (f a).Learns Eq guar Q s) :
    (p >>= f).Learns Eq guar Q s := by
  apply Learns.bind isRely_eq (hp.respects_eq.learns isRely_eq fun _ _ h => h)
  intro a t h
  obtain ⟨hrun, rfl⟩ := h
  exact hf a (Prod.ext hrun (hp.run_state s))

theorem learns_write_alone
    {w : σ → Except ε σ} {s : σ} (h : ∀ s', w s = .ok s' → guar s s') :
    (write w).Learns Eq guar (fun _ _ => True) s := by
  refine learns_write fun t t' hst hw => ⟨?_, fun _ _ => trivial⟩
  subst hst
  exact h t' hw

end Learns

/-! ## What holds at the commits -/

/-- Whatever `rely` lets others commit between the statements, `K` holds of
every write the program comes to from `s` and the state it is made in. -/
def AtCommits (rely : σ → σ → Prop) (K : (σ → Except ε σ) → σ → Prop) :
    Program σ ε α → σ → Prop
  | done _, _ => True
  | read next, s => ∀ s', rely s s' → AtCommits rely K (next s') s'
  | commit w next, s => ∀ s', rely s s' →
      K w s' ∧ ∀ s'', w s' = .ok s'' → AtCommits rely K next s''

section AtCommits

variable {rely guar : σ → σ → Prop} {K : (σ → Except ε σ) → σ → Prop}

theorem atCommits_done (r : Except ε α) (s : σ) :
    (done r).AtCommits rely K s := trivial

theorem atCommits_write {w : σ → Except ε σ} {s : σ}
    (h : ∀ t, rely s t → K w t) : (write w).AtCommits rely K s :=
  fun t ht => ⟨h t ht, fun _ _ => trivial⟩

/-- What comes after a program that only reads knows what that one learns. -/
theorem AtCommits.after
    {Q : α → σ → Prop} {p : Program σ ε α} {f : α → Program σ ε β} {s : σ}
    (hrely : IsRely rely) (hread : p.ReadOnly)
    (hp : p.Learns rely (fun _ _ => True) Q s)
    (hf : ∀ a t, Q a t → (f a).AtCommits rely K t) :
    (p >>= f).AtCommits rely K s := by
  induction p generalizing s with
  | done r =>
      cases r with
      | ok a => exact hf a s (hp s (hrely.refl s) a rfl)
      | error e => trivial
  | read next ih => exact fun t ht => ih t (hread t) (hp t ht)
  | commit w next ih => exact hread.elim

/-- After its last write a program only reads. -/
theorem AtCommits.before
    {p : Program σ ε α} {f : α → Program σ ε β} {s : σ}
    (hp : p.AtCommits rely K s) (hf : ∀ a t, (f a).AtCommits rely K t) :
    (p >>= f).AtCommits rely K s := by
  induction p generalizing s with
  | done r =>
      cases r with
      | ok a => exact hf a s
      | error e => trivial
  | read next ih => exact fun t ht => ih t (hp t ht)
  | commit w next ih =>
      exact fun t ht => ⟨(hp t ht).1, fun t' ht' => ih ((hp t ht).2 t' ht')⟩

theorem AtCommits.mono
    {K' : (σ → Except ε σ) → σ → Prop} {p : Program σ ε α} {s : σ}
    (h : p.AtCommits rely K s) (hK : ∀ w t, K w t → K' w t) :
    p.AtCommits rely K' s := by
  induction p generalizing s with
  | done r => trivial
  | read next ih => exact fun t ht => ih t (h t ht)
  | commit w next ih =>
      exact fun t ht => ⟨hK w t (h t ht).1, fun t' ht' => ih ((h t ht).2 t' ht')⟩

/-- If the write is accepted, the guarantee allows it. -/
def AllowedBy (guar : σ → σ → Prop) (w : σ → Except ε σ) (s : σ) : Prop :=
  ∀ s', w s = .ok s' → guar s s'

theorem AtCommits.learns
    {p : Program σ ε α} {s : σ} (h : p.AtCommits rely (AllowedBy guar) s) :
    p.Learns rely guar (fun _ _ => True) s := by
  induction p generalizing s with
  | done r => exact learns_done fun _ _ _ _ => trivial
  | read next ih => exact fun t ht => ih t (h t ht)
  | commit w next ih =>
      intro t ht
      obtain ⟨hw, hnext⟩ := h t ht
      cases hwt : w t with
      | ok t' => exact ⟨hw t' hwt, ih (hnext t' hwt)⟩
      | error e =>
          intro _ _ _ heq
          simp at heq

/-- Writes that the guarantee allows or that are refused with a permitted
error, in a program that raises no other. -/
theorem AtCommits.ensures
    {P : ε → Prop} {p : Program σ ε α} {s : σ}
    (h : p.AtCommits rely
      (fun w t => AllowedBy guar w t ∧ ∀ e, w t = .error e → P e) s)
    (hraises : p.Raises P) :
    p.Ensures rely guar (fun r _ => ∀ e, r = .error e → P e) s := by
  induction p generalizing s with
  | done r => exact fun _ _ => hraises
  | read next ih => exact fun t ht => ih t (h t ht) (hraises t)
  | commit w next ih =>
      intro t ht
      obtain ⟨hw, hnext⟩ := h t ht
      cases hwt : w t with
      | ok t' => exact ⟨hw.1 t' hwt, ih (hnext t' hwt) hraises⟩
      | error e =>
          rintro _ _ _ heq
          obtain rfl := Except.error.inj heq
          exact hw.2 e hwt

/-- Executed alone, a program that ends in its write raises, or makes the one
write it comes to. -/
theorem EndsInWrite.run_cases
    {p : Program σ ε Unit} {s : σ} (h : p.EndsInWrite)
    (hcommits : p.AtCommits Eq K s) :
    (∃ e, p.run s = (.error e, s)) ∨
      ∃ w s', K w s ∧ w s = .ok s' ∧ p.run s = (.ok (), s') := by
  induction p with
  | done r =>
      obtain ⟨e, rfl⟩ := h
      exact Or.inl ⟨e, rfl⟩
  | read next ih => exact ih s (h s) (hcommits s rfl)
  | commit w next ih =>
      subst h
      cases hw : w s with
      | ok s' =>
          refine Or.inr ⟨w, s', (hcommits s rfl).1, hw, ?_⟩
          rw [run_commit_ok hw, run_done]
      | error e => exact Or.inl ⟨e, run_commit_error hw⟩

end AtCommits

end Program

end ReadCommitted
