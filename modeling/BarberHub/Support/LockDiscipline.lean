import BarberHub.Support.LockedTransactions

/-!
# Lock disciplines

A discipline says what each lock protects: as long as a transaction holds a
key, no other commits a change of what the key protects.  `Guards` is the
assertion that a transaction keeps to the discipline whatever others that keep
to it commit between its statements.  The module names no application.
-/

namespace LockedTransactions

/-- What locks protect, and when a message has been accounted for. -/
structure Discipline (σ κ μ : Type) where
  /-- What holds of every committed state. -/
  Inv : σ → Prop
  /-- What the key protects is the same in both states. -/
  Same : κ → σ → σ → Prop
  /-- The key under which a message may be sent. -/
  keyOf : μ → κ
  /-- The database remembers that the message with that key was sent. -/
  Settled : κ → σ → Prop
  same_refl : ∀ k s, Same k s s
  same_trans : ∀ {k a b c}, Same k a b → Same k b c → Same k a c

namespace Discipline

variable {σ κ μ : Type}

/-- What others may have committed while the keys in `held` were held. -/
def Rely (D : Discipline σ κ μ) (held : Set κ) (s s' : σ) : Prop :=
  D.Inv s' ∧ ∀ k ∈ held, D.Same k s s'

variable {D : Discipline σ κ μ} {held : Set κ}

theorem Rely.refl {s : σ} (h : D.Inv s) : D.Rely held s s :=
  ⟨h, fun k _ => D.same_refl k s⟩

theorem Rely.trans {a b c : σ} (h : D.Rely held a b) (h' : D.Rely held b c) :
    D.Rely held a c :=
  ⟨h'.1, fun k hk => D.same_trans (h.2 k hk) (h'.2 k hk)⟩

theorem Rely.weaken {held' : Set κ} {a b : σ} (h : D.Rely held a b)
    (hsub : held' ⊆ held) : D.Rely held' a b :=
  ⟨h.1, fun k hk => h.2 k (hsub hk)⟩

/-- A commit of a transaction that holds `held` and has sent the messages with
the keys in `sent`. -/
structure Allows (D : Discipline σ κ μ) (held : Set κ) (sent : List κ)
    (s s' : σ) : Prop where
  inv : D.Inv s'
  frame : ∀ k, k ∉ held → D.Same k s s'
  settled : ∀ k, D.Settled k s → D.Settled k s'
  sent_settled : ∀ k ∈ sent, D.Settled k s'

theorem Allows.rfl {s : σ} (h : D.Inv s) : D.Allows held [] s s where
  inv := h
  frame k _ := D.same_refl k s
  settled _ h := h
  sent_settled k hk := by simp at hk

end Discipline

/-- Where a transaction stands: the keys it holds, the keys of the messages it
has sent since its last commit, its pending writes, and the committed state. -/
structure Standing (σ κ : Type) where
  held : Set κ
  sent : List κ
  pending : σ → σ
  committed : σ

namespace Standing

variable {σ κ : Type}

/-- What the transaction sees. -/
def view (v : Standing σ κ) : σ :=
  v.pending v.committed

/-- A transaction that holds no key and has no writes. -/
def idle (s : σ) : Standing σ κ :=
  ⟨∅, [], id, s⟩

@[simp] theorem view_idle (s : σ) : (idle s : Standing σ κ).view = s := rfl

end Standing

open Transaction Discipline

variable {σ κ μ ε α β : Type}

/-- From where the transaction stands, whatever others commit that keep to the
discipline: it sends a message only under a key that it holds, once, and not
after the database remembers it; its commits are allowed; and its answer
satisfies `post`. -/
def Guards (D : Discipline σ κ μ) (post : Except ε α → Standing σ κ → Prop) :
    Transaction σ κ μ ε α → Standing σ κ → Prop
  | .done r, v => ∀ s, D.Rely v.held v.committed s →
      post r { v with committed := s }
  | .read next, v => ∀ s, D.Rely v.held v.committed s →
      Guards D post (next (v.pending s)) { v with committed := s }
  | .acquire key taken next, v => ∀ s, D.Rely v.held v.committed s →
      if taken (v.pending s) then
        Guards D post (next false) { v with committed := s }
      else
        Guards D post (next true)
          { v with held := insert key v.held, committed := s }
  | .write change next, v =>
      Guards D post next { v with pending := change ∘ v.pending }
  | .send message next, v => ∀ s, D.Rely v.held v.committed s →
      D.keyOf message ∈ v.held ∧ D.keyOf message ∉ v.sent ∧
        ¬ D.Settled (D.keyOf message) s ∧
        Guards D post next
          { v with sent := D.keyOf message :: v.sent, committed := s }
  | .commit next, v => ∀ s, D.Rely v.held v.committed s →
      D.Allows v.held v.sent s (v.pending s) ∧
        Guards D post next (.idle (v.pending s))

section Rules

variable {D : Discipline σ κ μ} {post : Except ε α → Standing σ κ → Prop}

/-- What others commit does not invalidate the assertion. -/
theorem Guards.stable
    {p : Transaction σ κ μ ε α} {v : Standing σ κ} {s : σ}
    (h : Guards D post p v) (hs : D.Rely v.held v.committed s) :
    Guards D post p { v with committed := s } := by
  induction p generalizing v with
  | done r => exact fun t ht => h t (hs.trans ht)
  | read next => exact fun t ht => h t (hs.trans ht)
  | acquire key taken next => exact fun t ht => h t (hs.trans ht)
  | write change next ih =>
      exact ih (v := { v with pending := change ∘ v.pending }) h hs
  | send message next => exact fun t ht => h t (hs.trans ht)
  | commit next => exact fun t ht => h t (hs.trans ht)

/-- Sequential composition: the second transaction starts where the first one
answered. -/
theorem Guards.bind
    {post : Except ε β → Standing σ κ → Prop}
    {p : Transaction σ κ μ ε α} {f : α → Transaction σ κ μ ε β}
    {v : Standing σ κ} (hinv : D.Inv v.committed)
    (h : Guards D
      (fun r t => match r with
        | .ok a => Guards D post (f a) t
        | .error e => post (.error e) t) p v) :
    Guards D post (p >>= f) v := by
  induction p generalizing v with
  | done r =>
      cases r with
      | ok a => exact h v.committed (Rely.refl hinv)
      | error e => exact h
  | read next ih => exact fun s hs => ih _ hs.1 (h s hs)
  | acquire key taken next ih =>
      intro s hs
      have hnext := h s hs
      split at hnext
      next htaken =>
        rw [if_pos htaken]
        exact ih _ hs.1 hnext
      next htaken =>
        rw [if_neg htaken]
        exact ih _ hs.1 hnext
  | write change next ih => exact ih hinv h
  | send message next ih =>
      intro s hs
      obtain ⟨hheld, hsent, hsettled, hnext⟩ := h s hs
      exact ⟨hheld, hsent, hsettled, ih hs.1 hnext⟩
  | commit next ih =>
      intro s hs
      obtain ⟨hallows, hnext⟩ := h s hs
      exact ⟨hallows, ih hallows.inv hnext⟩

theorem Guards.mono
    {post' : Except ε α → Standing σ κ → Prop}
    {p : Transaction σ κ μ ε α} {v : Standing σ κ}
    (h : Guards D post p v)
    (hpost : ∀ r t, D.Inv t.committed → post r t → post' r t) :
    Guards D post' p v := by
  induction p generalizing v with
  | done r => exact fun s hs => hpost r _ hs.1 (h s hs)
  | read next ih => exact fun s hs => ih _ (h s hs)
  | acquire key taken next ih =>
      intro s hs
      have hnext := h s hs
      split at hnext
      next htaken =>
        rw [if_pos htaken]
        exact ih _ hnext
      next htaken =>
        rw [if_neg htaken]
        exact ih _ hnext
  | write change next ih => exact ih h
  | send message next ih =>
      intro s hs
      obtain ⟨hheld, hsent, hsettled, hnext⟩ := h s hs
      exact ⟨hheld, hsent, hsettled, ih hnext⟩
  | commit next ih =>
      intro s hs
      obtain ⟨hallows, hnext⟩ := h s hs
      exact ⟨hallows, ih hnext⟩

/-- Reading is always allowed. -/
theorem guards_readOnly
    {p : Transaction σ κ μ ε α} {v : Standing σ κ} (hp : p.ReadOnly)
    (h : ∀ r s, post r { v with committed := s }) : Guards D post p v := by
  induction p generalizing v with
  | done r => exact fun s _ => h r s
  | read next ih => exact fun s _ => ih _ (hp _) h
  | acquire key taken next ih => exact hp.elim
  | write change next ih => exact hp.elim
  | send message next ih => exact hp.elim
  | commit next ih => exact hp.elim

/-- What comes after reading starts from a state others may have brought
about. -/
theorem guards_readOnly_bind
    {p : Transaction σ κ μ ε β} {g : β → Transaction σ κ μ ε α}
    {v : Standing σ κ} (hp : p.ReadOnly)
    (herror : ∀ e s, post (.error e) { v with committed := s })
    (h : ∀ b s, D.Rely v.held v.committed s →
      Guards D post (g b) { v with committed := s })
    (hinv : D.Inv v.committed) : Guards D post (p >>= g) v := by
  induction p generalizing v with
  | done r =>
      cases r with
      | ok b => exact h b _ (.refl hinv)
      | error e => exact fun s _ => herror e s
  | read next ih =>
      intro s hs
      exact ih _ (hp _) herror (fun b t ht => h b t (hs.trans ht)) hs.1
  | acquire key taken next ih => exact hp.elim
  | write change next ih => exact hp.elim
  | send message next ih => exact hp.elim
  | commit next ih => exact hp.elim

/-- Plain computation that may raise. -/
theorem guards_done_bind
    {r : Except ε β} {g : β → Transaction σ κ μ ε α} {v : Standing σ κ}
    (herror : ∀ e s, post (.error e) { v with committed := s })
    (h : ∀ b, r = .ok b → Guards D post (g b) v) :
    Guards D post (done r >>= g) v := by
  cases r with
  | ok b => exact h b rfl
  | error e => exact fun s _ => herror e s

theorem guards_foundOr_bind
    {e : ε} {row : Option β} {g : β → Transaction σ κ μ ε α}
    {v : Standing σ κ}
    (herror : ∀ s, post (.error e) { v with committed := s })
    (h : ∀ b, row = some b → Guards D post (g b) v) :
    Guards D post (foundOr e row >>= g) v := by
  cases row with
  | none => exact fun s _ => herror s
  | some b => exact h b rfl

theorem guards_ensure_bind
    {p : Prop} [Decidable p] {e : ε} {g : Unit → Transaction σ κ μ ε α}
    {v : Standing σ κ}
    (herror : ∀ s, post (.error e) { v with committed := s })
    (h : p → Guards D post (g ()) v) :
    Guards D post (ensure p e >>= g) v := by
  rw [ensure]
  split
  next hp => exact h hp
  · exact fun s _ => herror s

theorem guards_query_bind
    {post : Except ε β → Standing σ κ → Prop} {f : σ → α}
    {g : α → Transaction σ κ μ ε β} {v : Standing σ κ}
    (h : ∀ s, D.Rely v.held v.committed s →
      Guards D post (g (f (v.pending s))) { v with committed := s }) :
    Guards D post (query f >>= g) v :=
  h

theorem guards_lock_bind
    {key : κ} {g : Unit → Transaction σ κ μ ε α} {v : Standing σ κ}
    (h : ∀ s, D.Rely v.held v.committed s →
      Guards D post (g ())
        { v with held := insert key v.held, committed := s }) :
    Guards D post (lock key >>= g) v := by
  intro s hs
  rw [if_neg (by simp)]
  exact h s hs

/-- An insertion is refused, or the key is held from then on. -/
theorem guards_insertRow_bind
    {key : κ} {taken : σ → Bool} {change : σ → σ}
    {g : Bool → Transaction σ κ μ ε α} {v : Standing σ κ}
    (hrefused : ∀ s, D.Rely v.held v.committed s → taken (v.pending s) = true →
      Guards D post (g false) { v with committed := s })
    (haccepted : ∀ s, D.Rely v.held v.committed s →
      taken (v.pending s) = false →
      Guards D post (g true)
        { v with
          held := insert key v.held, pending := change ∘ v.pending,
          committed := s }) :
    Guards D post (insertRow key taken change >>= g) v := by
  rw [insertRow_bind]
  intro s hs
  split
  next htaken => exact hrefused s hs htaken
  next htaken => exact haccepted s hs (Bool.eq_false_iff.mpr htaken)

end Rules

end LockedTransactions
