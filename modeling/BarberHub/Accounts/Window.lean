import BarberHub.Accounts.RateLimit

/-!
# What a limiter answers

The checks of a limiter, one after the other.  Which of them it lets through is
decided by those it has let through before, under the same key and within the
window; and what it tells a client to wait is what the client has to wait.
-/

namespace BarberHub

/-- A call of `check`: the reading of the clock and the key. -/
abbrev Check := ℚ × String

/-- A call with its outcome. -/
abbrev Checked := Check × Except RateLimitedError Unit

/-- The call was let through. -/
def Checked.Accepted (c : Checked) : Prop :=
  c.2 = .ok ()

instance (c : Checked) : Decidable c.Accepted :=
  match c with
  | (_, .ok ()) => isTrue rfl
  | (_, .error _) => isFalse (by simp [Checked.Accepted])

namespace SlidingWindowLimiter

variable {limiter : SlidingWindowLimiter}

/-- A limiter that has just been made, or reset. -/
def noHits : Hits := fun _ => []

/-- What is left in `_hits` after some calls. -/
def hitsAfter (limiter : SlidingWindowLimiter) (hits : Hits)
    (checks : List Check) : Hits :=
  checks.foldl (fun hits e => (limiter.check e.1 e.2 hits).1) hits

/-- The outcomes of some calls. -/
def outcomes (limiter : SlidingWindowLimiter) (hits : Hits) :
    List Check → List Checked
  | [] => []
  | e :: checks =>
      (e, (limiter.check e.1 e.2 hits).2) ::
        limiter.outcomes (limiter.check e.1 e.2 hits).1 checks

/-- The earlier calls that count against a call: let through, under its key,
and not older than the window. -/
def counting (limiter : SlidingWindowLimiter) (e : Check)
    (earlier : List Checked) : List Checked :=
  earlier.filter fun c =>
    c.Accepted ∧ c.1.2 = e.2 ∧ e.1 - limiter.window ≤ c.1.1 ∧ c.1.1 ≤ e.1

/-- The calls that were let through. -/
def accepted (checked : List Checked) : List Check :=
  (checked.filter fun c => c.Accepted).map Prod.fst

/-! ## Runs of calls -/

theorem outcomes_append (hits : Hits) (first rest : List Check) :
    limiter.outcomes hits (first ++ rest) =
      limiter.outcomes hits first ++
        limiter.outcomes (limiter.hitsAfter hits first) rest := by
  induction first generalizing hits with
  | nil => rfl
  | cons e first ih =>
      rw [List.cons_append, outcomes, outcomes, ih]
      rfl

theorem map_fst_outcomes (limiter : SlidingWindowLimiter) (hits : Hits)
    (checks : List Check) :
    (limiter.outcomes hits checks).map Prod.fst = checks := by
  induction checks generalizing hits with
  | nil => rfl
  | cons e checks ih => rw [outcomes, List.map_cons, ih]

/-- The calls and the state before one of the outcomes of a run. -/
theorem outcomes_eq_append {hits : Hits} {checks : List Check}
    {before after : List Checked} {c : Checked}
    (h : limiter.outcomes hits checks = before ++ c :: after) :
    checks = before.map Prod.fst ++ c.1 :: after.map Prod.fst ∧
      before = limiter.outcomes hits (before.map Prod.fst) ∧
      c.2 = (limiter.check c.1.1 c.1.2
        (limiter.hitsAfter hits (before.map Prod.fst))).2 := by
  have hchecks : checks = before.map Prod.fst ++ c.1 :: after.map Prod.fst := by
    have hmap := limiter.map_fst_outcomes hits checks
    rw [h, List.map_append, List.map_cons] at hmap
    exact hmap.symm
  have hsplit := h
  rw [hchecks, outcomes_append, outcomes] at hsplit
  have hlength : (limiter.outcomes hits (before.map Prod.fst)).length =
      before.length := by
    have hmap := limiter.map_fst_outcomes hits
      (before.map Prod.fst)
    simpa using congrArg List.length hmap
  obtain ⟨hbefore, hrest⟩ := List.append_inj hsplit hlength
  refine ⟨hchecks, hbefore.symm, ?_⟩
  exact (congrArg Prod.snd (List.cons.inj hrest).1).symm

/-! ## What is kept -/

/-- The state among sliding-window limiters. -/
def windowState (hits : Hits) (checked : List Checked) :
    SlidingWindow.State String ℚ :=
  ⟨hits, accepted checked⟩

theorem windowState_check (hits : Hits) (checked : List Checked) (e : Check) :
    windowState (limiter.check e.1 e.2 hits).1
        (checked ++ [(e, (limiter.check e.1 e.2 hits).2)]) =
      SlidingWindow.attempt limiter.limit (limiter.window : ℚ)
        (windowState hits checked) e := by
  obtain ⟨hhits, hpass⟩ := check_eq limiter e.1 e.2 hits
  rw [SlidingWindow.attempt]
  generalize hchecked : limiter.check e.1 e.2 hits = result
  rw [hchecked] at hhits hpass
  obtain ⟨hits', outcome⟩ := result
  dsimp only at hhits hpass
  subst hhits
  cases outcome with
  | ok _ =>
      have hfew := hpass.mp rfl
      simp [windowState, accepted, Checked.Accepted, hfew]
  | error refusal =>
      have hmany : ¬ (SlidingWindow.prune (limiter.window : ℚ) e.1
          (hits e.2)).length < limiter.limit := by
        intro h
        cases hpass.mpr h
      simp [windowState, accepted, Checked.Accepted, hmany]

theorem windowState_hitsAfter (limiter : SlidingWindowLimiter) (hits : Hits)
    (checked : List Checked) (checks : List Check) :
    windowState (limiter.hitsAfter hits checks)
        (checked ++ limiter.outcomes hits checks) =
      checks.foldl (SlidingWindow.attempt limiter.limit (limiter.window : ℚ))
        (windowState hits checked) := by
  induction checks generalizing hits checked with
  | nil => rw [outcomes, List.append_nil]; rfl
  | cons e checks ih =>
      rw [List.foldl_cons, ← windowState_check, ← ih, outcomes,
        List.append_assoc]
      rfl

/-- The state after calls at nondecreasing times, up to a moment that none of
them is after. -/
theorem orderly_hitsAfter (limiter : SlidingWindowLimiter)
    {checks : List Check} {now : ℚ}
    (htimes : checks.Pairwise fun e e' => e.1 ≤ e'.1)
    (hnow : ∀ e ∈ checks, e.1 ≤ now) :
    SlidingWindow.Orderly (limiter.window : ℚ) now
      (windowState (limiter.hitsAfter noHits checks)
        (limiter.outcomes noHits checks)) := by
  have hstate := limiter.windowState_hitsAfter noHits [] checks
  rw [List.nil_append] at hstate
  rw [hstate]
  cases checks with
  | nil => exact SlidingWindow.orderly_empty _ now
  | cons e checks =>
      have hfirst := (List.pairwise_cons.mp htimes).1
      apply (SlidingWindow.orderly_empty _ e.1).foldl _ htimes
        (hnow e List.mem_cons_self) hnow
      intro e' he'
      rcases List.mem_cons.mp he' with rfl | he'
      · exact le_rfl
      · exact hfirst e' he'

theorem length_hitsAfter_le (checks : List Check) (key : String) :
    (limiter.hitsAfter noHits checks key).length ≤ limiter.limit := by
  have hstate := limiter.windowState_hitsAfter noHits [] checks
  have hbounded : SlidingWindow.Bounded limiter.limit
      (windowState noHits []) := fun _ => Nat.zero_le limiter.limit
  have hafter : SlidingWindow.Bounded limiter.limit
      (checks.foldl (SlidingWindow.attempt limiter.limit (limiter.window : ℚ))
        (windowState noHits [])) := hbounded.foldl checks
  rw [← hstate] at hafter
  exact hafter key

/-- A call is let through while fewer calls than the limit count against it. -/
theorem check_eq_ok_iff {checks : List Check} {e : Check}
    (htimes : checks.Pairwise fun e e' => e.1 ≤ e'.1)
    (he : ∀ e' ∈ checks, e'.1 ≤ e.1) :
    (limiter.check e.1 e.2 (limiter.hitsAfter noHits checks)).2 = .ok () ↔
      (limiter.counting e (limiter.outcomes noHits checks)).length <
        limiter.limit := by
  have horderly := limiter.orderly_hitsAfter htimes he
  have hcount := horderly.length_prune e.2 le_rfl
  refine (check_eq limiter e.1 e.2 _).2.trans ?_
  rw [windowState] at hcount
  dsimp only at hcount
  rw [hcount, SlidingWindow.recent, accepted, List.filter_map, List.filter_map,
    List.length_map, List.filter_filter, List.filter_filter, counting]
  apply iff_of_eq
  congr 2
  apply List.filter_congr
  intro c hc
  have hpast : c.1.1 ≤ e.1 := by
    apply he
    rw [← limiter.map_fst_outcomes noHits checks]
    exact List.mem_map_of_mem hc
  have hwindow : e.1 - c.1.1 ≤ limiter.window ↔
      e.1 - limiter.window ≤ c.1.1 := sub_le_comm
  simp only [Function.comp_apply, Bool.decide_and, hwindow, hpast]
  simp [Bool.and_comm, Bool.and_assoc]

/-! ## What has no influence -/

/-- A call looks at the times of its key only. -/
theorem check_congr (limiter : SlidingWindowLimiter) (now : ℚ) (key : String)
    {hits hits' : Hits}
    (h : hits key = hits' key) :
    (limiter.check now key hits).2 = (limiter.check now key hits').2 ∧
      (limiter.check now key hits).1 key =
        (limiter.check now key hits').1 key := by
  rw [check, check, ← h]
  cases limiter.forget now (hits key) with
  | nil => simp
  | cons first kept =>
      dsimp only
      split <;> simp

/-- Calls with one key are answered alike from states that keep the same times
for it, whatever is called with other keys. -/
theorem filter_outcomes (key : String) {hits hits' : Hits}
    (h : hits key = hits' key) (checks : List Check) :
    (limiter.outcomes hits checks).filter (fun c => c.1.2 = key) =
      limiter.outcomes hits' (checks.filter fun e => e.2 = key) := by
  induction checks generalizing hits hits' with
  | nil => rfl
  | cons e checks ih =>
      rw [outcomes]
      by_cases hkey : e.2 = key
      · subst hkey
        obtain ⟨houtcome, htimes⟩ := limiter.check_congr e.1 e.2 h
        rw [List.filter_cons_of_pos (by simp),
          List.filter_cons_of_pos (by simp), outcomes, houtcome, ih htimes]
      · rw [List.filter_cons_of_neg (by simpa using hkey),
          List.filter_cons_of_neg (by simpa using hkey)]
        apply ih
        rw [(check_eq limiter e.1 e.2 hits).1,
          Function.update_of_ne (Ne.symm hkey)]
        exact h

/-- Calls that were refused do not count. -/
theorem counting_filter_accepted (e : Check) (checked : List Checked) :
    limiter.counting e (checked.filter fun c => c.Accepted) =
      limiter.counting e checked := by
  rw [counting, counting, List.filter_filter]
  apply List.filter_congr
  intro c _
  by_cases h : c.Accepted
  · simp [h]
  · simp [h]

theorem accepted_sublist (checks : List Check) :
    (accepted (limiter.outcomes noHits checks)).Sublist checks := by
  have hall := limiter.map_fst_outcomes noHits checks
  rw [accepted]
  conv_rhs => rw [← hall]
  exact (List.filter_sublist (l := limiter.outcomes noHits checks)).map Prod.fst

/-- Without the calls that were refused, the others are answered as with
them. -/
theorem outcomes_accepted {checks : List Check}
    (htimes : checks.Pairwise fun e e' => e.1 ≤ e'.1) :
    limiter.outcomes noHits (accepted (limiter.outcomes noHits checks)) =
      (limiter.outcomes noHits checks).filter fun c => c.Accepted := by
  induction checks using List.reverseRecOn with
  | nil => rfl
  | append_singleton checks e ih =>
      obtain ⟨hinit, -, hlast⟩ := List.pairwise_append.mp htimes
      have he : ∀ e' ∈ checks, e'.1 ≤ e.1 := by
        intro e' he'
        exact hlast e' he' e (List.mem_singleton.mpr rfl)
      have hone : limiter.outcomes noHits (checks ++ [e]) =
          limiter.outcomes noHits checks ++
            [(e, (limiter.check e.1 e.2 (limiter.hitsAfter noHits checks)).2)] :=
        outcomes_append noHits checks [e]
      rw [hone, List.filter_append]
      by_cases hok :
          (limiter.check e.1 e.2 (limiter.hitsAfter noHits checks)).2 = .ok ()
      · -- what counts against the call is not changed by leaving out refusals
        have hacc : (accepted (limiter.outcomes noHits checks)).Pairwise
            fun e e' => e.1 ≤ e'.1 := hinit.sublist (accepted_sublist checks)
        have hsame : (limiter.check e.1 e.2 (limiter.hitsAfter noHits
            (accepted (limiter.outcomes noHits checks)))).2 = .ok () := by
          rw [check_eq_ok_iff hacc fun e' he' =>
              he e' ((accepted_sublist checks).subset he'), ih hinit, counting_filter_accepted]
          exact (check_eq_ok_iff hinit he).mp hok
        have hmore : accepted (limiter.outcomes noHits checks ++ [(e, .ok ())]) =
            accepted (limiter.outcomes noHits checks) ++ [e] := by
          simp [accepted, Checked.Accepted]
        rw [hok, hmore, outcomes_append, ih hinit, outcomes, outcomes, hsame]
        simp [Checked.Accepted]
      · have hsame : accepted (limiter.outcomes noHits checks ++
            [(e, (limiter.check e.1 e.2 (limiter.hitsAfter noHits checks)).2)]) =
            accepted (limiter.outcomes noHits checks) := by
          simp [accepted, Checked.Accepted, hok]
        rw [hsame, ih hinit]
        simp [Checked.Accepted, hok]

/-- For every sequence of calls at nondecreasing times: a call is let through
exactly when fewer calls than the limit were let through before it, under its key
and within the window that ends with it.  The calls with a key are answered as if
there were no others, and those let through as if there were no refusals. -/
theorem exact_sliding_window
    (limiter : SlidingWindowLimiter) (checks : List Check)
    (htimes : checks.Pairwise fun e e' => e.1 ≤ e'.1) :
    (∀ before c after,
      limiter.outcomes noHits checks = before ++ c :: after →
        (c.Accepted ↔ (limiter.counting c.1 before).length < limiter.limit)) ∧
      (∀ key, (limiter.outcomes noHits checks).filter (fun c => c.1.2 = key) =
        limiter.outcomes noHits (checks.filter fun e => e.2 = key)) ∧
      (limiter.outcomes noHits checks).filter (fun c => c.Accepted) =
        limiter.outcomes noHits
          (accepted (limiter.outcomes noHits checks)) := by
  refine ⟨?_, fun key => filter_outcomes key rfl checks,
    (outcomes_accepted htimes).symm⟩
  intro before c after h
  obtain ⟨hchecks, hbefore, houtcome⟩ := outcomes_eq_append h
  rw [hchecks] at htimes
  obtain ⟨hinit, -, hlast⟩ := List.pairwise_append.mp htimes
  rw [Checked.Accepted, houtcome, check_eq_ok_iff hinit, ← hbefore]
  intro e he
  exact hlast e he c.1 List.mem_cons_self

/-- A limit of two, and two calls with a key, one that is refused, one with
another key, and one just after the first has left the window. -/
def fiveChecks : List Check :=
  [(0, "a"), (1, "a"), (2, "a"), (2, "b"), (121 / 2, "a")]

theorem exact_sliding_window_five :
    accepted ((⟨2, 60, by decide⟩ : SlidingWindowLimiter).outcomes noHits
        fiveChecks) =
      [(0, "a"), (1, "a"), (2, "b"), (121 / 2, "a")] ∧
    ∀ before c after,
      (⟨2, 60, by decide⟩ : SlidingWindowLimiter).outcomes noHits fiveChecks =
        before ++ c :: after →
      (c.Accepted ↔ ((⟨2, 60, by decide⟩ : SlidingWindowLimiter).counting c.1
        before).length < 2) :=
  ⟨by decide +kernel, (exact_sliding_window ⟨2, 60, by decide⟩ fiveChecks
    (by decide +kernel)).1⟩

/-! ## How long to wait -/

theorem truncated_of_nonneg {x : ℚ} (h : 0 ≤ x) : truncated x = ⌊x⌋ := by
  rw [truncated, Rat.floor_def']
  exact Int.tdiv_eq_ediv_of_nonneg (Rat.num_nonneg.mpr h)

/-- A refusal: the limit is met by the times kept for the key, of which the
oldest is not older than the window, and it says when that one will be. -/
theorem check_eq_error {now : ℚ} {key : String} {hits : Hits}
    {refusal : RateLimitedError}
    (h : (limiter.check now key hits).2 = .error refusal) :
    ∃ first kept,
      SlidingWindow.prune (limiter.window : ℚ) now (hits key) = first :: kept ∧
        limiter.limit ≤ kept.length + 1 ∧
        refusal.retryAfterSeconds =
          truncated (limiter.window - (now - first)) + 1 ∧
        (limiter.check now key hits).1 key = first :: kept := by
  rw [check, forget_eq_prune] at h ⊢
  cases hkept : SlidingWindow.prune (limiter.window : ℚ) now (hits key) with
  | nil =>
      rw [hkept] at h
      cases h
  | cons first kept =>
      rw [hkept] at h
      dsimp only at h ⊢
      by_cases hfull : kept.length + 1 ≥ limiter.limit
      · rw [if_pos hfull] at h ⊢
        refine ⟨first, kept, rfl, hfull, ?_, Function.update_self ..⟩
        rw [← Except.error.inj h]
      · rw [if_neg hfull] at h
        cases h

/-- As long as no call with the key is let through, nothing changes in what
counts against the next one. -/
theorem prune_hitsAfter_append {earlier between : List Check} {key : String}
    {now : ℚ} (htimes : (earlier ++ between).Pairwise fun e e' => e.1 ≤ e'.1)
    (hnow : ∀ e ∈ earlier ++ between, e.1 ≤ now)
    (hnone : ∀ c ∈ limiter.outcomes (limiter.hitsAfter noHits earlier) between,
      c.1.2 = key → ¬ c.Accepted) :
    SlidingWindow.prune (limiter.window : ℚ) now
        (limiter.hitsAfter noHits (earlier ++ between) key) =
      SlidingWindow.prune (limiter.window : ℚ) now
        (limiter.hitsAfter noHits earlier key) := by
  have hall := limiter.orderly_hitsAfter htimes hnow
  have hpart := limiter.orderly_hitsAfter
    (List.pairwise_append.mp htimes).1 fun e he =>
      hnow e (List.mem_append_left between he)
  have hsame : (accepted (limiter.outcomes noHits (earlier ++ between))).filter
      (fun e => e.2 = key) =
        (accepted (limiter.outcomes noHits earlier)).filter
          fun e => e.2 = key := by
    have hempty : (accepted (limiter.outcomes (limiter.hitsAfter noHits earlier)
        between)).filter (fun e => e.2 = key) = [] := by
      rw [List.filter_eq_nil_iff]
      intro e he hkey
      obtain ⟨c, hc, rfl⟩ := List.mem_map.mp he
      obtain ⟨hc, haccepted⟩ := List.mem_filter.mp hc
      exact hnone c hc (of_decide_eq_true hkey) (of_decide_eq_true haccepted)
    rw [outcomes_append, accepted, List.filter_append, List.map_append,
      List.filter_append]
    exact (congrArg _ hempty).trans (List.append_nil _)
  exact hall.kept.prune_congr hpart.kept le_rfl hsame

/-- For every state a limiter reaches and every call it refuses: the seconds it
names are between one and one more than the window; after them a call with the
key is let through, and until a second before that it is refused, unless one was
let through in between. -/
theorem retry_after_kept
    (limiter : SlidingWindowLimiter) (before between : List Check)
    (now later : ℚ) (key : String) (refusal : RateLimitedError)
    (htimes : (before ++ (now, key) :: between ++ [(later, key)]).Pairwise
      fun e e' => e.1 ≤ e'.1)
    (hrefused : (limiter.check now key (limiter.hitsAfter noHits before)).2 =
      .error refusal)
    (hnone : ∀ c ∈ limiter.outcomes
      (limiter.hitsAfter noHits (before ++ [(now, key)])) between,
        c.1.2 = key → ¬ c.Accepted) :
    1 ≤ refusal.retryAfterSeconds ∧
      refusal.retryAfterSeconds ≤ limiter.window + 1 ∧
      (now + refusal.retryAfterSeconds ≤ later →
        (limiter.check later key (limiter.hitsAfter noHits
          (before ++ (now, key) :: between))).2 = .ok ()) ∧
      (later < now + refusal.retryAfterSeconds - 1 →
        (limiter.check later key (limiter.hitsAfter noHits
          (before ++ (now, key) :: between))).2 ≠ .ok ()) := by
  obtain ⟨first, kept, hkept, hfull, hwait, hleft⟩ := check_eq_error hrefused
  obtain ⟨hall, -, hlast⟩ := List.pairwise_append.mp htimes
  obtain ⟨hbefore, -, hpast⟩ := List.pairwise_append.mp hall
  have horderly := limiter.orderly_hitsAfter hbefore fun e he =>
    hpast e he (now, key) List.mem_cons_self
  have hfirst : first ≤ now := by
    apply horderly.kept.past key first
    apply (List.dropWhile_sublist _).subset
    rw [SlidingWindow.prune] at hkept
    exact hkept ▸ List.mem_cons_self
  have hrecent : now - first ≤ limiter.window :=
    SlidingWindow.sub_le_of_prune_eq_cons hkept
  -- what counts at the later call is what is recent of the times kept now
  have hlater : SlidingWindow.prune (limiter.window : ℚ) later
      (limiter.hitsAfter noHits (before ++ (now, key) :: between) key) =
        SlidingWindow.prune (limiter.window : ℚ) later (first :: kept) := by
    rw [List.append_cons]
    rw [prune_hitsAfter_append (by rwa [← List.append_cons]) _ hnone]
    · rw [hitsAfter, List.foldl_append]
      exact congrArg _ hleft
    · rw [← List.append_cons]
      intro e he
      exact hlast e he (later, key) (List.mem_singleton.mpr rfl)
  have hmost : kept.length + 1 ≤ limiter.limit := by
    have hle := SlidingWindow.length_prune_le (limiter.window : ℚ) now
      (limiter.hitsAfter noHits before key)
    rw [hkept, List.length_cons] at hle
    exact hle.trans (length_hitsAfter_le before key)
  have hpass := (check_eq limiter later key (limiter.hitsAfter noHits
    (before ++ (now, key) :: between))).2
  rw [hlater] at hpass
  rw [truncated_of_nonneg (sub_nonneg.mpr hrecent)] at hwait
  have hfloor : (⌊(limiter.window : ℚ) - (now - first)⌋ : ℚ) ≤
      limiter.window - (now - first) := Int.floor_le _
  have hceil : (limiter.window : ℚ) - (now - first) <
      ⌊(limiter.window : ℚ) - (now - first)⌋ + 1 := Int.lt_floor_add_one _
  have hwait' : (refusal.retryAfterSeconds : ℚ) =
      ⌊(limiter.window : ℚ) - (now - first)⌋ + 1 := by
    rw [hwait]
    push_cast
    rfl
  refine ⟨?_, ?_, ?_, ?_⟩
  · have hnonneg : 0 ≤ ⌊(limiter.window : ℚ) - (now - first)⌋ :=
      Int.floor_nonneg.mpr (sub_nonneg.mpr hrecent)
    omega
  · have hwindow : ⌊(limiter.window : ℚ) - (now - first)⌋ ≤ limiter.window := by
      apply Int.floor_le_iff.mpr
      push_cast
      linarith
    omega
  · intro hafter
    have hold : (limiter.window : ℚ) < later - first := by linarith
    refine hpass.mpr ?_
    rw [SlidingWindow.prune_cons_of_lt kept hold]
    have hless := SlidingWindow.length_prune_le (limiter.window : ℚ) later kept
    omega
  · intro hsoon hok
    have hyoung : later - first ≤ (limiter.window : ℚ) := by linarith
    have hfew := hpass.mp hok
    rw [SlidingWindow.prune_cons_of_le kept hyoung, List.length_cons] at hfew
    omega

/-- With a limit of two, a third call two and a half seconds after the first is
told to wait for 58 seconds. -/
theorem retry_after_kept_third :
    (1 : ℤ) ≤ 58 ∧ (58 : ℤ) ≤ (60 : ℕ) + 1 ∧
      ((5 / 2 : ℚ) + (58 : ℤ) ≤ 61 →
        ((⟨2, 60, by decide⟩ : SlidingWindowLimiter).check 61 "a"
          ((⟨2, 60, by decide⟩ : SlidingWindowLimiter).hitsAfter noHits
            ([(0, "a"), (1, "a")] ++ (5 / 2, "a") :: [(3, "b")]))).2 = .ok ()) ∧
      ((61 : ℚ) < 5 / 2 + (58 : ℤ) - 1 →
        ((⟨2, 60, by decide⟩ : SlidingWindowLimiter).check 61 "a"
          ((⟨2, 60, by decide⟩ : SlidingWindowLimiter).hitsAfter noHits
            ([(0, "a"), (1, "a")] ++ (5 / 2, "a") :: [(3, "b")]))).2 ≠ .ok ()) :=
  retry_after_kept ⟨2, 60, by decide⟩ [(0, "a"), (1, "a")] [(3, "b")] (5 / 2) 61
    "a" ⟨"Too many attempts; please wait before trying again", 58⟩
    (by decide +kernel) (by decide +kernel) (by decide +kernel)

end SlidingWindowLimiter

end BarberHub
