import BarberHub.Accounts.Sessions
import BarberHub.Support.Pools

/-!
# A replay ends every session

When an already revoked token is presented, `refresh` revokes every token of
its user with one UPDATE and commits.  The UPDATE sees the tokens committed
before it started; a request that is under way can add one afterwards.  This
module shows what that leaves of the promise that both holders must log in
again: it holds as long as no request that had begun before the commit adds a
token of the user after the UPDATE, and one such request is enough to keep a
session alive.
-/

namespace BarberHub

open KeyedTable ReadCommitted Program Pool Fallible

variable {ι : Type} [DecidableEq ι]

/-- The operations before any has begun. -/
def sessionPool (env : Env) (ops : ι → SessionOp) (db : Database) :
    Pool ι Database Raised AuthAnswer where
  committed := db
  running i := (ops i).transaction env

/-- What a refresh still does after it has found its token revoked already. -/
def revokeEverything (userId : Uuid) (moment : ℤ) : Request AuthAnswer := do
  revokeAllForUser userId moment
  raise (unauthorized
    "Refresh token has already been used; all sessions were revoked")

/-- Request `i` has presented a revoked token of the user: its UPDATE comes
after the steps in `before`, its commit after those in `between` too. -/
structure Replays (c : Pool ι Database Raised AuthAnswer)
    (before between : List ι) (i : ι) (userId : Uuid) : Prop where
  update : ∃ moment, (c.exec before).running i = revokeEverything userId moment
  waits : i ∉ between

/-- Once every token of a user has been revoked, no refresh begun later is
answered a pair for that user, unless a login begun later has been answered. -/
def SessionsEnd (env : Env) (ops : ι → SessionOp) (db : Database)
    (schedule : List ι) : Prop :=
  ∀ before between i userId rest k rawToken draw pair,
    Replays (sessionPool env ops db) before between i userId →
    before ++ i :: between ++ [i] ++ rest <+: schedule →
    k ∉ before ++ i :: between ++ [i] → ops k = .refresh rawToken draw →
    ((sessionPool env ops db).exec
      (before ++ i :: between ++ [i] ++ rest)).running k =
        .done (.ok (.refreshed pair)) →
    pair.accessToken.sub = userId →
    ∃ l response, l ∉ before ++ i :: between ++ [i] ∧
      ((sessionPool env ops db).exec
        (before ++ i :: between ++ [i] ++ rest)).running l =
          .done (.ok (.loggedIn response)) ∧
      response.user.id = userId

/-- No request that had begun before the revocation committed adds a token of
the user after the UPDATE. -/
def NothingSlipsIn (env : Env) (ops : ι → SessionOp) (db : Database)
    (schedule : List ι) : Prop :=
  ∀ before between i userId started j,
    Replays (sessionPool env ops db) before between i userId →
    before ++ i :: between ++ [i] <+: schedule →
    before ++ [i] <+: started → started ++ [j] <+: schedule →
    j ∈ before ++ i :: between ++ [i] →
    ∀ id ∈ ((sessionPool env ops db).exec
        (started ++ [j])).committed.liveTokens userId,
      id ∈ ((sessionPool env ops db).exec started).committed.liveTokens userId

/-! ## The transactions -/

/-- The write revives no session of the user, unless a login for the user is
answered after it. -/
def WritesQuietly (userId : Uuid) (w : Database → Except Raised Database)
    (r : Except Raised AuthAnswer) : Prop :=
  (∀ s s', w s = .ok s' → s.liveTokens userId = [] →
    s'.liveTokens userId = []) ∨
  ∃ response, r = .ok (.loggedIn response) ∧ response.user.id = userId

/-- The transaction writes quietly, and is no refresh that is answered a pair
for the user. -/
def EndsQuietly (userId : Uuid) (p : Request AuthAnswer) : Prop :=
  p.EndsWith
    (fun answer => ∀ pair, answer = .refreshed pair →
      pair.accessToken.sub ≠ userId)
    (WritesQuietly userId)

section

variable {env : Env} {userId : Uuid} {s s' : Database}

theorem revokeTokens_quiet
    {ids : List Uuid} {moment : ℤ} (h : s.liveTokens userId = []) :
    (revokeTokens ids moment s).liveTokens userId = [] := by
  rw [List.eq_nil_iff_forall_not_mem] at h ⊢
  exact fun id hid => h id (mem_liveTokens_revokeTokens.mp hid).1

/-- A token of somebody else. -/
theorem insertRefreshToken_quiet
    {row : RefreshToken} (h : insertRefreshToken row s = .ok s')
    (hother : row.userId ≠ userId) (hquiet : s.liveTokens userId = []) :
    s'.liveTokens userId = [] := by
  obtain ⟨-, rfl⟩ := insertRefreshToken_eq_ok h
  rw [Database.liveTokens, List.map_eq_nil_iff] at hquiet ⊢
  rw [List.filter_append, hquiet, List.nil_append, List.filter_singleton]
  simp [hother]

/-- A login adds a token for the user it is answered for. -/
theorem endsQuietly_login
    (env : Env) (userId : Uuid) (email password salt : String)
    (draw : TokenDraw) :
    EndsQuietly userId
      ((SessionOp.login email password salt draw).transaction env) := by
  rw [SessionOp.transaction, login]
  simp only [bind_bind]
  refine endsWith_query_bind fun s => endsWith_rowOr_bind fun user _ =>
    endsWith_require_bind fun _ => endsWith_ofExcept_bind fun issued h => ?_
  obtain ⟨row, pair⟩ := issued
  obtain ⟨rfl, -, -⟩ := issueTokenPair_eq_ok h
  refine endsWith_write ?_ ?_
  · intro answer hanswer pair heq
    obtain rfl := Except.ok.inj hanswer
    simp at heq
  · by_cases huser : user.id = userId
    · exact Or.inr ⟨_, rfl, huser⟩
    · apply Or.inl
      intro s s' hw hquiet
      obtain ⟨t, hrehash, hinsert⟩ := bind_eq_ok_iff.mp hw
      refine insertRefreshToken_quiet hinsert huser ?_
      rw [Database.liveTokens, refreshTokens_flushRehash hrehash]
      exact hquiet

theorem endsQuietly_logout
    (env : Env) (userId : Uuid) (rawToken : String) (moment : ℤ) :
    EndsQuietly userId
      ((SessionOp.logout rawToken moment).transaction env) := by
  rw [SessionOp.transaction, logout, loadRefreshToken]
  simp only [bind_bind]
  refine endsWith_query_bind fun s => endsWith_rowOr_bind fun t _ => ?_
  split
  · exact endsWith_ok fun pair h => by simp at h
  · refine endsWith_write ?_ (Or.inl ?_)
    · intro answer hanswer pair heq
      obtain rfl := Except.ok.inj hanswer
      simp at heq
    · intro s s' hw hquiet
      rw [revokeToken] at hw
      split at hw
      · obtain rfl := Except.ok.inj hw
        exact revokeTokens_quiet hquiet
      · simp at hw

/-- A refresh that looks up its token when no token of the user is alive. -/
theorem endsQuietly_refresh
    (env : Env) (rawToken : String) (draw : TokenDraw)
    (hquiet : s.liveTokens userId = []) :
    ∃ next, (SessionOp.refresh rawToken draw).transaction env = .read next ∧
      EndsQuietly userId (next s) := by
  rw [SessionOp.transaction, refresh, loadRefreshToken]
  simp only [bind_bind]
  rw [query_bind]
  refine ⟨_, rfl, endsWith_rowOr_bind ?_⟩
  intro stored hstored
  split
  · rw [revokeAllForUser]
    simp only [bind_bind]
    refine endsWith_query_bind fun live => endsWith_write
      (fun answer h => by simp at h) (Or.inl fun t t' hw ht => ?_)
    obtain rfl := Except.ok.inj hw
    exact revokeTokens_quiet ht
  next hlive =>
    have hother : stored.userId ≠ userId := by
      intro huser
      have hnone : stored.revokedAt = none := by simpa using hlive
      have hmem : stored.id ∈ s.liveTokens userId :=
        mem_liveTokens.mpr ⟨stored, mem_of_lookup hstored, huser, hnone, rfl⟩
      rw [hquiet] at hmem
      simp at hmem
    simp only [bind_bind]
    refine endsWith_require_bind fun _ => endsWith_query_bind fun t =>
      endsWith_rowOr_bind fun user huser => endsWith_ofExcept_bind
        fun issued h => ?_
    obtain ⟨row, pair⟩ := issued
    obtain ⟨rfl, -, hsub⟩ := issueTokenPair_eq_ok h
    have hid : user.id = stored.userId :=
      key_of_lookup (Option.filter_eq_some_iff.mp huser).1
    refine endsWith_write ?_ (Or.inl ?_)
    · intro answer hanswer pair' heq
      obtain rfl := Except.ok.inj hanswer
      obtain rfl := AuthAnswer.refreshed.inj heq
      rw [hsub, hid]
      exact hother
    · intro u u' hw hu
      rw [rotateToken] at hw
      split at hw
      · exact insertRefreshToken_quiet hw (by rw [hid]; exact hother)
          (revokeTokens_quiet hu)
      · simp at hw

end

/-! ## From the UPDATE to the commit -/

section

variable {env : Env} {ops : ι → SessionOp} {db : Database}
  {schedule before between : List ι} {i : ι} {userId : Uuid}

/-- At the commit only tokens are alive that the UPDATE has seen. -/
theorem live_until_commit
    (hstand : NothingSlipsIn env ops db schedule)
    (hreplays : Replays (sessionPool env ops db) before between i userId)
    (hpre : before ++ i :: between ++ [i] <+: schedule) {id : Uuid}
    (hid : id ∈ ((sessionPool env ops db).exec
      (before ++ i :: between)).committed.liveTokens userId) :
    id ∈ ((sessionPool env ops db).exec before).committed.liveTokens userId := by
  suffices h : ∀ early, early <+: between →
      id ∈ ((sessionPool env ops db).exec
        (before ++ i :: early)).committed.liveTokens userId →
      id ∈ ((sessionPool env ops db).exec
        before).committed.liveTokens userId from
    h between (List.prefix_refl _) hid
  intro early
  induction early using List.reverseRecOn with
  | nil =>
      intro _ hid
      obtain ⟨moment, hupdate⟩ := hreplays.update
      have hread : ((sessionPool env ops db).exec (before ++ [i])).committed =
          ((sessionPool env ops db).exec before).committed := by
        rw [exec_concat, step_of_read hupdate, update_committed]
      rwa [hread] at hid
  | append_singleton early j ih =>
      intro hearly hid
      have hsplit : before ++ i :: (early ++ [j]) =
          before ++ i :: early ++ [j] := by simp
      rw [hsplit] at hid
      have hstep : before ++ i :: early ++ [j] <+: before ++ i :: between := by
        rw [← hsplit, List.prefix_append_right_inj, List.cons_prefix_cons]
        exact ⟨rfl, hearly⟩
      refine ih ((List.prefix_append _ _).trans hearly) (hstand before between i
        userId (before ++ i :: early) j hreplays hpre ?_ ?_ ?_ id hid)
      · rw [List.prefix_append_right_inj]
        exact List.prefix_append [i] early
      · exact (hstep.trans (List.prefix_append _ _)).trans hpre
      · exact List.mem_append_left _ (hstep.subset (by simp))

/-- After the commit no token of the user is alive. -/
theorem quiet_at_commit
    (hstand : NothingSlipsIn env ops db schedule)
    (hreplays : Replays (sessionPool env ops db) before between i userId)
    (hpre : before ++ i :: between ++ [i] <+: schedule) :
    ((sessionPool env ops db).exec
      (before ++ i :: between ++ [i])).committed.liveTokens userId = [] := by
  obtain ⟨moment, hupdate⟩ := hreplays.update
  have hcommit := running_after_read hupdate hreplays.waits
  rw [exec_concat, step_of_accepted hcommit rfl]
  apply List.eq_nil_iff_forall_not_mem.mpr
  intro id hid
  obtain ⟨hlive, hleft⟩ := mem_liveTokens_revokeTokens.mp hid
  exact hleft (live_until_commit hstand hreplays hpre hlive)

/-! ## After the commit -/

/-- A login begun after the steps in `past` has been answered for the user. -/
def LoggedInSince (c : Pool ι Database Raised AuthAnswer) (past rest : List ι)
    (userId : Uuid) : Prop :=
  ∃ l response, l ∉ past ∧
    (c.exec (past ++ rest)).running l = .done (.ok (.loggedIn response)) ∧
    response.user.id = userId

/-- An operation begun when no token of the user is alive ends quietly. -/
theorem endsQuietly_begin
    (env : Env) (op : SessionOp) {c : Pool ι Database Raised AuthAnswer} {j : ι}
    (hbegin : c.running j = op.transaction env)
    (hquiet : c.committed.liveTokens userId = []) :
    EndsQuietly userId ((c.step j).running j) ∧
      ((c.step j).committed = c.committed ∨ EndsQuietly userId (c.running j)) := by
  cases op with
  | login email password salt draw =>
      have h := endsQuietly_login env userId email password salt draw
      rw [← hbegin] at h
      exact ⟨endsWith_step h, Or.inr h⟩
  | refresh rawToken draw =>
      obtain ⟨next, hread, hnext⟩ :=
        endsQuietly_refresh env rawToken draw hquiet
      rw [hread] at hbegin
      rw [step_of_read hbegin, update_running_self, update_committed]
      exact ⟨hnext, Or.inl rfl⟩
  | logout rawToken moment =>
      have h := endsQuietly_logout env userId rawToken moment
      rw [← hbegin] at h
      exact ⟨endsWith_step h, Or.inr h⟩

/-- After the commit no token of the user is alive and the operations begun
since end quietly, until one of them is a login for the user. -/
theorem quiet_since_commit
    (hstand : NothingSlipsIn env ops db schedule)
    (hreplays : Replays (sessionPool env ops db) before between i userId)
    {past rest : List ι} (hpast : past = before ++ i :: between ++ [i])
    (hpre : past ++ rest <+: schedule) :
    LoggedInSince (sessionPool env ops db) past rest userId ∨
      (((sessionPool env ops db).exec (past ++ rest)).committed.liveTokens
          userId = [] ∧
        ∀ k ∈ rest, k ∉ past → EndsQuietly userId
          (((sessionPool env ops db).exec (past ++ rest)).running k)) := by
  induction rest using List.reverseRecOn with
  | nil =>
      subst hpast
      rw [List.append_nil] at hpre ⊢
      exact Or.inr ⟨quiet_at_commit hstand hreplays hpre, by simp⟩
  | append_singleton rest j ih =>
      rw [← List.append_assoc] at hpre ⊢
      rw [LoggedInSince, ← List.append_assoc, exec_concat]
      rcases ih ((List.prefix_append _ _).trans hpre) with hlogin | ⟨hquiet, hrest⟩
      · obtain ⟨l, response, hl, hanswer, huser⟩ := hlogin
        exact Or.inl ⟨l, response, hl, answered_step hanswer j, huser⟩
      generalize hc : (sessionPool env ops db).exec (past ++ rest) = c at *
      have hothers : ∀ k ∈ rest ++ [j], k ≠ j → k ∉ past →
          EndsQuietly userId ((c.step j).running k) := by
        intro k hk hkj hkpast
        rw [step_running_of_ne c hkj]
        exact hrest k (by simpa [hkj] using hk) hkpast
      by_cases hj : j ∈ past
      · -- it had begun before the commit
        refine Or.inr ⟨?_, fun k hk hkpast =>
          hothers k hk (by rintro rfl; exact hkpast hj) hkpast⟩
        apply List.eq_nil_iff_forall_not_mem.mpr
        intro id hid
        have hcommitted : past <+: schedule := by
          rw [List.append_assoc] at hpre
          exact (List.prefix_append _ _).trans hpre
        have hupdated : before ++ [i] <+: past ++ rest := by
          rw [hpast]
          simp
        have hslip := hstand before between i userId (past ++ rest) j hreplays
          (hpast ▸ hcommitted) hupdated hpre (hpast ▸ hj) id
        rw [exec_concat, hc, hquiet] at hslip
        simpa using hslip hid
      · -- it has begun since
        have hown : EndsQuietly userId ((c.step j).running j) ∧
            ((c.step j).committed = c.committed ∨
              EndsQuietly userId (c.running j)) := by
          by_cases hbegun : j ∈ rest
          · have h := hrest j hbegun hj
            exact ⟨endsWith_step h, Or.inr h⟩
          · refine endsQuietly_begin env (ops j) ?_ hquiet
            rw [← hc]
            exact exec_running_of_not_mem _ (by simp [hj, hbegun])
        have hall : ∀ k ∈ rest ++ [j], k ∉ past →
            EndsQuietly userId ((c.step j).running k) := by
          intro k hk hkpast
          by_cases hkj : k = j
          · rw [hkj]
            exact hown.1
          · exact hothers k hk hkj hkpast
        have hcommit : (c.step j).committed = c.committed ∨
            ∃ w r, WritesQuietly userId w r ∧
              w c.committed = .ok (c.step j).committed ∧
                (c.step j).running j = .done r := by
          rcases hown.2 with heq | h
          · exact Or.inl heq
          · exact committed_step_of_endsWith h
        rcases hcommit with heq | ⟨w, r, hK, hw, hanswer⟩
        · exact Or.inr ⟨by rw [heq]; exact hquiet, hall⟩
        · rcases hK with hkeeps | ⟨response, rfl, huser⟩
          · exact Or.inr ⟨hkeeps _ _ hw hquiet, hall⟩
          · exact Or.inl ⟨j, response, hj, hanswer, huser⟩

end

/-- A replay ends every session of its user, in every run in which no request
begun before the revocation committed adds a token of the user after the
UPDATE. -/
theorem sessions_end
    (env : Env) (ops : ι → SessionOp) (db : Database) (schedule : List ι)
    (hstand : NothingSlipsIn env ops db schedule) :
    SessionsEnd env ops db schedule := by
  intro before between i userId rest k rawToken draw pair hreplays hpre hk hop
    hanswer hsub
  rcases quiet_since_commit hstand hreplays rfl hpre with hlogin | ⟨-, hquiet⟩
  · exact hlogin
  by_cases hbegun : k ∈ rest
  · have hends := hquiet k hbegun hk
    rw [hanswer] at hends
    exact absurd hsub (hends _ rfl pair rfl)
  · -- a request that has not begun has not answered
    have hidle : ((sessionPool env ops db).exec
        (before ++ i :: between ++ [i] ++ rest)).running k =
          (ops k).transaction env :=
      exec_running_of_not_mem _ (by
        rw [List.mem_append, not_or]
        exact ⟨hk, hbegun⟩)
    rw [hanswer, hop] at hidle
    exact absurd hidle (by
      rw [SessionOp.transaction, refresh, loadRefreshToken]
      simp)

/-! ## One after the other -/

/-- When no two requests are under way at once, nothing slips in. -/
theorem nothingSlipsIn_of_serial
    {env : Env} {ops : ι → SessionOp} {db : Database} {schedule : List ι}
    (hserial : (sessionPool env ops db).Tolerant (fun _ _ _ => False) schedule) :
    NothingSlipsIn env ops db schedule := by
  intro before between i userId started j hreplays hpre hupdated hnext hj id hid
  obtain ⟨moment, hupdate⟩ := hreplays.update
  obtain ⟨since, rfl⟩ := hupdated
  have hsince : before ++ [i] ++ since = before ++ i :: since := by simp
  rw [hsince] at hnext hid ⊢
  by_cases hji : j = i
  · -- the commit of the revocation, or a step of a request that has answered
    subst hji
    by_cases hdone : j ∈ since
    · obtain ⟨early, late, rfl, hearly⟩ := List.eq_append_cons_of_mem hdone
      have hcommit := running_after_read hupdate hearly
      have hfinished : ((((sessionPool env ops db).exec
          (before ++ j :: early)).step j).running j).Finished := by
        rw [step_of_accepted hcommit rfl]
        simp only [Pool.update, Function.update_self]
        trivial
      have hsplit : before ++ j :: (early ++ j :: late) =
          before ++ j :: early ++ [j] ++ late := by simp
      rw [hsplit] at hid ⊢
      rw [exec_concat, exec_append, exec_concat,
        step_of_finished (finished_exec hfinished late)] at hid
      rw [exec_append, exec_concat]
      exact hid
    · rw [exec_concat,
        step_of_accepted (running_after_read hupdate hdone) rfl] at hid
      exact (mem_liveTokens_revokeTokens.mp hid).1
  · -- another request has answered before the revocation began
    have hidle : ∀ past k l, past ++ [l] <+: schedule → k ≠ l → k ∈ past →
        (((sessionPool env ops db).exec past).running k).Finished := by
      intro past k l hpast hkl hk
      by_contra hrunning
      exact hserial past l hpast k hkl ⟨hk, hrunning⟩
    have hfinished : (((sessionPool env ops db).exec
        (before ++ i :: between)).running j).Finished :=
      hidle _ j i hpre hji (by simpa [hji] using hj)
    have hafter : before ++ i :: between <+: before ++ i :: since := by
      rcases List.prefix_or_prefix_of_prefix
          ((List.prefix_append _ [j]).trans hnext)
          ((List.prefix_append _ [i]).trans hpre) with hearly | hlate
      · -- the revocation would still be waiting for its commit
        rw [List.prefix_append_right_inj, List.cons_prefix_cons] at hearly
        have hcommitted := hidle _ i j hnext (Ne.symm hji) (by simp)
        rw [running_after_read hupdate fun hmem =>
          hreplays.waits (hearly.2.subset hmem)] at hcommitted
        exact hcommitted.elim
      · exact hlate
    obtain ⟨late, hlate⟩ := hafter
    rw [← hlate, exec_concat, exec_append,
      step_of_finished (finished_exec hfinished late), ← exec_append, hlate] at hid
    exact hid

/-! ## A request that slips in -/

/-- The sample shop with a session of its customer, and a token of theirs that
was exchanged before. -/
def replayDb : Database :=
  { Sample.db with
    refreshTokens :=
      [⟨60, 4, "old", Sample.clock 23 0, some (Sample.clock 8 0)⟩,
        ⟨61, 4, "live", Sample.clock 23 0, none⟩] }

inductive Holder where
  | exchanging
  | replaying
  | returning
  deriving DecidableEq

/-- One holder exchanges the live token, the other presents the old one; then
the first comes back with the new token. -/
def twoHolders : Holder → SessionOp
  | .exchanging => .refresh "live" (Sample.draw 62 "next" (Sample.clock 9 0))
  | .replaying => .refresh "old" (Sample.draw 63 "none" (Sample.clock 9 0))
  | .returning => .refresh "next" (Sample.draw 64 "last" (Sample.clock 9 0))

theorem sessions_end_one_after_the_other :
    SessionsEnd Sample.env twoHolders replayDb
      (List.replicate 3 Holder.replaying ++
        List.replicate 3 Holder.exchanging) := by
  apply sessions_end
  exact nothingSlipsIn_of_serial
    (tolerant_serial Holder.replaying .exchanging 3 3 (by decide +kernel))

/-- An exchange that has passed its check when the revocation runs keeps the
user's sessions alive. -/
theorem session_survives :
    ¬ SessionsEnd Sample.env twoHolders replayDb
      [.exchanging, .exchanging, .replaying, .replaying, .replaying,
        .exchanging, .returning, .returning, .returning] := by
  intro h
  have hreplays : Replays (sessionPool Sample.env twoHolders replayDb)
      [.exchanging, .exchanging, .replaying] [] .replaying 4 :=
    ⟨⟨Sample.clock 9 0, rfl⟩, by simp⟩
  obtain ⟨pair, hanswer, hsub⟩ : ∃ pair,
      ((sessionPool Sample.env twoHolders replayDb).exec
        [.exchanging, .exchanging, .replaying, .replaying, .replaying,
          .exchanging, .returning, .returning, .returning]).running .returning =
        .done (.ok (.refreshed pair)) ∧ pair.accessToken.sub = 4 :=
    ⟨_, rfl, rfl⟩
  obtain ⟨l, response, -, hlogin, -⟩ := h _ _ _ _
    [.exchanging, .returning, .returning, .returning] .returning _ _ pair
    hreplays (List.prefix_refl _) (by decide) rfl hanswer hsub
  cases l with
  | exchanging => exact nomatch hlogin
  | replaying => exact nomatch hlogin
  | returning => exact nomatch hlogin

end BarberHub
