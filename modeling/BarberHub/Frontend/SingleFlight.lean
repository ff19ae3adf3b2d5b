import Mathlib.Data.List.Infix
import BarberHub.Frontend.Session

/-!
# Exchanges one at a time

When a session outlives the exchange of its tokens: if no refresh or sign-out
begins with a token before the last use of it is settled, and nobody else sends
it, or a spent token of the same user.  When a token is sent twice, and the
second exchange begins after the first has committed, every session of the user
ends.
-/

namespace BarberHub.Frontend

open KeyedTable ReadCommitted Program Fallible

namespace World

variable {ι : Type} [DecidableEq ι]

section

variable {env : Env} {jwt : Jwt} {db : Database}

/-- A run from a blank browser and an empty token table in which no two tasks
ever use one token, nobody else presents it, and nobody else presents a revoked
token of the same user to a refresh. -/
structure SingleFlight (env : Env) (jwt : Jwt) (db : Database)
    (tasks : ι → Task) (events : List (Event ι)) : Prop where
  begins : ∀ i, (tasks i).Begins
  unused : db.refreshTokens = []
  distinct : DistinctDraws env
    ((after env jwt db tasks events).asked.filterMap AuthEvent.op?)
  apart : ∀ before event, before ++ [.elsewhere event] <+: events →
    (after env jwt db tasks before).Apart env db event
  disjoint : ∀ before, before <+: events →
    Disjoint (after env jwt db tasks before).tasks

section

variable {tasks : ι → Task} {events before rest : List (Event ι)}

theorem SingleFlight.of_append
    (h : SingleFlight env jwt db tasks (before ++ rest)) :
    SingleFlight env jwt db tasks before where
  begins := h.begins
  unused := h.unused
  distinct := distinct_of_prefix h.distinct
  apart first event hfirst :=
    h.apart first event (hfirst.trans (List.prefix_append _ _))
  disjoint first hfirst := h.disjoint first (hfirst.trans (List.prefix_append _ _))

omit [DecidableEq ι] in
theorem kept_start (hbegin : ∀ i, (tasks i).Begins) (store : Store)
    (hstore : store.refresh = none) : Kept env [] store tasks := by
  have hnone : ∀ i, (tasks i).uses = none ∧ (tasks i).brings = none ∧
      ∀ token, tasks i ≠ .refreshing token := by
    intro i
    have hi := hbegin i
    cases htask : tasks i <;> simp_all [Task.Begins, Task.uses, Task.brings]
  constructor
  · simp [hstore]
  · intro i token huses
    simp [(hnone i).1] at huses
  · exact fun i token htask => absurd htask ((hnone i).2.2 token)
  · intro i token hbrings
    simp [(hnone i).2.1] at hbrings

/-- The invariant, after any such run. -/
theorem SingleFlight.kept (h : SingleFlight env jwt db tasks events) :
    Kept env ((after env jwt db tasks events).server env db).2
      (after env jwt db tasks events).store
      (after env jwt db tasks events).tasks := by
  induction events using List.reverseRecOn with
  | nil => exact kept_start h.begins _ rfl
  | append_singleton events event ih =>
      rw [after_concat]
      refine (ih h.of_append).step h.unused ?_ ?_ ?_ ?_
      · rw [← after_concat]
        exact h.distinct
      · intro other hother
        rw [hother] at h
        exact h.apart events other (List.prefix_refl _)
      · exact h.disjoint events (List.prefix_append _ _)
      · rw [← after_concat]
        exact h.disjoint _ (List.prefix_refl _)

/-- The ledger of the server after a run. -/
theorem SingleFlight.ledger (h : SingleFlight env jwt db tasks events) :
    Ledger env ((after env jwt db tasks events).server env db).2
      ((after env jwt db tasks events).server env db).1 :=
  (ledger_handleAll h.unused h.distinct).1

/-- The server has a row for the token, and it is not revoked. -/
def Live (env : Env) (t : Database) (token : String) (row : RefreshToken) :
    Prop :=
  t.tokenByHash? (env.sha256 token) = some row ∧ row.revokedAt = none

theorem exists_live {history : List Handled} {t : Database} {token : String}
    {userId : Uuid} (hledger : Ledger env history t)
    (hissued : IssuedTo env history token userId)
    (hlive : ¬ Revoked env history token) : ∃ row, Live env t token row := by
  obtain ⟨row, hrow, -, hrevoked⟩ := hledger.of_issuedTo hissued
  refine ⟨row, hrow, ?_⟩
  by_contra hdead
  exact hlive (hrevoked.mp (Option.isSome_iff_ne_none.mpr hdead))

/-- A refresh hands out tokens when the service answers a pair. -/
theorem tokensOf_refresh_eq_some_iff {jwt : Jwt} {t : Database} {token : String}
    {draw : TokenDraw} :
    (∃ tokens, tokensOf jwt (((AuthOp.session (.refresh token draw)).transaction
        env).run t).1 = some tokens) ↔
      ∃ pair t', (BarberHub.refresh env token draw).run t = (.ok pair, t') := by
  rw [AuthOp.transaction, SessionOp.transaction, run_bind]
  cases hrun : (BarberHub.refresh env token draw).run t with
  | mk answer t' =>
      cases answer with
      | error e => simp [tokensOf]
      | ok pair => simp [tokensOf, AuthAnswer.pair?]

/-- A live token is exchanged unless it has expired, its account is inactive or
the calendar ends. -/
theorem tokensOf_refresh_iff {jwt : Jwt} {history : List Handled} {t : Database}
    {token : String} {row : RefreshToken} {draw : TokenDraw}
    (hledger : Ledger env history t)
    (hfresh : FreshFor env history (.session (.refresh token draw)))
    (hlive : Live env t token row) :
    (∃ tokens, tokensOf jwt (((AuthOp.session (.refresh token draw)).transaction
        env).run t).1 = some tokens) ↔
      draw.checkedAt < row.expiresAt ∧
        (∃ user, t.user? row.userId = some user ∧ user.isActive = true) ∧
        Representable
          (draw.issuedAt + days env.settings.refreshTokenExpireDays) ∧
        Representable
          (draw.signedAt + minutes env.settings.accessTokenExpireMinutes) := by
  obtain ⟨hrow, hnone⟩ := hlive
  rw [tokensOf_refresh_eq_some_iff]
  constructor
  · rintro ⟨pair, t', hrun⟩
    obtain ⟨stored, hstored, -, hnow, user, huser, hactive, new, hissued, -⟩ :=
      run_refresh_eq_ok_iff.mp hrun
    obtain rfl := Option.some.inj (hrow.symm.trans hstored)
    exact ⟨hnow, ⟨user, huser, hactive⟩,
      (exists_issueTokenPair_iff user).mp ⟨new, pair, hissued⟩⟩
  · rintro ⟨hnow, ⟨user, huser, hactive⟩, hcalendar⟩
    obtain ⟨new, pair, hissued⟩ := (exists_issueTokenPair_iff user).mpr hcalendar
    have hne := fun old hold => @Ledger.ne_draw _ _ _ hledger _ hfresh _ rfl old hold
    obtain ⟨t', hw⟩ : ∃ t', rotateToken row.id draw.revokedAt new t = .ok t' := by
      rw [(issueTokenPair_eq_ok hissued).1]
      refine exists_rotateToken (List.mem_map_of_mem (mem_of_lookup hrow)) ?_
        (lookup_eq_none_iff.mpr fun old hold => (hne old hold).2) ?_
      · intro hold
        obtain ⟨old, hold, hsame⟩ := List.mem_map.mp hold
        exact (hne old hold).1 hsame
      · dsimp only
        rw [key_of_lookup huser, huser]
        rfl
    exact ⟨pair, t', run_refresh_eq_ok_iff.mpr
      ⟨row, hrow, hnone, hnow, user, huser, hactive, new, hissued, hw⟩⟩

/-- What is answered in a run that goes on. -/
theorem SingleFlight.fresh {i : ι} {draws : Draws} {op : AuthOp}
    (h : SingleFlight env jwt db tasks (before ++ [.serve i draws]))
    (hop : ((after env jwt db tasks before).tasks i).op? draws = some op) :
    FreshFor env ((after env jwt db tasks before).server env db).2 op := by
  have hdistinct := h.distinct
  rw [after_concat, step_serve (serve_of_op hop _), List.filterMap_append]
    at hdistinct
  exact hdistinct.freshFor (ledger_handleAll h.unused hdistinct.of_append).2

end

end

/-- What is drawn for a request at a moment. -/
def drawsAt (id : Uuid) (secret : String) (moment : ℤ) : Draws :=
  ⟨moment, Sample.draw id secret moment, 0, "salt"⟩

/-- The customer of the sample shop signs in; a request is sent later. -/
def signInAndCall : Bool → Task
  | true => .signIn (.login "Cara" "Customer")
  | false => .call true

/-- The access token has expired, and is renewed behind the request. -/
def renewal : List (Event Bool) :=
  [.resume true, .serve true (drawsAt 60 "first" (Sample.clock 8 0)),
    .resume true, .resume false,
    .serve false (drawsAt 61 "" (Sample.clock 9 0)), .resume false,
    .serve false (drawsAt 61 "second" (Sample.clock 9 0)), .resume false,
    .resume false, .serve false (drawsAt 62 "" (Sample.clock 9 0)),
    .resume false]

theorem singleFlight_renewal :
    SingleFlight Sample.env Sample.jwt Sample.db signInAndCall renewal where
  begins := Bool.forall_bool.mpr ⟨trivial, trivial⟩
  unused := rfl
  distinct := {
    ids := by decide +kernel
    secrets := by decide +kernel
    hashes := fun _ _ _ _ h => h }
  apart before event hprefix := by
    obtain ⟨rest, hrest⟩ := hprefix
    have hmem : Event.elsewhere event ∈ renewal := by
      rw [← hrest]
      simp
    simp [renewal] at hmem
  disjoint before hprefix := by
    have hall : ∀ before ∈ renewal.inits, Disjoint
        (after Sample.env Sample.jwt Sample.db signInAndCall before).tasks := by
      unfold Disjoint
      decide +kernel
    exact hall before ((List.mem_inits before renewal).mpr hprefix)

section

variable {env : Env} {jwt : Jwt} {db : Database} {tasks : ι → Task}

/-- What is revoked stays so, and what was issued stays issued. -/
theorem history_suffix (before rest : List (Event ι)) :
    ((after env jwt db tasks before).server env db).2 <:+
      ((after env jwt db tasks (before ++ rest)).server env db).2 := by
  have hasked : (after env jwt db tasks before).asked <+: _ :=
    asked_prefix tasks before rest
  obtain ⟨more, hmore⟩ := hasked
  rw [server, server, ← hmore, congrArg Prod.snd (handleAll_append env db _ more)]
  exact List.suffix_append _ _

theorem issued_of_suffix {history later : List Handled} {token : String}
    {userId : Uuid} (h : history <:+ later)
    (hissued : IssuedTo env history token userId) :
    IssuedTo env later token userId := by
  obtain ⟨more, rfl⟩ := h
  exact hissued.later more

theorem revoked_of_suffix {history later : List Handled} {token : String}
    (h : history <:+ later) (hrevoked : Revoked env history token) :
    Revoked env later token := by
  obtain ⟨more, rfl⟩ := h
  induction more with
  | nil => exact hrevoked
  | cons new more ih => exact revoked_cons.mpr (Or.inl ih)

/-- All rows of a user whose sessions are over are revoked. -/
theorem revokedAt_ne_none_of_over {history : List Handled} {t : Database}
    {userId : Uuid} (hledger : Ledger env history t)
    (hover : SessionsOver env history userId) {row : RefreshToken}
    (hrow : row ∈ t.refreshTokens) (huser : row.userId = userId) :
    row.revokedAt ≠ none := by
  obtain ⟨h, hmem, draw, hdraw, -, hhash, hissues⟩ := hledger.rows row hrow
  rw [huser] at hissues
  have hissued : IssuedTo env history draw.secret userId := ⟨h, hmem, _, hissues⟩
  obtain ⟨row', hrow', -, hrevoked⟩ := hledger.of_issuedTo hissued
  have hsame : t.tokenByHash? (env.sha256 draw.secret) = some row := by
    rw [← hhash]
    exact hledger.hashes.lookup_eq_some_iff.mpr ⟨hrow, rfl⟩
  obtain rfl := Option.some.inj (hsame.symm.trans hrow')
  exact Option.isSome_iff_ne_none.mp (hrevoked.mpr (hover _ hissued))

/-- An exchange that succeeds revokes the token it presents, and issues the new
one to the same user. -/
theorem exchange_spends {history : List Handled} {t : Database}
    {token : String} {draw : TokenDraw} {tokens : Tokens}
    (hledger : Ledger env history t)
    (hfresh : FreshFor env history (.session (.refresh token draw)))
    (htokens : tokensOf jwt (((AuthOp.session (.refresh token draw)).transaction
      env).run t).1 = some tokens) :
    ∃ userId, IssuedTo env history token userId ∧
      Revoked env (⟨.session (.refresh token draw),
        (((AuthOp.session (.refresh token draw)).transaction env).run t).1⟩ ::
          history) token ∧
      IssuedTo env (⟨.session (.refresh token draw),
        (((AuthOp.session (.refresh token draw)).transaction env).run t).1⟩ ::
          history) tokens.2 userId := by
  obtain ⟨handed, pair, hanswer, hpair, rfl⟩ := tokensOf_eq_some htokens
  have heffect : Effect env t (.session (.refresh token draw)) _ _ :=
    effect_of_run _
  rw [hanswer] at heffect
  generalize (((AuthOp.session (.refresh token draw)).transaction env).run
    t).2.refreshTokens = rows at heffect
  cases heffect with
  | rotated raw draw _ user row pair' _ _ _ =>
      obtain rfl := Option.some.inj hpair
      obtain ⟨stored, hstored, -, hsub⟩ := exists_stored_of_refreshed hanswer
      have hissued := hledger.issuedTo_of_presented hfresh rfl hstored
      have hnew := (issued_pair history hanswer hpair).1
      rw [hsub] at hnew
      rw [hanswer]
      refine ⟨stored.userId, hissued, ?_, hnew⟩
      exact revoked_cons.mpr (Or.inr ⟨stored.userId, hissued,
        Or.inl (Or.inl ⟨draw, pair', rfl, rfl⟩)⟩)

/-- A refresh whose token is revoked is refused. -/
theorem refused_of_revoked {history : List Handled} {t : Database}
    {token : String} {userId : Uuid} (hledger : Ledger env history t)
    (hissued : IssuedTo env history token userId)
    (hrevoked : Revoked env history token) (draw : TokenDraw) :
    ∃ e, (((AuthOp.session (.refresh token draw)).transaction env).run t).1 =
      .error e := by
  have heffect : Effect env t (.session (.refresh token draw)) _ _ :=
    effect_of_run _
  generalize (((AuthOp.session (.refresh token draw)).transaction env).run
    t).1 = answer at heffect ⊢
  generalize (((AuthOp.session (.refresh token draw)).transaction env).run
    t).2.refreshTokens = rows at heffect
  cases heffect with
  | refused op e hrefresh hlogout => exact ⟨e, rfl⟩
  | replayed raw draw stored e hstored hdead => exact ⟨e, rfl⟩
  | rotated raw draw stored user row pair hstored hlive hissued' =>
      obtain ⟨row', hrow', -, hdead⟩ := hledger.of_issuedTo hissued
      obtain rfl := Option.some.inj (hstored.symm.trans hrow')
      have hsome := hdead.mpr hrevoked
      rw [hlive] at hsome
      simp at hsome

/-- The answer to a task whose token is revoked ends every session of the
user. -/
theorem replay_ends {w : World ι} {j : ι} {token : String} {userId : Uuid}
    (hledger : Ledger env (w.server env db).2 (w.server env db).1)
    (hissued : IssuedTo env (w.server env db).2 token userId)
    (hrevoked : Revoked env (w.server env db).2 token)
    (htask : w.tasks j = .refreshing token) (jwt : Jwt) (draws : Draws) :
    (w.step env jwt db (.serve j draws)).tasks j = .exchanged token none ∧
      SessionsOver env ((w.step env jwt db (.serve j draws)).server env db).2
        userId := by
  obtain ⟨e, herror⟩ := refused_of_revoked hledger hissued hrevoked
    draws.draw
  have hop : (w.tasks j).op? draws =
      some (.session (.refresh token draws.draw)) := by
    rw [htask]
    rfl
  rw [step_serve (serve_of_op hop _), server_append, ← server, herror, htask]
  refine ⟨by simp [Task.receive, tokensOf], ?_⟩
  exact sessionsOver_of_replay hissued hrevoked

end

/-- When two tasks have sent one token, the first is answered new ones, and the
second is begun once the first has committed, the answer to the second ends every
session of the user, the new one included, whatever is requested in between. -/
theorem overlap_ends_sessions
    (env : Env) (jwt : Jwt) (db : Database) (hempty : db.refreshTokens = [])
    (tasks : ι → Task) (first middle : List (Event ι)) (i j : ι)
    (draws draws' : Draws) (token : String) (tokens : Tokens)
    (hdistinct : DistinctDraws env ((after env jwt db tasks
      (first ++ .serve i draws :: middle ++ [.serve j draws'])).asked.filterMap
        AuthEvent.op?))
    (hi : (after env jwt db tasks first).tasks i = .refreshing token)
    (hanswer : (after env jwt db tasks (first ++ [.serve i draws])).tasks i =
      .exchanged token (some tokens))
    (hj : (after env jwt db tasks (first ++ .serve i draws :: middle)).tasks j =
      .refreshing token) :
    let final := after env jwt db tasks
      (first ++ .serve i draws :: middle ++ [.serve j draws'])
    final.tasks j = .exchanged token none ∧
      ∃ userId, (∃ row, (final.server env db).1.tokenByHash?
          (env.sha256 tokens.2) = some row ∧ row.userId = userId) ∧
        ∀ row ∈ (final.server env db).1.refreshTokens, row.userId = userId →
          row.revokedAt ≠ none := by
  intro final
  have hbefore := distinct_of_prefix hdistinct
  have hsplit : first ++ .serve i draws :: middle =
      (first ++ [.serve i draws]) ++ middle := by simp
  have hop : ((after env jwt db tasks first).tasks i).op? draws =
      some (.session (.refresh token draws.draw)) := by
    rw [hi]
    rfl
  -- the first exchange spends the token
  have hfirst := hbefore
  rw [hsplit] at hfirst
  replace hfirst := distinct_of_prefix hfirst
  rw [after_concat, step_serve (serve_of_op hop _), List.filterMap_append]
    at hfirst
  obtain ⟨hledger, hops⟩ := ledger_handleAll hempty hfirst.of_append
  rw [after_concat, step_serve (serve_of_op hop _)] at hanswer
  simp only [hi, Task.receive, Function.update_self, Task.exchanged.injEq,
    true_and] at hanswer
  obtain ⟨userId, hissued, hspent, hnew⟩ :=
    exchange_spends hledger (hfirst.freshFor hops) hanswer
  -- what happens in between takes nothing back
  have hlater : _ <:+ ((after env jwt db tasks
      (first ++ [.serve i draws] ++ middle)).server env db).2 :=
    history_suffix (first ++ [.serve i draws]) middle
  rw [← hsplit, after_concat, step_serve (serve_of_op hop _), server_append]
    at hlater
  -- the second one finds it revoked
  obtain ⟨hledger', -⟩ := ledger_handleAll hempty hbefore
  obtain ⟨hrefused, hover⟩ := replay_ends hledger'
    (issued_of_suffix ((List.suffix_cons _ _).trans hlater) hissued)
    (revoked_of_suffix hlater hspent) hj jwt draws'
  rw [← after_concat] at hrefused hover
  refine ⟨hrefused, userId, ?_, ?_⟩
  · obtain ⟨row, hrow, huser, -⟩ := (ledger_handleAll hempty
      hdistinct).1.of_issuedTo (issued_of_suffix (hlater.trans
        (history_suffix _ _)) hnew)
    exact ⟨row, hrow, huser⟩
  · intro row hrow huser
    exact revokedAt_ne_none_of_over (ledger_handleAll hempty hdistinct).1 hover
      hrow huser

/-- The customer signs in, and two requests are sent side by side later. -/
def signInAndCallTwice : Option Bool → Task
  | none => .signIn (.login "Cara" "Customer")
  | some _ => .call true

/-- Both find the access token expired and go on to a refresh. -/
def bothUnauthorized : List (Event (Option Bool)) :=
  [.resume none, .serve none (drawsAt 60 "first" (Sample.clock 8 0)),
    .resume none, .resume (some true), .resume (some false),
    .serve (some true) (drawsAt 61 "" (Sample.clock 9 0)),
    .serve (some false) (drawsAt 61 "" (Sample.clock 9 0)),
    .resume (some true), .resume (some false)]

theorem overlap_ends_sessions_of_two :
    let final := after Sample.env Sample.jwt Sample.db signInAndCallTwice
      (bothUnauthorized ++
        .serve (some true) (drawsAt 61 "second" (Sample.clock 9 0)) :: [] ++
        [.serve (some false) (drawsAt 62 "third" (Sample.clock 9 0))])
    final.tasks (some false) = .exchanged "first" none ∧
      ∃ userId, (∃ row, (final.server Sample.env Sample.db).1.tokenByHash?
          (Sample.env.sha256 "second") = some row ∧ row.userId = userId) ∧
        ∀ row ∈ (final.server Sample.env Sample.db).1.refreshTokens,
          row.userId = userId → row.revokedAt ≠ none :=
  overlap_ends_sessions Sample.env Sample.jwt Sample.db rfl signInAndCallTwice
    bothUnauthorized [] (some true) (some false)
    (drawsAt 61 "second" (Sample.clock 9 0))
    (drawsAt 62 "third" (Sample.clock 9 0)) "first"
    (Sample.jwt.encode ⟨4, .customer, timestamp (Sample.clock 9 0),
      timestamp (Sample.clock 9 0 + minutes 15), 61⟩, "second")
    { ids := by decide +kernel
      secrets := by decide +kernel
      hashes := fun _ _ _ _ h => h }
    (by decide +kernel) (by decide +kernel) (by decide +kernel)

end World

end BarberHub.Frontend
