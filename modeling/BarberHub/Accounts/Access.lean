import BarberHub.Accounts.History
import BarberHub.Support.Numerals

/-!
# Who is calling

`get_current_user` and `require_roles` of `app/api/deps.py`, with
`decode_access_token` of `app/core/security.py`.  The library that signs and
verifies access tokens is a parameter.  This module shows for how long a session
that has ended can still act.
-/

namespace BarberHub

open KeyedTable ReadCommitted Program Fallible Numerals

/-! ## Access tokens -/

/-- What `jwt.decode` raises, as far as the handlers tell it apart. -/
inductive JwtError where
  | expiredSignatureError
  | invalidTokenError
  deriving DecidableEq, Repr

/-- The payload as `get_current_user` reads it: `sub` as a UUID, none where
`uuid.UUID` raises, and `type`. -/
structure Claims where
  sub : Option Uuid
  type : String
  deriving DecidableEq, Repr

/-- `ACCESS_TOKEN_TYPE`. -/
def accessTokenType : String := "access"

def AccessToken.claims (token : AccessToken) : Claims where
  sub := some token.sub
  type := accessTokenType

/-- `jwt.encode` and `jwt.decode` with the key and the algorithm of the
settings; `decode` takes a clock reading, too. -/
structure Jwt where
  encode : AccessToken → String
  decode : ℤ → String → Except JwtError Claims

/-- The instant of a number of seconds since 1970-01-01. -/
def instantOf (seconds : ℤ) : ℤ :=
  midnight 719163 + seconds * 1000000

/-- A token that was signed verifies from its `iat` until before its `exp`. -/
def Jwt.Verifies (jwt : Jwt) : Prop :=
  ∀ (now : ℤ) (token : AccessToken), jwt.decode now (jwt.encode token) =
    if now < instantOf token.iat then .error .invalidTokenError
    else if instantOf token.exp ≤ now then .error .expiredSignatureError
    else .ok token.claims

def decodeAccessToken (jwt : Jwt) (now : ℤ) (token : String) :
    Except Raised Claims :=
  match jwt.decode now token with
  | .error .expiredSignatureError =>
      .error (unauthorized "Access token has expired")
  | .error .invalidTokenError =>
      .error (unauthorized "Could not validate credentials")
  | .ok payload =>
      if payload.type = accessTokenType then .ok payload
      else .error (unauthorized "Could not validate credentials")

/-! ## The caller -/

/-- `get_current_user`.  Without a bearer token there are no credentials. -/
def getCurrentUser (jwt : Jwt) (now : ℤ) : Option String → Request User
  | none => raise (unauthorized "Authentication required")
  | some credentials => do
      let payload ← ofExcept (decodeAccessToken jwt now credentials)
      let userId ← rowOr (unauthorized "Could not validate credentials")
        payload.sub
      let found ← query (·.user? userId)
      let user ← rowOr (unauthorized "Could not validate credentials") found
      require (user.isActive = true)
        (unauthorized "This account has been deactivated")
      pure user

/-- `value` of a role. -/
def UserRole.value : UserRole → String
  | customer => "CUSTOMER"
  | barber => "BARBER"
  | shopOwner => "SHOP_OWNER"
  | admin => "ADMIN"

/-- The dependency `require_roles` makes; admins always pass.  The list under
`required` has an entry for each of its elements. -/
def requireRoles (roles : List UserRole) (user : User) : Request User := do
  require (user.role ∈ roles ∨ user.role = .admin)
    (.app ⟨.forbiddenError, "This action requires a different role",
      ((roles.map UserRole.value).mergeSort.map fun role =>
        ("required", .text role)) ++ [("actual", .text user.role.value)]⟩)
  pure user

section

variable {jwt : Jwt} {now : ℤ} {credentials : Option String}
  {db db' : Database} {user : User}

theorem decodeAccessToken_eq_ok_iff {token : String} {payload : Claims} :
    decodeAccessToken jwt now token = .ok payload ↔
      jwt.decode now token = .ok payload ∧ payload.type = accessTokenType := by
  rw [decodeAccessToken]
  cases jwt.decode now token with
  | error e => cases e <;> simp
  | ok claims =>
      by_cases htype : claims.type = accessTokenType
      · simp only [htype, if_true, Except.ok.injEq]
        constructor
        · intro h
          exact ⟨h, h ▸ htype⟩
        · exact fun h => h.1
      · simp only [htype, if_false, reduceCtorEq, Except.ok.injEq, false_iff]
        rintro ⟨rfl, h⟩
        exact htype h

/-- When a request is served as a user. -/
theorem run_getCurrentUser_eq_ok_iff :
    (getCurrentUser jwt now credentials).run db = (.ok user, db') ↔
      db' = db ∧ user.isActive = true ∧ ∃ token payload userId,
        credentials = some token ∧ jwt.decode now token = .ok payload ∧
        payload.type = accessTokenType ∧ payload.sub = some userId ∧
        db.user? userId = some user := by
  cases credentials with
  | none => simp [getCurrentUser]
  | some token =>
      rw [getCurrentUser, run_ofExcept_bind_eq_ok_iff]
      constructor
      · rintro ⟨payload, hdecode, h⟩
        rw [run_rowOr_bind_eq_ok_iff] at h
        obtain ⟨userId, hsub, h⟩ := h
        rw [query_bind, run_read, run_rowOr_bind_eq_ok_iff] at h
        obtain ⟨found, hfound, h⟩ := h
        rw [run_require_bind_eq_ok_iff] at h
        obtain ⟨hactive, h⟩ := h
        simp only [pure_eq_done, run_done, Prod.mk.injEq, Except.ok.injEq] at h
        obtain ⟨rfl, rfl⟩ := h
        obtain ⟨hdecode, htype⟩ := decodeAccessToken_eq_ok_iff.mp hdecode
        exact ⟨rfl, hactive, token, payload, userId, rfl, hdecode, htype, hsub,
          hfound⟩
      · rintro ⟨rfl, hactive, token', payload, userId, htoken, hdecode, htype,
          hsub, hfound⟩
        obtain rfl := Option.some.inj htoken
        refine ⟨payload, decodeAccessToken_eq_ok_iff.mpr ⟨hdecode, htype⟩, ?_⟩
        rw [run_rowOr_bind_eq_ok_iff]
        refine ⟨userId, hsub, ?_⟩
        rw [query_bind, run_read, run_rowOr_bind_eq_ok_iff]
        refine ⟨user, hfound, ?_⟩
        rw [run_require_bind_eq_ok_iff]
        exact ⟨hactive, rfl⟩

theorem Jwt.Verifies.decode_eq_ok_iff (hjwt : jwt.Verifies)
    {token : AccessToken} {payload : Claims} :
    jwt.decode now (jwt.encode token) = .ok payload ↔
      instantOf token.iat ≤ now ∧ now < instantOf token.exp ∧
        payload = token.claims := by
  rw [hjwt now token]
  by_cases hearly : now < instantOf token.iat
  · simp [hearly]
  · rw [if_neg hearly]
    by_cases hlate : instantOf token.exp ≤ now
    · simp [hlate]
    · simp [hlate, not_lt.mp hearly, not_le.mp hlate, eq_comm]

end

/-! ## Tokens that were signed -/

namespace Handled

/-- The answer hands out the access token. -/
def Signs (h : Handled) (token : AccessToken) : Prop :=
  ∃ answer pair, h.answer = .ok answer ∧ answer.pair? = some pair ∧
    pair.accessToken = token

/-- The user gives a password: a registration or a login that is answered. -/
def SignsIn (h : Handled) (userId : Uuid) : Prop :=
  ∃ response : AuthResponse, response.accessToken.sub = userId ∧
    (h.answer = .ok (.registered response) ∨
      h.answer = .ok (.loggedIn response))

end Handled

/-- All refresh tokens the user was given are revoked. -/
def SessionsOver (env : Env) (history : List Handled) (userId : Uuid) : Prop :=
  ∀ token, IssuedTo env history token userId → Revoked env history token

/-- The access token comes with a refresh token, both from one draw. -/
def Handled.Signed (env : Env) (h : Handled) : Prop :=
  ∀ token, h.Signs token → ∃ draw user row pair,
    h.op.draw? = some draw ∧ issueTokenPair env user draw = .ok (row, pair) ∧
      pair.accessToken = token ∧
      h.Issues env draw.secret token.sub row.expiresAt

section

variable {env : Env} {db : Database} {history : List Handled} {h : Handled}
  {userId : Uuid}

theorem signs_of_issues {token : String} {expiresAt : ℤ}
    (hissues : h.Issues env token userId expiresAt) :
    ∃ accessToken, h.Signs accessToken ∧ accessToken.sub = userId := by
  obtain ⟨answer, pair, -, hanswer, hpair, -, -, hsub, -⟩ := hissues
  exact ⟨pair.accessToken, ⟨answer, pair, hanswer, hpair, rfl⟩, hsub⟩

/-- A refusal hands out nothing. -/
theorem issuedTo_of_refusal {op : AuthOp} {e : Raised} {token : String}
    (hissued : IssuedTo env (⟨op, .error e⟩ :: history) token userId) :
    IssuedTo env history token userId := by
  obtain ⟨h, hmem, expiresAt, hissues⟩ := hissued
  rcases List.mem_cons.mp hmem with rfl | hmem
  · obtain ⟨answer, pair, draw, hanswer, -⟩ := hissues
    simp at hanswer
  · exact ⟨h, hmem, expiresAt, hissues⟩

/-- A replayed token ends every session of its user. -/
theorem sessionsOver_of_replay {token : String} {draw : TokenDraw} {e : Raised}
    (hto : IssuedTo env history token userId)
    (hused : Revoked env history token) :
    SessionsOver env (⟨.session (.refresh token draw), .error e⟩ :: history)
      userId := by
  intro other hother
  refine revoked_cons.mpr (Or.inr ⟨userId, issuedTo_of_refusal hother, ?_⟩)
  exact Or.inr ⟨token, ⟨draw, rfl⟩, hto, hused⟩

theorem issueTokenPair_accessToken
    {user : User} {draw : TokenDraw} {row : RefreshToken} {pair : TokenPair}
    (hissued : issueTokenPair env user draw = .ok (row, pair)) :
    pair.accessToken.exp = timestamp
      (draw.signedAt + minutes env.settings.accessTokenExpireMinutes) := by
  obtain ⟨expiresAt, -, hissued⟩ := bind_eq_ok_iff.mp hissued
  obtain ⟨accessToken, haccess, hissued⟩ := bind_eq_ok_iff.mp hissued
  obtain ⟨expire, hexpire, haccess⟩ := bind_eq_ok_iff.mp haccess
  obtain ⟨-, rfl⟩ := Prod.mk.inj (Except.ok.inj hissued)
  rw [← Except.ok.inj haccess, ← (representable_eq_ok_iff.mp hexpire).2]

theorem signed_of_issued
    {user : User} {draw : TokenDraw} {row : RefreshToken} {pair : TokenPair}
    {answer : AuthAnswer} (hdraw : h.op.draw? = some draw)
    (hanswer : h.answer = .ok answer) (hpair : answer.pair? = some pair)
    (hissued : issueTokenPair env user draw = .ok (row, pair)) :
    h.Signed env := by
  rintro token ⟨answer', pair', hanswer', hpair', rfl⟩
  obtain rfl := Except.ok.inj (hanswer.symm.trans hanswer')
  obtain rfl := Option.some.inj (hpair.symm.trans hpair')
  obtain ⟨hrow, -, hsub⟩ := issueTokenPair_eq_ok hissued
  refine ⟨draw, user, row, pair, hdraw, hissued, rfl, ?_⟩
  rw [issues_iff_of_adds hdraw hanswer hpair hissued, hsub, hrow]
  exact ⟨rfl, rfl, rfl⟩

theorem signed_of_error {op : AuthOp} {e : Raised} :
    Handled.Signed env ⟨op, .error e⟩ := by
  rintro token ⟨answer, pair, hanswer, -⟩
  simp at hanswer

/-- Whatever is answered, its tokens are signed. -/
theorem Effect.signed {op : AuthOp} {answer : Except Raised AuthAnswer}
    {tokens : List RefreshToken} (heffect : Effect env db op answer tokens) :
    Handled.Signed env ⟨op, answer⟩ := by
  cases heffect with
  | refused op e hrefresh hlogout => exact signed_of_error
  | registered payload id salt createdAt draw response user row hissued =>
      exact signed_of_issued rfl rfl rfl hissued
  | loggedIn email password salt draw response user row hissued =>
      exact signed_of_issued rfl rfl rfl hissued
  | rotated raw draw stored user row pair hstored hlive hissued =>
      exact signed_of_issued rfl rfl rfl hissued
  | replayed raw draw stored e hstored hdead => exact signed_of_error
  | loggedOut raw moment stored ids hstored hids =>
      rintro token ⟨answer, pair, hanswer, hpair, -⟩
      obtain rfl := Except.ok.inj hanswer
      simp [AuthAnswer.pair?] at hpair

theorem signed_handleAll (events : List AuthEvent) :
    ∀ h ∈ (handleAll env db events).2, h.Signed env := by
  induction events using List.reverseRecOn with
  | nil => simp [handleAll]
  | append_singleton events event ih =>
      rw [handleAll_concat]
      cases event with
      | usersEdited users => exact ih
      | asked op =>
          intro h hmem
          rcases List.mem_cons.mp hmem with rfl | hmem
          · exact (effect_of_run op).signed
          · exact ih h hmem

end

/-! ## Sessions that are over -/

section

variable {env : Env} {db : Database} {before after : List AuthEvent}
  {userId : Uuid}

/-- A run goes on from the state the first part of it leaves. -/
theorem handleAll_append (env : Env) (db : Database)
    (before after : List AuthEvent) :
    handleAll env db (before ++ after) =
      ((handleAll env (handleAll env db before).1 after).1,
        (handleAll env (handleAll env db before).1 after).2 ++
          (handleAll env db before).2) := by
  induction after using List.reverseRecOn with
  | nil => simp [handleAll]
  | append_singleton after event ih =>
      rw [← List.append_assoc, handleAll_concat, ih, handleAll_concat]
      cases event with
      | usersEdited users => rfl
      | asked op => rfl

/-- A refresh is answered with tokens of the user whose live token it
presented. -/
theorem exists_stored_of_refreshed {raw : String} {draw : TokenDraw}
    {pair : TokenPair}
    (h : (((AuthOp.session (.refresh raw draw)).transaction env).run db).1 =
      .ok (.refreshed pair)) :
    ∃ stored, db.tokenByHash? (env.sha256 raw) = some stored ∧
      stored.revokedAt = none ∧ pair.accessToken.sub = stored.userId := by
  rw [AuthOp.transaction, SessionOp.transaction, run_bind] at h
  cases hrun : (refresh env raw draw).run db with
  | mk answer db' =>
      rw [hrun] at h
      cases answer with
      | error e => simp at h
      | ok issued =>
          obtain rfl := AuthAnswer.refreshed.inj (Except.ok.inj h)
          obtain ⟨stored, hstored, hlive, -, user, huser, -, row, hissued, -⟩ :=
            run_refresh_eq_ok_iff.mp hrun
          refine ⟨stored, hstored, hlive, ?_⟩
          rw [(issueTokenPair_eq_ok hissued).2.2]
          exact key_of_lookup huser

/-- Without a password, nothing is signed for a user whose sessions are over. -/
theorem sub_ne_of_over
    {history : List Handled} {op : AuthOp} (hledger : Ledger env history db)
    (hfresh : FreshFor env history op) (hover : SessionsOver env history userId)
    (hquiet : ¬ Handled.SignsIn ⟨op, ((op.transaction env).run db).1⟩ userId)
    {token : AccessToken}
    (hsigns : Handled.Signs ⟨op, ((op.transaction env).run db).1⟩ token) :
    token.sub ≠ userId := by
  rintro rfl
  have heffect : Effect env db op _ _ := effect_of_run op
  obtain ⟨answer, pair, hanswer, hpair, rfl⟩ := hsigns
  dsimp only at hanswer hquiet
  rw [hanswer] at heffect hquiet
  generalize ((op.transaction env).run db).2.refreshTokens = tokens at heffect
  cases heffect with
  | registered payload id salt createdAt draw response user row hissued =>
      obtain rfl := Option.some.inj hpair
      exact hquiet ⟨response, rfl, Or.inl rfl⟩
  | loggedIn email password salt draw response user row hissued =>
      obtain rfl := Option.some.inj hpair
      exact hquiet ⟨response, rfl, Or.inr rfl⟩
  | rotated raw draw _ user row pair' _ _ hissued =>
      obtain rfl := Option.some.inj hpair
      obtain ⟨stored, hstored, hlive, hsub⟩ := exists_stored_of_refreshed hanswer
      have hto := hledger.issuedTo_of_presented hfresh rfl hstored
      obtain ⟨row', hrow', -, hrevoked⟩ := hledger.of_issuedTo hto
      obtain rfl := Option.some.inj (hstored.symm.trans hrow')
      rw [hsub] at hover
      have hdead := hrevoked.mpr (hover raw hto)
      rw [hlive] at hdead
      simp at hdead
  | loggedOut raw moment stored ids hstored hids =>
      simp [AuthAnswer.pair?] at hpair

/-- Nothing ends the end of the sessions of a user but a password: afterwards
no token is signed for the user. -/
theorem sub_ne_of_quiet (hempty : db.refreshTokens = [])
    (hdistinct : DistinctDraws env
      ((before ++ after).filterMap AuthEvent.op?))
    (hover : SessionsOver env (handleAll env db before).2 userId)
    (hquiet : ∀ h ∈ (handleAll env (handleAll env db before).1 after).2,
      ¬ h.SignsIn userId) :
    SessionsOver env (handleAll env db (before ++ after)).2 userId ∧
      ∀ h ∈ (handleAll env (handleAll env db before).1 after).2, ∀ token,
        h.Signs token → token.sub ≠ userId := by
  induction after using List.reverseRecOn with
  | nil =>
      rw [List.append_nil]
      exact ⟨hover, by simp [handleAll]⟩
  | append_singleton after event ih =>
      rw [← List.append_assoc] at hdistinct ⊢
      rw [List.filterMap_append] at hdistinct
      simp only [handleAll_concat] at hquiet ⊢
      cases event with
      | usersEdited users => exact ih hdistinct.of_append hquiet
      | asked op =>
          obtain ⟨hover', hsub⟩ := ih hdistinct.of_append fun h hmem =>
            hquiet h (List.mem_cons_of_mem _ hmem)
          obtain ⟨hledger, hops⟩ := ledger_handleAll hempty hdistinct.of_append
          have hfresh := hdistinct.freshFor hops
          have hnew := sub_ne_of_over hledger hfresh hover'
          rw [congrArg Prod.fst (handleAll_append env db before after)] at hnew
          have hnone := @hnew (hquiet _ List.mem_cons_self)
          constructor
          · intro token hto
            obtain ⟨h, hmem, expiresAt, hissues⟩ := hto
            rcases List.mem_cons.mp hmem with rfl | hmem
            · obtain ⟨accessToken, hsigns, rfl⟩ := signs_of_issues hissues
              rw [congrArg Prod.fst (handleAll_append env db before after)]
                at hsigns
              exact absurd rfl (hnone hsigns)
            · exact revoked_cons.mpr
                (Or.inl (hover' token ⟨h, hmem, expiresAt, hissues⟩))
          · intro h hmem
            rcases List.mem_cons.mp hmem with rfl | hmem
            · exact fun _ hsigns => hnone hsigns
            · exact hsub h hmem

/-- A whole second below an instant. -/
theorem instantOf_timestamp_le {x now : ℤ} (hnow : midnight 719163 ≤ now)
    (hx : x ≤ now) : instantOf (timestamp x) ≤ now := by
  rw [instantOf, timestamp]
  rcases le_total 0 (x - midnight 719163) with hpos | hneg
  · rw [Int.tdiv_eq_ediv_of_nonneg hpos]
    omega
  · have hle := Int.tdiv_le_tdiv (by decide : (0 : ℤ) < 1000000) hneg
    rw [Int.zero_tdiv] at hle
    omega

end

/-- Requests are executed one after another.  Once the sessions of a user are
over, and until the user gives a password again, a request is served as that user
exactly with an access token that was signed before, within its own lifetime;
when that lifetime has passed since the last one was signed, with none. -/
theorem authority_ends
    (env : Env) (jwt : Jwt) (hjwt : jwt.Verifies) (db : Database)
    (hempty : db.refreshTokens = []) (before after : List AuthEvent)
    (hdistinct : DistinctDraws env
      ((before ++ after).filterMap AuthEvent.op?))
    (userId : Uuid)
    (hover : SessionsOver env (handleAll env db before).2 userId)
    (hquiet : ∀ h ∈ (handleAll env (handleAll env db before).1 after).2,
      ¬ h.SignsIn userId)
    (credentials : Option String) (now ended : ℤ)
    (hepoch : midnight 719163 ≤ now)
    (hclock : ∀ h ∈ (handleAll env db before).2, ∀ draw,
      h.op.draw? = some draw → draw.signedAt ≤ ended)
    (hsigned : ∀ token payload, credentials = some token →
      jwt.decode now token = .ok payload →
      ∃ h ∈ (handleAll env db (before ++ after)).2, ∃ accessToken,
        h.Signs accessToken ∧ token = jwt.encode accessToken) :
    let final := (handleAll env db (before ++ after)).1
    (∀ user : User, user.id = userId →
      ((getCurrentUser jwt now credentials).run final = (.ok user, final) ↔
        final.user? userId = some user ∧ user.isActive = true ∧
          ∃ h ∈ (handleAll env db before).2, ∃ accessToken,
            h.Signs accessToken ∧ accessToken.sub = userId ∧
            credentials = some (jwt.encode accessToken) ∧
            instantOf accessToken.iat ≤ now ∧
            now < instantOf accessToken.exp)) ∧
    (ended + minutes env.settings.accessTokenExpireMinutes ≤ now →
      ∀ user : User, user.id = userId →
        (getCurrentUser jwt now credentials).run final ≠ (.ok user, final)) := by
  intro final
  obtain ⟨-, hsub⟩ := sub_ne_of_quiet hempty hdistinct hover hquiet
  have hhistory := congrArg Prod.snd (handleAll_append env db before after)
  dsimp only at hhistory
  have hserved : ∀ user : User, user.id = userId →
      ((getCurrentUser jwt now credentials).run final = (.ok user, final) ↔
        final.user? userId = some user ∧ user.isActive = true ∧
          ∃ h ∈ (handleAll env db before).2, ∃ accessToken,
            h.Signs accessToken ∧ accessToken.sub = userId ∧
            credentials = some (jwt.encode accessToken) ∧
            instantOf accessToken.iat ≤ now ∧
            now < instantOf accessToken.exp) := by
    intro user huser
    rw [run_getCurrentUser_eq_ok_iff]
    constructor
    · rintro ⟨-, hactive, token, payload, id, hcredentials, hdecode, -, hid,
        hfound⟩
      obtain ⟨h, hmem, accessToken, hsigns, rfl⟩ :=
        hsigned token payload hcredentials hdecode
      obtain ⟨hiat, hexp, rfl⟩ := hjwt.decode_eq_ok_iff.mp hdecode
      have hkey : id = userId := (key_of_lookup hfound).symm.trans huser
      have hsame : accessToken.sub = userId :=
        (Option.some.inj hid).trans hkey
      rw [hkey] at hfound
      rw [hhistory] at hmem
      rcases List.mem_append.mp hmem with hlater | hearlier
      · exact absurd hsame (hsub h hlater accessToken hsigns)
      · exact ⟨hfound, hactive, h, hearlier, accessToken, hsigns, hsame,
          hcredentials, hiat, hexp⟩
    · rintro ⟨hfound, hactive, h, hmem, accessToken, hsigns, hsame,
        hcredentials, hiat, hexp⟩
      exact ⟨rfl, hactive, _, accessToken.claims, userId, hcredentials,
        hjwt.decode_eq_ok_iff.mpr ⟨hiat, hexp, rfl⟩, rfl, congrArg some hsame,
        hfound⟩
  refine ⟨hserved, ?_⟩
  intro hlate user huser hrun
  obtain ⟨-, -, h, hmem, accessToken, hsigns, -, -, -, hexp⟩ :=
    (hserved user huser).mp hrun
  obtain ⟨draw, _, _, pair, hdraw, hissued, rfl, -⟩ :=
    signed_handleAll before h hmem accessToken hsigns
  rw [issueTokenPair_accessToken hissued] at hexp
  have hsignedAt := hclock h hmem draw hdraw
  have hle : instantOf (timestamp (draw.signedAt +
      minutes env.settings.accessTokenExpireMinutes)) ≤ now :=
    instantOf_timestamp_le hepoch (by omega)
  exact absurd hexp (not_lt.mpr hle)

/-! ## A logout -/

namespace Sample

/-- The parts of a number above zero and below. -/
def signed (n : ℤ) : List ℤ :=
  [max n 0, max (-n) 0]

/-- Tokens in decimal, without a secret. -/
def jwt : Jwt where
  encode token := String.ofList (List.intercalate ['.']
    (((token.sub : ℤ) :: signed token.iat ++ signed token.exp).map numeral))
  decode now text :=
    match (text.toList.splitOn '.').map number with
    | [sub, iat, iat', exp, exp'] =>
        if now < instantOf (iat - iat') then .error .invalidTokenError
        else if instantOf (exp - exp') ≤ now then
          .error .expiredSignatureError
        else .ok ⟨some sub.toNat, accessTokenType⟩
    | _ => .error .invalidTokenError

theorem verifies_jwt : jwt.Verifies := by
  intro now token
  have hpos : ∀ n ∈ (token.sub : ℤ) :: signed token.iat ++ signed token.exp,
      0 ≤ n := by
    simp [signed]
  have hdot : ∀ text ∈ ((token.sub : ℤ) :: signed token.iat ++
      signed token.exp).map numeral, '.' ∉ text := by
    intro text htext hmem
    obtain ⟨n, hn, rfl⟩ := List.mem_map.mp htext
    exact absurd (isDigit_of_mem_numeral (hpos n hn) hmem) (by decide)
  have hread : ((token.sub : ℤ) :: signed token.iat ++ signed token.exp).map
      (number ∘ numeral) =
        (token.sub : ℤ) :: signed token.iat ++ signed token.exp :=
    (List.map_congr_left fun n hn => number_numeral (hpos n hn)).trans
      (List.map_id' _)
  have hsigned : ∀ n : ℤ, max n 0 - max (-n) 0 = n := fun n => by omega
  simp only [jwt, String.toList_ofList]
  rw [List.splitOn_intercalate _ hdot (by simp), List.map_map, hread]
  simp [signed, hsigned, AccessToken.claims]

end Sample

/-- The customer of the sample shop logs in and out. -/
def loginAndLogout : List AuthEvent :=
  loginAt (Sample.clock 8 0) ++
    [.asked (.session (.logout "first" (Sample.clock 8 5)))]

theorem distinct_loginAndLogout :
    DistinctDraws Sample.env
      ((loginAndLogout ++ []).filterMap AuthEvent.op?) where
  ids := show [(60 : ℕ)].Nodup by decide
  secrets := show ["first"].Nodup by decide
  hashes _ _ _ _ h := h

theorem sessionsOver_loginAndLogout :
    SessionsOver Sample.env
      (handleAll Sample.env Sample.db loginAndLogout).2 4 := by
  rintro token ⟨h, hmem, expiresAt, hissues⟩
  rcases List.mem_cons.mp hmem with rfl | hmem
  · obtain ⟨answer, pair, draw, -, -, hdraw, -⟩ := hissues
    simp [AuthOp.draw?] at hdraw
  · obtain rfl := List.mem_singleton.mp hmem
    have hto : IssuedTo Sample.env
        (handleAll Sample.env Sample.db (loginAt (Sample.clock 8 0))).2 token 4 :=
      ⟨_, List.mem_cons_self, expiresAt, hissues⟩
    obtain ⟨answer, pair, draw, hanswer, hpair, -, htoken, -⟩ := hissues
    obtain rfl := Except.ok.inj hanswer
    obtain rfl := Option.some.inj hpair
    refine revoked_cons.mpr (Or.inr ⟨4, hto, Or.inl (Or.inr ⟨Sample.clock 8 5, ?_⟩)⟩)
    rw [← htoken]
    rfl

/-- The access token the login handed out. -/
def accessOfLogin : AccessToken :=
  ⟨4, .customer, timestamp (Sample.clock 8 0),
    timestamp (Sample.clock 8 0 + minutes 15), 60⟩

theorem signs_loginAndLogout :
    ∃ h ∈ (handleAll Sample.env Sample.db loginAndLogout).2,
      h.Signs accessOfLogin :=
  ⟨_, List.mem_cons_of_mem _ List.mem_cons_self, _, _, rfl, rfl, rfl⟩

/-- The access token of a session that was logged out from. -/
theorem authority_ends_logout :
    let final := (handleAll Sample.env Sample.db (loginAndLogout ++ [])).1
    (∀ user : User, user.id = 4 →
      ((getCurrentUser Sample.jwt (Sample.clock 8 10)
          (some (Sample.jwt.encode accessOfLogin))).run final =
          (.ok user, final) ↔
        final.user? 4 = some user ∧ user.isActive = true ∧
          ∃ h ∈ (handleAll Sample.env Sample.db loginAndLogout).2,
            ∃ accessToken, h.Signs accessToken ∧ accessToken.sub = 4 ∧
            some (Sample.jwt.encode accessOfLogin) =
              some (Sample.jwt.encode accessToken) ∧
            instantOf accessToken.iat ≤ Sample.clock 8 10 ∧
            Sample.clock 8 10 < instantOf accessToken.exp)) ∧
    (Sample.clock 8 0 + minutes 15 ≤ Sample.clock 8 10 →
      ∀ user : User, user.id = 4 →
        (getCurrentUser Sample.jwt (Sample.clock 8 10)
          (some (Sample.jwt.encode accessOfLogin))).run final ≠
            (.ok user, final)) := by
  refine authority_ends Sample.env Sample.jwt Sample.verifies_jwt Sample.db rfl
    loginAndLogout [] distinct_loginAndLogout 4 sessionsOver_loginAndLogout
    (by simp [handleAll]) _ (Sample.clock 8 10) (Sample.clock 8 0) (by decide)
    ?_ ?_
  · intro h hmem draw hdraw
    rcases List.mem_cons.mp hmem with rfl | hmem
    · simp [AuthOp.draw?] at hdraw
    · obtain rfl := List.mem_singleton.mp hmem
      obtain rfl := Option.some.inj hdraw
      exact le_refl _
  · rintro _ payload htoken -
    obtain rfl := Option.some.inj htoken
    rw [List.append_nil]
    obtain ⟨h, hmem, hsigns⟩ := signs_loginAndLogout
    exact ⟨h, hmem, accessOfLogin, hsigns, rfl⟩

end BarberHub
