import BarberHub.Core.Environment
import BarberHub.Support.Fallible

/-!
# Refresh tokens

The exchange of a refresh token for a new pair, from `app/services/auth.py`,
with the token functions of `app/core/security.py`.  What the random
generators and the clock give a request are its arguments.
-/

namespace BarberHub

open KeyedTable ReadCommitted Program Fallible

/-! ## Token pairs -/

/-- `timedelta(days=n)`. -/
def days (n : ℤ) : ℤ := n * oneDay

/-- `int(x.timestamp())`: whole seconds since 1970-01-01. -/
def timestamp (x : ℤ) : ℤ :=
  (x - midnight 719163).tdiv 1000000

/-- The payload of a signed access token. -/
structure AccessToken where
  sub : Uuid
  role : UserRole
  iat : ℤ
  exp : ℤ
  jti : Uuid
  deriving DecidableEq, Repr

structure TokenPair where
  accessToken : AccessToken
  refreshToken : String
  expiresIn : ℤ
  deriving DecidableEq, Repr

/-- What one request for tokens draws: the key of the new row, the new secret,
the `jti` of the access token, and the clock readings it takes. -/
structure TokenDraw where
  id : Uuid
  secret : String
  jti : Uuid
  checkedAt : ℤ
  revokedAt : ℤ
  issuedAt : ℤ
  signedAt : ℤ
  deriving DecidableEq, Repr

/-- `create_access_token`. -/
def createAccessToken (env : Env) (userId : Uuid) (role : UserRole)
    (draw : TokenDraw) : Except Raised AccessToken := do
  let expire ← representable
    (draw.signedAt + minutes env.settings.accessTokenExpireMinutes)
  pure {
    sub := userId
    role := role
    iat := timestamp draw.signedAt
    exp := timestamp expire
    jti := draw.jti }

/-- `refresh_token_expiry`. -/
def refreshTokenExpiry (env : Env) (draw : TokenDraw) : Except Raised ℤ :=
  representable (draw.issuedAt + days env.settings.refreshTokenExpireDays)

/-- `_issue_token_pair`: the row to add and the pair to answer. -/
def issueTokenPair (env : Env) (user : User) (draw : TokenDraw) :
    Except Raised (RefreshToken × TokenPair) := do
  let expiresAt ← refreshTokenExpiry env draw
  let accessToken ← createAccessToken env user.id user.role draw
  pure (
    { id := draw.id
      userId := user.id
      tokenHash := env.sha256 draw.secret
      expiresAt := expiresAt
      revokedAt := none },
    { accessToken := accessToken
      refreshToken := draw.secret
      expiresIn := env.settings.accessTokenExpireMinutes * 60 })

/-- What is issued: a live token with the secret that was drawn, for the
user. -/
theorem issueTokenPair_eq_ok
    {env : Env} {user : User} {draw : TokenDraw} {row : RefreshToken}
    {pair : TokenPair} (h : issueTokenPair env user draw = .ok (row, pair)) :
    row = {
        id := draw.id
        userId := user.id
        tokenHash := env.sha256 draw.secret
        expiresAt := draw.issuedAt + days env.settings.refreshTokenExpireDays
        revokedAt := none } ∧
      pair.refreshToken = draw.secret ∧ pair.accessToken.sub = user.id := by
  rw [issueTokenPair] at h
  rw [bind_eq_ok_iff] at h
  obtain ⟨expiresAt, hexpiry, h⟩ := h
  rw [bind_eq_ok_iff] at h
  obtain ⟨accessToken, haccess, h⟩ := h
  obtain ⟨rfl, rfl⟩ := Prod.mk.inj (Except.ok.inj h)
  rw [refreshTokenExpiry, representable_eq_ok_iff] at hexpiry
  rw [createAccessToken, bind_eq_ok_iff] at haccess
  obtain ⟨expire, -, haccess⟩ := haccess
  obtain rfl := Except.ok.inj haccess
  exact ⟨by rw [hexpiry.2], rfl, rfl⟩

/-- Nothing but the end of the calendar keeps tokens from being issued. -/
theorem exists_issueTokenPair_iff
    {env : Env} {draw : TokenDraw} (user : User) :
    (∃ row pair, issueTokenPair env user draw = .ok (row, pair)) ↔
      Representable
          (draw.issuedAt + days env.settings.refreshTokenExpireDays) ∧
        Representable
          (draw.signedAt + minutes env.settings.accessTokenExpireMinutes) := by
  constructor
  · rintro ⟨row, pair, h⟩
    rw [issueTokenPair, bind_eq_ok_iff] at h
    obtain ⟨expiresAt, hexpiry, h⟩ := h
    obtain ⟨accessToken, haccess, -⟩ := bind_eq_ok_iff.mp h
    rw [refreshTokenExpiry, representable_eq_ok_iff] at hexpiry
    rw [createAccessToken, bind_eq_ok_iff] at haccess
    obtain ⟨expire, hexpire, -⟩ := haccess
    exact ⟨hexpiry.1, (representable_eq_ok_iff.mp hexpire).1⟩
  · rintro ⟨hexpiry, hexpire⟩
    rw [issueTokenPair, refreshTokenExpiry, createAccessToken,
      representable_of hexpiry, representable_of hexpire]
    exact ⟨_, _, rfl⟩

/-! ## The table -/

namespace Database

def tokenByHash? (db : Database) : String → Option RefreshToken :=
  lookup RefreshToken.tokenHash db.refreshTokens

def tokenIds (db : Database) : List Uuid :=
  db.refreshTokens.map RefreshToken.id

/-- The tokens of the user that are not revoked. -/
def liveTokens (db : Database) (userId : Uuid) : List Uuid :=
  (db.refreshTokens.filter fun t =>
    t.userId = userId ∧ t.revokedAt = none).map RefreshToken.id

end Database

/-- `revoked_at` set in the rows with these keys. -/
def revokeTokens (ids : List Uuid) (moment : ℤ) (db : Database) : Database :=
  { db with
    refreshTokens := db.refreshTokens.map fun t =>
      if t.id ∈ ids then { t with revokedAt := some moment } else t }

/-- `INSERT INTO refresh_tokens`. -/
def insertRefreshToken (row : RefreshToken) (db : Database) :
    Except Raised Database :=
  if row.id ∈ db.tokenIds ∨ (db.tokenByHash? row.tokenHash).isSome then
    .error (.integrityError .unique)
  else if (db.user? row.userId).isNone then .error (.integrityError .foreignKey)
  else .ok { db with refreshTokens := db.refreshTokens ++ [row] }

/-- The flush of `refresh`: `UPDATE refresh_tokens SET revoked_at = ...` of the
row that was read, and the INSERT of the new one. -/
def rotateToken (id : Uuid) (moment : ℤ) (row : RefreshToken) (db : Database) :
    Except Raised Database :=
  if id ∈ db.tokenIds then insertRefreshToken row (revokeTokens [id] moment db)
  else .error .staleDataError

/-! ## The exchange -/

/-- `_load_refresh_token`. -/
def loadRefreshToken (env : Env) (rawToken : String) :
    Request RefreshToken := do
  let stored ← query (·.tokenByHash? (env.sha256 rawToken))
  rowOr (unauthorized "Invalid refresh token") stored

/-- `_revoke_all_for_user` and the commit after it.  The UPDATE picks its rows
when it runs. -/
def revokeAllForUser (userId : Uuid) (moment : ℤ) : Request Unit := do
  let live ← query (·.liveTokens userId)
  write fun db => .ok (revokeTokens live moment db)

/-- `refresh`. -/
def refresh (env : Env) (rawToken : String) (draw : TokenDraw) :
    Request TokenPair := do
  let stored ← loadRefreshToken env rawToken
  if stored.revokedAt.isSome then
    revokeAllForUser stored.userId draw.revokedAt
    raise (unauthorized
      "Refresh token has already been used; all sessions were revoked")
  else
    require (draw.checkedAt < stored.expiresAt)
      (unauthorized "Refresh token has expired")
    let user ← query (·.user? stored.userId)
    let user ← rowOr (unauthorized "This account has been deactivated")
      (user.filter (·.isActive))
    let (row, pair) ← ofExcept (issueTokenPair env user draw)
    write (rotateToken stored.id draw.revokedAt row)
    pure pair

/-! ## What the writes do to the table -/

section

variable {db db' : Database} {hash : String}

@[simp] theorem tokenIds_revokeTokens
    (ids : List Uuid) (moment : ℤ) (db : Database) :
    (revokeTokens ids moment db).tokenIds = db.tokenIds := by
  rw [revokeTokens, Database.tokenIds]
  rw [List.map_map]
  apply List.map_congr_left
  intro t _
  by_cases ht : t.id ∈ ids
  · simp [ht]
  · simp [ht]

theorem tokenHashes_revokeTokens
    (ids : List Uuid) (moment : ℤ) (db : Database) :
    (revokeTokens ids moment db).refreshTokens.map RefreshToken.tokenHash =
      db.refreshTokens.map RefreshToken.tokenHash := by
  rw [revokeTokens]
  rw [List.map_map]
  apply List.map_congr_left
  intro t _
  by_cases ht : t.id ∈ ids
  · simp [ht]
  · simp [ht]

theorem tokenByHash?_revokeTokens
    (ids : List Uuid) (moment : ℤ) (db : Database) (hash : String) :
    (revokeTokens ids moment db).tokenByHash? hash =
      (db.tokenByHash? hash).map fun t =>
        if t.id ∈ ids then { t with revokedAt := some moment } else t := by
  apply lookup_map
  intro t
  by_cases ht : t.id ∈ ids
  · simp [ht]
  · simp [ht]

theorem mem_liveTokens {userId id : Uuid} :
    id ∈ db.liveTokens userId ↔ ∃ t ∈ db.refreshTokens,
      t.userId = userId ∧ t.revokedAt = none ∧ t.id = id := by
  rw [Database.liveTokens, List.mem_map]
  simp only [List.mem_filter, decide_eq_true_eq]
  tauto

/-- Revoking leaves alive what was alive and is not revoked. -/
theorem mem_liveTokens_revokeTokens
    {ids : List Uuid} {moment : ℤ} {userId id : Uuid} :
    id ∈ (revokeTokens ids moment db).liveTokens userId ↔
      id ∈ db.liveTokens userId ∧ id ∉ ids := by
  rw [mem_liveTokens, mem_liveTokens, revokeTokens]
  simp only [List.mem_map]
  constructor
  · rintro ⟨_, ⟨t, ht, rfl⟩, huser, hlive, hid⟩
    by_cases hmem : t.id ∈ ids
    · rw [if_pos hmem] at hlive
      simp at hlive
    · rw [if_neg hmem] at huser hlive hid
      exact ⟨⟨t, ht, huser, hlive, hid⟩, hid ▸ hmem⟩
  · rintro ⟨⟨t, ht, huser, hlive, hid⟩, hmem⟩
    rw [← hid] at hmem
    exact ⟨t, ⟨t, ht, if_neg hmem⟩, huser, hlive, hid⟩

theorem insertRefreshToken_eq_ok {row : RefreshToken}
    (h : insertRefreshToken row db = .ok db') :
    row.id ∉ db.tokenIds ∧
      db' = { db with refreshTokens := db.refreshTokens ++ [row] } := by
  rw [insertRefreshToken] at h
  split at h
  · simp at h
  next hfresh =>
    split at h
    · simp at h
    · exact ⟨fun hid => hfresh (Or.inl hid), (Except.ok.inj h).symm⟩

/-- A rotation revokes the row it names and adds one with a new key. -/
theorem rotateToken_eq_ok {id : Uuid} {moment : ℤ} {row : RefreshToken}
    (h : rotateToken id moment row db = .ok db') :
    row.id ∉ db.tokenIds ∧ db'.tokenIds = db.tokenIds ++ [row.id] ∧
      ∀ t, db.tokenByHash? hash = some t → t.id = id →
        db'.tokenByHash? hash = some { t with revokedAt := some moment } := by
  rw [rotateToken] at h
  split at h
  · obtain ⟨hfresh, rfl⟩ := insertRefreshToken_eq_ok h
    rw [tokenIds_revokeTokens] at hfresh
    refine ⟨hfresh, ?_, fun t ht hid => lookup_append_of_some ?_⟩
    · rw [← tokenIds_revokeTokens [id] moment db]
      simp [Database.tokenIds]
    · have hrow := tokenByHash?_revokeTokens [id] moment db hash
      rw [ht, Option.map_some, if_pos (List.mem_singleton.mpr hid)] at hrow
      exact hrow
  · simp at h

/-- A rotation to a new row of a stored user is accepted. -/
theorem exists_rotateToken {id : Uuid} {moment : ℤ} {row : RefreshToken}
    (hid : id ∈ db.tokenIds) (hnew : row.id ∉ db.tokenIds)
    (hhash : db.tokenByHash? row.tokenHash = none)
    (huser : (db.user? row.userId).isSome) :
    ∃ db', rotateToken id moment row db = .ok db' := by
  have huser' : ((revokeTokens [id] moment db).user? row.userId).isNone ≠ true := by
    intro hnone
    have hmissing : db.user? row.userId = none :=
      Option.isNone_iff_eq_none.mp hnone
    rw [hmissing] at huser
    simp at huser
  rw [rotateToken, if_pos hid, insertRefreshToken, tokenIds_revokeTokens,
    tokenByHash?_revokeTokens, hhash, if_neg (by simp [hnew]), if_neg huser']
  exact ⟨_, rfl⟩

end

/-- A draw whose clock readings are all the same. -/
def Sample.draw (id : Uuid) (secret : String) (moment : ℤ) : TokenDraw where
  id := id
  secret := secret
  jti := id
  checkedAt := moment
  revokedAt := moment
  issuedAt := moment
  signedAt := moment

end BarberHub
