import BarberHub.Accounts.Tokens
import BarberHub.Directory.Updates

/-!
# Sessions

`register`, `login` and `logout` of `app/services/auth.py`, next to the
exchange of a refresh token.  The email column is case-insensitive, so emails
are compared by their lower-cased form.
-/

namespace BarberHub

open KeyedTable ReadCommitted Program Fallible

/-! ## Payloads and answers -/

/-- `RegisterRequest`, as far as `register` reads it. -/
structure RegisterRequest where
  firstName : String
  lastName : String
  email : String
  phone : Option String
  password : String
  role : UserRole
  /-- `SelfAssignableRole`. -/
  role_selfAssignable : role = .customer ∨ role = .shopOwner

structure UserRead where
  id : Uuid
  firstName : String
  lastName : String
  email : String
  phone : Option String
  role : UserRole
  isActive : Bool
  createdAt : ℤ
  deriving DecidableEq, Repr

/-- `UserRead.model_validate`. -/
def User.read (user : User) : UserRead where
  id := user.id
  firstName := user.firstName
  lastName := user.lastName
  email := user.email
  phone := user.phone
  role := user.role
  isActive := user.isActive
  createdAt := user.createdAt

structure AuthResponse extends TokenPair where
  user : UserRead
  deriving DecidableEq, Repr

/-! ## The table -/

namespace Database

/-- The account with an email, as the column compares them. -/
def userByEmail? (env : Env) (db : Database) (email : String) : Option User :=
  lookup (fun user : User => env.lower user.email) db.users (env.lower email)

end Database

/-- `INSERT INTO users`. -/
def insertUser (env : Env) (row : User) (db : Database) :
    Except Raised Database := do
  enforce (db.user? row.id = none) .unique
  enforce (db.userByEmail? env row.email = none) .unique
  pure { db with users := db.users ++ [row] }

/-- `UPDATE users SET password_hash = ...`. -/
def updatePasswordHash (id : Uuid) (hash : String) (db : Database) :
    Except Raised Database :=
  if (db.user? id).isSome then
    .ok { db with
      users := updateAt User.id id (fun user => { user with passwordHash := hash })
        db.users }
  else .error .staleDataError

/-! ## The operations -/

/-- The row `register` adds. -/
def RegisterRequest.row (payload : RegisterRequest) (env : Env) (id : Uuid)
    (salt : String) (createdAt : ℤ) : User where
  id := id
  firstName := payload.firstName
  lastName := payload.lastName
  email := payload.email
  phone := payload.phone
  passwordHash := env.hashPassword salt payload.password
  role := payload.role
  isActive := true
  createdAt := createdAt

/-- The flush of the account, whose `IntegrityError` becomes a
`ConflictError`. -/
def flushAccount (env : Env) (user : User) (db : Database) :
    Except Raised Database :=
  match insertUser env user db with
  | .error (.integrityError _) =>
      .error (conflict "An account with this email already exists")
  | result => result

/-- `register`.  Account and token are flushed one after the other in one
transaction. -/
def register (env : Env) (payload : RegisterRequest) (id : Uuid)
    (salt : String) (createdAt : ℤ) (draw : TokenDraw) :
    Request AuthResponse := do
  let user := payload.row env id salt createdAt
  write fun db => do
    let db ← flushAccount env user db
    let (row, _) ← issueTokenPair env user draw
    insertRefreshToken row db
  let (_, pair) ← ofExcept (issueTokenPair env user draw)
  pure { pair with user := user.read }

/-- The flush of `user.password_hash`, assigned when `needs_rehash` says so. -/
def flushRehash (env : Env) (user : User) (password salt : String)
    (db : Database) : Except Raised Database :=
  if env.needsRehash user.passwordHash then
    updatePasswordHash user.id (env.hashPassword salt password) db
  else .ok db

def login (env : Env) (email password salt : String) (draw : TokenDraw) :
    Request AuthResponse := do
  let found ← query fun db => db.userByEmail? env email
  let user ← rowOr (unauthorized "Incorrect email or password")
    (found.filter fun user => env.verifyPassword password user.passwordHash)
  require (user.isActive = true)
    (unauthorized "This account has been deactivated")
  let (row, pair) ← ofExcept (issueTokenPair env user draw)
  write fun db => do
    let db ← flushRehash env user password salt db
    insertRefreshToken row db
  pure { pair with user := user.read }

/-- The flush of one `revoked_at`. -/
def revokeToken (id : Uuid) (moment : ℤ) (db : Database) :
    Except Raised Database :=
  if id ∈ db.tokenIds then .ok (revokeTokens [id] moment db)
  else .error .staleDataError

def logout (env : Env) (rawToken : String) (moment : ℤ) : Request Unit := do
  let stored ← loadRefreshToken env rawToken
  if stored.revokedAt.isSome then pure ()
  else write (revokeToken stored.id moment)

section

variable {env : Env} {db db' : Database}

theorem insertUser_eq_ok {row : User} (h : insertUser env row db = .ok db') :
    db' = { db with users := db.users ++ [row] } := by
  rw [insertUser] at h
  simp only [bind_eq_ok_iff] at h
  obtain ⟨_, -, _, -, h⟩ := h
  exact (Except.ok.inj h).symm

theorem flushAccount_eq_ok {user : User}
    (h : flushAccount env user db = .ok db') :
    db' = { db with users := db.users ++ [user] } := by
  rw [flushAccount] at h
  split at h
  · simp at h
  · exact insertUser_eq_ok h

/-- A new password hash touches no token. -/
theorem refreshTokens_flushRehash {user : User} {password salt : String}
    (h : flushRehash env user password salt db = .ok db') :
    db'.refreshTokens = db.refreshTokens := by
  rw [flushRehash] at h
  split at h
  · rw [updatePasswordHash] at h
    split at h
    · rw [← Except.ok.inj h]
    · simp at h
  · rw [← Except.ok.inj h]

end

/-! ## Any of them -/

/-- An operation on the sessions of an account, with what the random generators
and the clock give it. -/
inductive SessionOp where
  | login (email password salt : String) (draw : TokenDraw)
  | refresh (rawToken : String) (draw : TokenDraw)
  | logout (rawToken : String) (moment : ℤ)

inductive AuthOp where
  | register (payload : RegisterRequest) (id : Uuid) (salt : String)
      (createdAt : ℤ) (draw : TokenDraw)
  | session (op : SessionOp)

/-- What an operation draws, if it may issue a token. -/
def AuthOp.draw? : AuthOp → Option TokenDraw
  | register _ _ _ _ draw => some draw
  | session (.login _ _ _ draw) => some draw
  | session (.refresh _ draw) => some draw
  | session (.logout _ _) => none

/-- The token an operation presents. -/
def AuthOp.presented? : AuthOp → Option String
  | session (.refresh rawToken _) => some rawToken
  | session (.logout rawToken _) => some rawToken
  | _ => none

/-- What an operation answers. -/
inductive AuthAnswer where
  | registered (response : AuthResponse)
  | loggedIn (response : AuthResponse)
  | refreshed (pair : TokenPair)
  | loggedOut
  deriving DecidableEq, Repr

/-- The token pair in an answer. -/
def AuthAnswer.pair? : AuthAnswer → Option TokenPair
  | registered response => some response.toTokenPair
  | loggedIn response => some response.toTokenPair
  | refreshed pair => some pair
  | loggedOut => none

def SessionOp.transaction (env : Env) : SessionOp → Request AuthAnswer
  | login email password salt draw => do
      let response ← BarberHub.login env email password salt draw
      pure (.loggedIn response)
  | refresh rawToken draw => do
      let pair ← BarberHub.refresh env rawToken draw
      pure (.refreshed pair)
  | logout rawToken moment => do
      BarberHub.logout env rawToken moment
      pure .loggedOut

def AuthOp.transaction (env : Env) : AuthOp → Request AuthAnswer
  | register payload id salt createdAt draw => do
      let response ← BarberHub.register env payload id salt createdAt draw
      pure (.registered response)
  | session op => op.transaction env

/-! ## Executed alone -/

/-- What an operation executed alone answers, and the tokens it leaves. -/
inductive Effect (env : Env) (db : Database) :
    AuthOp → Except Raised AuthAnswer → List RefreshToken → Prop
  /-- No token is touched, and a refresh has not found its token revoked. -/
  | refused (op : AuthOp) (e : Raised)
      (hrefresh : ∀ rawToken draw stored,
        op = .session (.refresh rawToken draw) →
        db.tokenByHash? (env.sha256 rawToken) = some stored →
        stored.revokedAt = none)
      (hlogout : ∀ rawToken moment, op = .session (.logout rawToken moment) →
        db.tokenByHash? (env.sha256 rawToken) = none) :
      Effect env db op (.error e) db.refreshTokens
  | registered (payload : RegisterRequest) (id : Uuid) (salt : String)
      (createdAt : ℤ) (draw : TokenDraw) (response : AuthResponse)
      (user : User) (row : RefreshToken)
      (hissued : issueTokenPair env user draw = .ok (row, response.toTokenPair)) :
      Effect env db (.register payload id salt createdAt draw)
        (.ok (.registered response)) (db.refreshTokens ++ [row])
  | loggedIn (email password salt : String) (draw : TokenDraw)
      (response : AuthResponse) (user : User) (row : RefreshToken)
      (hissued : issueTokenPair env user draw = .ok (row, response.toTokenPair)) :
      Effect env db (.session (.login email password salt draw))
        (.ok (.loggedIn response)) (db.refreshTokens ++ [row])
  | rotated (rawToken : String) (draw : TokenDraw) (stored : RefreshToken)
      (user : User) (row : RefreshToken) (pair : TokenPair)
      (hstored : db.tokenByHash? (env.sha256 rawToken) = some stored)
      (hlive : stored.revokedAt = none)
      (hissued : issueTokenPair env user draw = .ok (row, pair)) :
      Effect env db (.session (.refresh rawToken draw)) (.ok (.refreshed pair))
        ((revokeTokens [stored.id] draw.revokedAt db).refreshTokens ++ [row])
  | replayed (rawToken : String) (draw : TokenDraw) (stored : RefreshToken)
      (e : Raised)
      (hstored : db.tokenByHash? (env.sha256 rawToken) = some stored)
      (hrevoked : stored.revokedAt.isSome) :
      Effect env db (.session (.refresh rawToken draw)) (.error e)
        (revokeTokens (db.liveTokens stored.userId) draw.revokedAt
          db).refreshTokens
  | loggedOut (rawToken : String) (moment : ℤ) (stored : RefreshToken)
      (ids : List Uuid)
      (hstored : db.tokenByHash? (env.sha256 rawToken) = some stored)
      (hids : ids = if stored.revokedAt.isSome then [] else [stored.id]) :
      Effect env db (.session (.logout rawToken moment)) (.ok .loggedOut)
        (revokeTokens ids moment db).refreshTokens

section

variable {env : Env} {db : Database}

@[simp] theorem revokeTokens_nil (moment : ℤ) : revokeTokens [] moment db = db := by
  simp [revokeTokens]

/-- Neither a refresh nor a logout. -/
theorem effect_refused {op : AuthOp} (e : Raised) (h : op.presented? = none) :
    Effect env db op (.error e) db.refreshTokens := by
  refine .refused op e ?_ ?_
  · intro rawToken draw stored hop
    rw [hop] at h
    simp [AuthOp.presented?] at h
  · intro rawToken moment hop
    rw [hop] at h
    simp [AuthOp.presented?] at h

theorem effect_register (payload : RegisterRequest) (id : Uuid)
    (salt : String) (createdAt : ℤ) (draw : TokenDraw) :
    Effect env db (.register payload id salt createdAt draw)
      (((AuthOp.register payload id salt createdAt draw).transaction env).run
        db).1
      (((AuthOp.register payload id salt createdAt draw).transaction env).run
        db).2.refreshTokens := by
  rw [AuthOp.transaction, register]
  simp only [bind_bind]
  rw [write_bind]
  rcases run_commit_cases _ _ db with ⟨e, -, hrun⟩ | ⟨db', hw, hrun⟩
  · rw [hrun]
    exact effect_refused e rfl
  · obtain ⟨t, haccount, hw⟩ := bind_eq_ok_iff.mp hw
    obtain ⟨⟨row, pair⟩, hissued, hinsert⟩ := bind_eq_ok_iff.mp hw
    obtain ⟨-, rfl⟩ := insertRefreshToken_eq_ok hinsert
    obtain rfl := flushAccount_eq_ok haccount
    rw [hrun, hissued, ofExcept_ok_bind]
    exact .registered payload id salt createdAt draw _ _ row hissued

theorem effect_login (email password salt : String) (draw : TokenDraw) :
    Effect env db (.session (.login email password salt draw))
      (((SessionOp.login email password salt draw).transaction env).run db).1
      (((SessionOp.login email password salt draw).transaction env).run
        db).2.refreshTokens := by
  have hrefused : ∀ e, Effect env db
      (.session (.login email password salt draw)) (.error e) db.refreshTokens :=
    fun e => effect_refused e rfl
  rw [SessionOp.transaction, login]
  simp only [bind_bind]
  rw [query_bind, run_read]
  cases (db.userByEmail? env email).filter fun user =>
      env.verifyPassword password user.passwordHash with
  | none => exact hrefused _
  | some user =>
      rw [rowOr, pure_eq_done, done_ok_bind, require]
      by_cases hactive : user.isActive = true
      · rw [if_pos hactive, pure_eq_done, done_ok_bind]
        cases hissued : issueTokenPair env user draw with
        | error e => exact hrefused e
        | ok issued =>
            obtain ⟨row, pair⟩ := issued
            rw [ofExcept_ok_bind, write_bind]
            rcases run_commit_cases _ _ db with ⟨e, -, hrun⟩ | ⟨db', hw, hrun⟩
            · rw [hrun]
              exact hrefused e
            · obtain ⟨t, hrehash, hinsert⟩ := bind_eq_ok_iff.mp hw
              obtain ⟨-, rfl⟩ := insertRefreshToken_eq_ok hinsert
              have h : Effect env db _ _ (db.refreshTokens ++ [row]) :=
                .loggedIn email password salt draw
                  { pair with user := user.read } user row hissued
              rw [← refreshTokens_flushRehash hrehash] at h
              rw [hrun]
              exact h
      · rw [if_neg hactive, raise_bind]
        exact hrefused _

theorem effect_refresh (rawToken : String) (draw : TokenDraw) :
    Effect env db (.session (.refresh rawToken draw))
      (((SessionOp.refresh rawToken draw).transaction env).run db).1
      (((SessionOp.refresh rawToken draw).transaction env).run
        db).2.refreshTokens := by
  have hrefused : ∀ e, (∀ stored,
      db.tokenByHash? (env.sha256 rawToken) = some stored →
        stored.revokedAt = none) →
      Effect env db (.session (.refresh rawToken draw)) (.error e)
        db.refreshTokens := by
    intro e h
    refine .refused _ e ?_ ?_
    · intro raw _ stored hop hstored
      obtain ⟨rfl, -⟩ := SessionOp.refresh.inj (AuthOp.session.inj hop)
      exact h stored hstored
    · intro _ _ hop
      simp at hop
  rw [SessionOp.transaction, refresh, loadRefreshToken]
  simp only [bind_bind]
  rw [query_bind, run_read]
  cases hstored : db.tokenByHash? (env.sha256 rawToken) with
  | none => exact hrefused _ fun stored h => by simp [hstored] at h
  | some stored =>
      rw [rowOr, pure_eq_done, done_ok_bind]
      by_cases hrevoked : stored.revokedAt.isSome
      · rw [if_pos hrevoked, revokeAllForUser]
        exact .replayed rawToken draw stored _ hstored hrevoked
      · have hnone : stored.revokedAt = none := by simpa using hrevoked
        have hlive : ∀ stored', db.tokenByHash? (env.sha256 rawToken) =
            some stored' → stored'.revokedAt = none := by
          intro stored' h
          rw [hstored] at h
          obtain rfl := Option.some.inj h
          exact hnone
        rw [if_neg hrevoked, bind_bind, require]
        by_cases hexpired : draw.checkedAt < stored.expiresAt
        · rw [if_pos hexpired, pure_eq_done, done_ok_bind]
          simp only [bind_bind]
          rw [query_bind, run_read]
          cases (db.user? stored.userId).filter (·.isActive) with
          | none => exact hrefused _ hlive
          | some user =>
              rw [rowOr, pure_eq_done, done_ok_bind]
              cases hissued : issueTokenPair env user draw with
              | error e => exact hrefused e hlive
              | ok issued =>
                  obtain ⟨row, pair⟩ := issued
                  rw [ofExcept_ok_bind, write_bind]
                  rcases run_commit_cases _ _ db with
                    ⟨e, -, hrun⟩ | ⟨db', hw, hrun⟩
                  · rw [hrun]
                    exact hrefused e hlive
                  · rw [rotateToken] at hw
                    split at hw
                    · obtain ⟨-, rfl⟩ := insertRefreshToken_eq_ok hw
                      rw [hrun]
                      exact .rotated rawToken draw stored user row pair hstored
                        hnone hissued
                    · simp at hw
        · rw [if_neg hexpired, raise_bind]
          exact hrefused _ hlive

theorem effect_logout (rawToken : String) (moment : ℤ) :
    Effect env db (.session (.logout rawToken moment))
      (((SessionOp.logout rawToken moment).transaction env).run db).1
      (((SessionOp.logout rawToken moment).transaction env).run
        db).2.refreshTokens := by
  rw [SessionOp.transaction, logout, loadRefreshToken]
  simp only [bind_bind]
  rw [query_bind, run_read]
  cases hstored : db.tokenByHash? (env.sha256 rawToken) with
  | none =>
      refine .refused _ _ (fun _ _ _ hop => by simp at hop) fun raw _ hop => ?_
      obtain ⟨rfl, -⟩ := SessionOp.logout.inj (AuthOp.session.inj hop)
      exact hstored
  | some stored =>
      rw [rowOr, pure_eq_done, done_ok_bind]
      have hmem : stored.id ∈ db.tokenIds :=
        List.mem_map_of_mem (mem_of_lookup hstored)
      by_cases hrevoked : stored.revokedAt.isSome
      · have h : Effect env db (.session (.logout rawToken moment))
            (.ok .loggedOut) (revokeTokens [] moment db).refreshTokens :=
          .loggedOut rawToken moment stored [] hstored (if_pos hrevoked).symm
        rw [revokeTokens_nil] at h
        rw [if_pos hrevoked]
        exact h
      · rw [if_neg hrevoked, write_bind]
        have hw : revokeToken stored.id moment db =
            .ok (revokeTokens [stored.id] moment db) := if_pos hmem
        rw [run_commit_ok hw]
        exact .loggedOut rawToken moment stored _ hstored
          (if_neg hrevoked).symm

/-- Every operation executed alone has one of the effects. -/
theorem effect_of_run (op : AuthOp) :
    Effect env db op ((op.transaction env).run db).1
      ((op.transaction env).run db).2.refreshTokens := by
  cases op with
  | register payload id salt createdAt draw =>
      exact effect_register payload id salt createdAt draw
  | session op =>
      cases op with
      | login email password salt draw =>
          exact effect_login email password salt draw
      | refresh rawToken draw => exact effect_refresh rawToken draw
      | logout rawToken moment => exact effect_logout rawToken moment

/-- When a refresh executed alone is answered a pair. -/
theorem run_refresh_eq_ok_iff
    {rawToken : String} {draw : TokenDraw} {pair : TokenPair} {db' : Database} :
    (refresh env rawToken draw).run db = (.ok pair, db') ↔
      ∃ stored, db.tokenByHash? (env.sha256 rawToken) = some stored ∧
        stored.revokedAt = none ∧ draw.checkedAt < stored.expiresAt ∧
        ∃ user, db.user? stored.userId = some user ∧ user.isActive = true ∧
          ∃ row, issueTokenPair env user draw = .ok (row, pair) ∧
            rotateToken stored.id draw.revokedAt row db = .ok db' := by
  rw [refresh, loadRefreshToken, bind_bind, query_bind, run_read,
    run_rowOr_bind_eq_ok_iff]
  refine exists_congr fun stored => and_congr_right fun _ => ?_
  by_cases hrevoked : stored.revokedAt.isSome
  · have hsome : stored.revokedAt ≠ none := Option.isSome_iff_ne_none.mp hrevoked
    rw [if_pos hrevoked, revokeAllForUser]
    simp [hsome, write, run, revokeTokens]
  · have hnone : stored.revokedAt = none := by simpa using hrevoked
    rw [if_neg hrevoked, run_require_bind_eq_ok_iff, query_bind, run_read,
      run_rowOr_bind_eq_ok_iff]
    simp only [hnone, true_and, Option.filter_eq_some_iff, and_assoc]
    refine and_congr_right fun _ => exists_congr fun user =>
      and_congr_right fun _ => and_congr_right fun _ => ?_
    rw [run_ofExcept_bind_eq_ok_iff]
    constructor
    · rintro ⟨⟨row, issued⟩, hissued, h⟩
      rw [write_bind] at h
      rcases run_commit_cases _ _ db with ⟨e, -, hrun⟩ | ⟨t, hw, hrun⟩
      · rw [hrun] at h
        simp at h
      · rw [hrun] at h
        simp only [pure_eq_done, run_done, Prod.mk.injEq, Except.ok.injEq] at h
        obtain ⟨rfl, rfl⟩ := h
        exact ⟨row, hissued, hw⟩
    · rintro ⟨row, hissued, hw⟩
      refine ⟨(row, pair), hissued, ?_⟩
      rw [write_bind, run_commit_ok hw]
      rfl

end

end BarberHub
