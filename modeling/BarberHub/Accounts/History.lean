import Mathlib.Data.List.Induction
import BarberHub.Accounts.Sessions

/-!
# The history of the token table

Operations on accounts and sessions, executed one after another.  A history
lists what was asked and answered, the latest first; which tokens are revoked
can be told from it without the table.  This module shows that the table and
the history agree, and so which tokens can still be exchanged.
-/

namespace BarberHub

open KeyedTable ReadCommitted Program Fallible

/-! ## Runs -/

/-- An operation and its answer. -/
structure Handled where
  op : AuthOp
  answer : Except Raised AuthAnswer

/-- What happens to the accounts: an operation, or an edit of the users by
somebody else. -/
inductive AuthEvent where
  | asked (op : AuthOp)
  | usersEdited (users : List User)

/-- The database and the history after one more event. -/
def handle (env : Env) (state : Database × List Handled) :
    AuthEvent → Database × List Handled
  | .asked op =>
      let (answer, db) := (op.transaction env).run state.1
      (db, ⟨op, answer⟩ :: state.2)
  | .usersEdited users => ({ state.1 with users := users }, state.2)

/-- The events in their order. -/
def handleAll (env : Env) (db : Database) (events : List AuthEvent) :
    Database × List Handled :=
  events.foldl (handle env) (db, [])

def AuthEvent.op? : AuthEvent → Option AuthOp
  | asked op => some op
  | usersEdited _ => none

/-- The random generators draw no id and no secret twice, and no two strings
that are issued or presented have the same hash. -/
structure DistinctDraws (env : Env) (ops : List AuthOp) : Prop where
  ids : ((ops.filterMap AuthOp.draw?).map TokenDraw.id).Nodup
  secrets : ((ops.filterMap AuthOp.draw?).map TokenDraw.secret).Nodup
  hashes : ∀ a b,
    (a ∈ (ops.filterMap AuthOp.draw?).map TokenDraw.secret ∨
      a ∈ ops.filterMap AuthOp.presented?) →
    (b ∈ (ops.filterMap AuthOp.draw?).map TokenDraw.secret ∨
      b ∈ ops.filterMap AuthOp.presented?) →
    env.sha256 a = env.sha256 b → a = b

/-! ## What a history tells -/

namespace Handled

/-- The answer hands out the token, for the user and until the moment given. -/
def Issues (env : Env) (h : Handled) (token : String) (userId : Uuid)
    (expiresAt : ℤ) : Prop :=
  ∃ answer pair draw, h.answer = .ok answer ∧ answer.pair? = some pair ∧
    h.op.draw? = some draw ∧ pair.refreshToken = token ∧
    pair.accessToken.sub = userId ∧ refreshTokenExpiry env draw = .ok expiresAt

/-- A successful refresh with the token, or a logout with it. -/
def Spends (h : Handled) (token : String) : Prop :=
  (∃ draw pair, h.op = .session (.refresh token draw) ∧
    h.answer = .ok (.refreshed pair)) ∨
  ∃ moment, h.op = .session (.logout token moment)

/-- A refresh with the token, successful or not. -/
def Refreshes (h : Handled) (token : String) : Prop :=
  ∃ draw, h.op = .session (.refresh token draw)

end Handled

def IssuedTo (env : Env) (history : List Handled) (token : String)
    (userId : Uuid) : Prop :=
  ∃ h ∈ history, ∃ expiresAt, h.Issues env token userId expiresAt

/-- The token was spent, or another token of its user was presented to a
refresh when that one was revoked already. -/
def Revoked (env : Env) : List Handled → String → Prop
  | [], _ => False
  | h :: past, token =>
      Revoked env past token ∨
        ∃ userId, IssuedTo env past token userId ∧
          (h.Spends token ∨ ∃ other, h.Refreshes other ∧
            IssuedTo env past other userId ∧ Revoked env past other)

/-- The token was issued, has not expired, its account is active, and since
then it was neither spent nor revoked with the others of its user. -/
def Usable (env : Env) (db : Database) (history : List Handled)
    (token : String) (now : ℤ) : Prop :=
  ∃ since h before userId expiresAt user,
    history = since ++ h :: before ∧ h.Issues env token userId expiresAt ∧
    now < expiresAt ∧ db.user? userId = some user ∧ user.isActive = true ∧
    ∀ later h' earlier, since = later ++ h' :: earlier →
      ¬ h'.Spends token ∧
      ∀ other, h'.Refreshes other →
        IssuedTo env (earlier ++ h :: before) other userId →
        ¬ Revoked env (earlier ++ h :: before) other

/-! ## Histories -/

section

variable {env : Env} {history past : List Handled} {h : Handled}
  {token : String} {userId : Uuid}

theorem IssuedTo.later (hissued : IssuedTo env past token userId)
    (later : List Handled) : IssuedTo env (later ++ past) token userId := by
  obtain ⟨h, hmem, expiresAt, hissues⟩ := hissued
  exact ⟨h, List.mem_append_right _ hmem, expiresAt, hissues⟩

theorem revoked_cons :
    Revoked env (h :: past) token ↔ Revoked env past token ∨
      ∃ userId, IssuedTo env past token userId ∧
        (h.Spends token ∨ ∃ other, h.Refreshes other ∧
          IssuedTo env past other userId ∧ Revoked env past other) :=
  Iff.rfl

/-- Only a token that was issued can have been revoked. -/
theorem Revoked.issued (hrevoked : Revoked env history token) :
    ∃ userId, IssuedTo env history token userId := by
  induction history with
  | nil => exact hrevoked.elim
  | cons h past ih =>
      have hissued : ∃ userId, IssuedTo env past token userId := by
        rcases revoked_cons.mp hrevoked with hpast | ⟨userId, hissued, -⟩
        · exact ih hpast
        · exact ⟨userId, hissued⟩
      obtain ⟨userId, hissued⟩ := hissued
      exact ⟨userId, hissued.later [h]⟩

/-- A token that is issued once is revoked by what happens after that. -/
theorem revoked_iff_since
    {since before : List Handled} {expiresAt : ℤ}
    (hissues : h.Issues env token userId expiresAt)
    (honce : ∀ other, ¬ IssuedTo env before token other)
    (huser : ∀ other, IssuedTo env (since ++ h :: before) token other →
      other = userId) :
    Revoked env (since ++ h :: before) token ↔
      ∃ later h' earlier, since = later ++ h' :: earlier ∧
        (h'.Spends token ∨ ∃ other, h'.Refreshes other ∧
          IssuedTo env (earlier ++ h :: before) other userId ∧
          Revoked env (earlier ++ h :: before) other) := by
  induction since with
  | nil =>
      constructor
      · intro hrevoked
        rcases revoked_cons.mp hrevoked with hbefore | ⟨other, hissued, -⟩
        · obtain ⟨other, hissued⟩ := hbefore.issued
          exact absurd hissued (honce other)
        · exact absurd hissued (honce other)
      · rintro ⟨later, h', earlier, heq, -⟩
        simp at heq
  | cons first since ih =>
      have hpast := ih fun other hissued => huser other (hissued.later [first])
      rw [List.cons_append, revoked_cons, hpast]
      constructor
      · rintro (⟨later, h', earlier, rfl, hkills⟩ | ⟨other, hissued, hkills⟩)
        · exact ⟨first :: later, h', earlier, rfl, hkills⟩
        · obtain rfl := huser other (hissued.later [first])
          exact ⟨[], first, since, rfl, hkills⟩
      · rintro ⟨later, h', earlier, heq, hkills⟩
        cases later with
        | nil =>
            obtain ⟨rfl, rfl⟩ := List.cons.inj heq
            have hissued : IssuedTo env (since ++ h :: before) token userId :=
              ⟨h, by simp, expiresAt, hissues⟩
            exact Or.inr ⟨userId, hissued, hkills⟩
        | cons head later =>
            obtain ⟨rfl, rfl⟩ := List.cons.inj heq
            exact Or.inl ⟨later, h', earlier, rfl, hkills⟩

end

/-! ## The table and the history -/

/-- The table holds the tokens that were issued, and `revoked_at` is set in
those that the history says are revoked. -/
structure Ledger (env : Env) (history : List Handled) (db : Database) :
    Prop where
  ids : UniqueKeys RefreshToken.id db.refreshTokens
  hashes : UniqueKeys RefreshToken.tokenHash db.refreshTokens
  rows : ∀ row ∈ db.refreshTokens, ∃ h ∈ history, ∃ draw,
    h.op.draw? = some draw ∧ row.id = draw.id ∧
      row.tokenHash = env.sha256 draw.secret ∧
      h.Issues env draw.secret row.userId row.expiresAt
  secrets : ∀ h ∈ history, ∀ token userId expiresAt,
    h.Issues env token userId expiresAt →
    ∃ draw, h.op.draw? = some draw ∧ draw.secret = token
  stored : ∀ h ∈ history, ∀ token userId expiresAt,
    h.Issues env token userId expiresAt →
    ∃ row, db.tokenByHash? (env.sha256 token) = some row ∧
      row.userId = userId ∧ row.expiresAt = expiresAt ∧
      (row.revokedAt.isSome ↔ Revoked env history token)
  once : ∀ since h before token userId expiresAt other,
    history = since ++ h :: before → h.Issues env token userId expiresAt →
    ¬ IssuedTo env before token other

/-- What an operation draws is new, and what it presents has no hash in common
with another token. -/
structure FreshFor (env : Env) (history : List Handled) (op : AuthOp) :
    Prop where
  draw : ∀ draw, op.draw? = some draw → ∀ h ∈ history, ∀ old,
    h.op.draw? = some old →
    draw.id ≠ old.id ∧ env.sha256 draw.secret ≠ env.sha256 old.secret
  presented : ∀ raw, op.presented? = some raw → ∀ h ∈ history, ∀ old,
    h.op.draw? = some old → env.sha256 old.secret = env.sha256 raw →
    old.secret = raw

namespace Ledger

variable {env : Env} {history : List Handled} {db db' : Database}
  {h : Handled} {token : String} {userId : Uuid}

theorem of_issuedTo (hledger : Ledger env history db)
    (hissued : IssuedTo env history token userId) :
    ∃ row, db.tokenByHash? (env.sha256 token) = some row ∧
      row.userId = userId ∧
      (row.revokedAt.isSome ↔ Revoked env history token) := by
  obtain ⟨h, hmem, expiresAt, hissues⟩ := hissued
  obtain ⟨row, hrow, huser, -, hrevoked⟩ :=
    hledger.stored h hmem token userId expiresAt hissues
  exact ⟨row, hrow, huser, hrevoked⟩

/-- A token that was presented and found was issued. -/
theorem issuedTo_of_presented
    (hledger : Ledger env history db) {op : AuthOp}
    (hfresh : FreshFor env history op) (hop : op.presented? = some token)
    {stored : RefreshToken}
    (hstored : db.tokenByHash? (env.sha256 token) = some stored) :
    IssuedTo env history token stored.userId := by
  obtain ⟨h, hmem, draw, hdraw, -, hhash, hissues⟩ :=
    hledger.rows stored (mem_of_lookup hstored)
  rw [key_of_lookup hstored] at hhash
  obtain rfl := hfresh.presented token hop h hmem draw hdraw hhash.symm
  exact ⟨h, hmem, stored.expiresAt, hissues⟩

/-- A token that was issued and has the id of the one presented is that
one. -/
theorem eq_of_id
    (hledger : Ledger env history db) {op : AuthOp} {raw : String}
    (hfresh : FreshFor env history op) (hop : op.presented? = some raw)
    {stored row : RefreshToken}
    (hstored : db.tokenByHash? (env.sha256 raw) = some stored)
    (hissued : IssuedTo env history token userId)
    (hrow : db.tokenByHash? (env.sha256 token) = some row)
    (hid : row.id = stored.id) : token = raw := by
  obtain rfl := hledger.ids.eq_of_mem (mem_of_lookup hrow)
    (mem_of_lookup hstored) hid
  obtain ⟨h, hmem, expiresAt, hissues⟩ := hissued
  obtain ⟨draw, hdraw, rfl⟩ := hledger.secrets h hmem token userId expiresAt
    hissues
  refine hfresh.presented raw hop h hmem draw hdraw ?_
  rw [← key_of_lookup hrow, ← key_of_lookup hstored]

/-- The secret that is drawn has not been issued. -/
theorem not_issued (hledger : Ledger env history db) {op : AuthOp}
    (hfresh : FreshFor env history op) {draw : TokenDraw}
    (hdraw : op.draw? = some draw) (userId : Uuid) :
    ¬ IssuedTo env history draw.secret userId := by
  rintro ⟨h, hmem, expiresAt, hissues⟩
  obtain ⟨old, hold, hsecret⟩ := hledger.secrets h hmem _ _ _ hissues
  have hne := (hfresh.draw draw hdraw h hmem old hold).2
  rw [hsecret] at hne
  exact hne rfl

/-- No row has the id or the secret that is drawn. -/
theorem ne_draw (hledger : Ledger env history db) {op : AuthOp}
    (hfresh : FreshFor env history op) {draw : TokenDraw}
    (hdraw : op.draw? = some draw) {row : RefreshToken}
    (hrow : row ∈ db.refreshTokens) :
    row.id ≠ draw.id ∧ row.tokenHash ≠ env.sha256 draw.secret := by
  obtain ⟨h, hmem, old, hold, hid, hhash, -⟩ := hledger.rows row hrow
  obtain ⟨hne, hne'⟩ := hfresh.draw draw hdraw h hmem old hold
  rw [hid, hhash]
  exact ⟨Ne.symm hne, Ne.symm hne'⟩

end Ledger

/-! ## One more operation -/

/-- The row an operation adds to the table, if it adds one. -/
inductive Adds (env : Env) (h : Handled) : List RefreshToken → Prop
  | none (hnone : ∀ token userId expiresAt,
      ¬ h.Issues env token userId expiresAt) : Adds env h []
  | one (user : User) (draw : TokenDraw) (row : RefreshToken) (pair : TokenPair)
      (answer : AuthAnswer) (hdraw : h.op.draw? = some draw)
      (hanswer : h.answer = .ok answer) (hpair : answer.pair? = some pair)
      (hissued : issueTokenPair env user draw = .ok (row, pair)) :
      Adds env h [row]

section

variable {env : Env} {history : List Handled} {db db' : Database}
  {h : Handled} {ids : List Uuid} {moment : ℤ} {added : List RefreshToken}

/-- What is issued is the row that is added. -/
theorem issues_iff_of_adds
    {user : User} {draw : TokenDraw} {row : RefreshToken} {pair : TokenPair}
    {answer : AuthAnswer} (hdraw : h.op.draw? = some draw)
    (hanswer : h.answer = .ok answer) (hpair : answer.pair? = some pair)
    (hissued : issueTokenPair env user draw = .ok (row, pair))
    {token : String} {userId : Uuid} {expiresAt : ℤ} :
    h.Issues env token userId expiresAt ↔
      draw.secret = token ∧ row.userId = userId ∧ row.expiresAt = expiresAt := by
  obtain ⟨hrow, hsecret, hsub⟩ := issueTokenPair_eq_ok hissued
  have hrepresentable := ((exists_issueTokenPair_iff user).mp ⟨row, pair, hissued⟩).1
  have hexpiry : refreshTokenExpiry env draw = .ok row.expiresAt := by
    rw [refreshTokenExpiry, representable_of hrepresentable, hrow]
  constructor
  · rintro ⟨answer', pair', draw', hanswer', hpair', hdraw', rfl, rfl, hexpiry'⟩
    rw [hanswer] at hanswer'
    obtain rfl := Except.ok.inj hanswer'
    obtain rfl := Option.some.inj (hpair.symm.trans hpair')
    obtain rfl := Option.some.inj (hdraw.symm.trans hdraw')
    rw [hexpiry] at hexpiry'
    exact ⟨hsecret.symm, by rw [hrow, hsub], Except.ok.inj hexpiry'⟩
  · rintro ⟨rfl, rfl, rfl⟩
    exact ⟨answer, pair, draw, hanswer, hpair, hdraw, hsecret,
      by rw [hsub, hrow], hexpiry⟩

theorem exists_draw_of_adds (hadds : Adds env h added)
    {token : String} {userId : Uuid} {expiresAt : ℤ}
    (hissues : h.Issues env token userId expiresAt) :
    ∃ draw, h.op.draw? = some draw ∧ draw.secret = token := by
  cases hadds with
  | none hnone => exact absurd hissues (hnone _ _ _)
  | one user draw row pair answer hdraw hanswer hpair hissued =>
      rw [issues_iff_of_adds hdraw hanswer hpair hissued] at hissues
      exact ⟨draw, hdraw, hissues.1⟩

/-- Setting `revoked_at` leaves the other columns as they are. -/
theorem exists_of_mem_revokeTokens
    {row : RefreshToken}
    (hrow : row ∈ (revokeTokens ids moment db).refreshTokens) :
    ∃ old ∈ db.refreshTokens, old.id = row.id ∧ old.tokenHash = row.tokenHash ∧
      old.userId = row.userId ∧ old.expiresAt = row.expiresAt := by
  obtain ⟨old, hold, rfl⟩ := List.mem_map.mp hrow
  refine ⟨old, hold, ?_⟩
  by_cases hmem : old.id ∈ ids
  · simp [hmem]
  · simp [hmem]

/-- A drawn secret and id are in no row, revoked or not. -/
theorem Ledger.ne_draw_revoked
    (hledger : Ledger env history db) (hfresh : FreshFor env history h.op)
    {draw : TokenDraw} (hdraw : h.op.draw? = some draw) {row : RefreshToken}
    (hrow : row ∈ (revokeTokens ids moment db).refreshTokens) :
    row.id ≠ draw.id ∧ row.tokenHash ≠ env.sha256 draw.secret := by
  obtain ⟨old, hold, hid, hhash, -⟩ := exists_of_mem_revokeTokens hrow
  rw [← hid, ← hhash]
  exact hledger.ne_draw hfresh hdraw hold

theorem Ledger.keys_step
    (hledger : Ledger env history db) (ids : List Uuid) (moment : ℤ)
    (hfresh : FreshFor env history h.op) (hadds : Adds env h added) :
    UniqueKeys RefreshToken.id
        ((revokeTokens ids moment db).refreshTokens ++ added) ∧
      UniqueKeys RefreshToken.tokenHash
        ((revokeTokens ids moment db).refreshTokens ++ added) := by
  have hids : UniqueKeys RefreshToken.id
      (revokeTokens ids moment db).refreshTokens := by
    have heq := tokenIds_revokeTokens ids moment db
    rw [Database.tokenIds, Database.tokenIds] at heq
    rw [UniqueKeys, heq]
    exact hledger.ids
  have hhashes : UniqueKeys RefreshToken.tokenHash
      (revokeTokens ids moment db).refreshTokens := by
    rw [UniqueKeys, tokenHashes_revokeTokens]
    exact hledger.hashes
  cases hadds with
  | none hnone =>
      rw [List.append_nil]
      exact ⟨hids, hhashes⟩
  | one user draw row pair answer hdraw hanswer hpair hissued =>
      have hrow := (issueTokenPair_eq_ok hissued).1
      constructor
      · apply hids.append_singleton
        intro old hold
        rw [hrow]
        exact (hledger.ne_draw_revoked hfresh hdraw hold).1
      · apply hhashes.append_singleton
        intro old hold
        rw [hrow]
        exact (hledger.ne_draw_revoked hfresh hdraw hold).2

theorem Ledger.rows_step
    (hledger : Ledger env history db) (hadds : Adds env h added)
    {row : RefreshToken}
    (hrow : row ∈ (revokeTokens ids moment db).refreshTokens ++ added) :
    ∃ h' ∈ h :: history, ∃ draw, h'.op.draw? = some draw ∧ row.id = draw.id ∧
      row.tokenHash = env.sha256 draw.secret ∧
      h'.Issues env draw.secret row.userId row.expiresAt := by
  rcases List.mem_append.mp hrow with hrow | hrow
  · obtain ⟨old, hold, hid, hhash, huser, hexpires⟩ :=
      exists_of_mem_revokeTokens hrow
    obtain ⟨h', hmem, draw, hdraw, hid', hhash', hissues⟩ :=
      hledger.rows old hold
    rw [huser, hexpires] at hissues
    exact ⟨h', List.mem_cons_of_mem _ hmem, draw, hdraw, hid ▸ hid',
      hhash ▸ hhash', hissues⟩
  · cases hadds with
    | none hnone => simp at hrow
    | one user draw added pair answer hdraw hanswer hpair hissued =>
        obtain rfl := List.mem_singleton.mp hrow
        have hadded := (issueTokenPair_eq_ok hissued).1
        refine ⟨h, List.mem_cons_self, draw, hdraw, ?_, ?_,
          (issues_iff_of_adds hdraw hanswer hpair hissued).mpr ⟨rfl, rfl, rfl⟩⟩
        · rw [hadded]
        · rw [hadded]

/-- The row of a token that was issued before. -/
theorem Ledger.stored_old
    (hledger : Ledger env history db) {h' : Handled} (hmem : h' ∈ history)
    {token : String} {userId : Uuid} {expiresAt : ℤ}
    (hissues : h'.Issues env token userId expiresAt)
    (htokens : db'.refreshTokens =
      (revokeTokens ids moment db).refreshTokens ++ added) :
    ∃ old row, db.tokenByHash? (env.sha256 token) = some old ∧
      db'.tokenByHash? (env.sha256 token) = some row ∧
      old.userId = userId ∧ row.userId = userId ∧ row.expiresAt = expiresAt ∧
      (old.revokedAt.isSome ↔ Revoked env history token) ∧
      (row.revokedAt.isSome ↔ old.revokedAt.isSome ∨ old.id ∈ ids) := by
  obtain ⟨old, hold, huser, hexpires, hrevoked⟩ :=
    hledger.stored h' hmem token userId expiresAt hissues
  have hfound := tokenByHash?_revokeTokens ids moment db (env.sha256 token)
  rw [hold, Option.map_some] at hfound
  refine ⟨old, _, hold, by
    rw [Database.tokenByHash?, htokens]
    exact lookup_append_of_some hfound, huser, ?_⟩
  by_cases hid : old.id ∈ ids
  · simp [hid, huser, hexpires, hrevoked]
  · simp [hid, huser, hexpires, hrevoked]

/-- The row of the token that is issued now: nothing has revoked it. -/
theorem Ledger.stored_new
    (hledger : Ledger env history db) (hfresh : FreshFor env history h.op)
    (hadds : Adds env h added) {token : String} {userId : Uuid} {expiresAt : ℤ}
    (hissues : h.Issues env token userId expiresAt)
    (htokens : db'.refreshTokens =
      (revokeTokens ids moment db).refreshTokens ++ added) :
    ∃ row, db'.tokenByHash? (env.sha256 token) = some row ∧
      row.userId = userId ∧ row.expiresAt = expiresAt ∧
      (row.revokedAt.isSome ↔ Revoked env (h :: history) token) := by
  cases hadds with
  | none hnone => exact absurd hissues (hnone _ _ _)
  | one user draw row pair answer hdraw hanswer hpair hissued =>
      obtain ⟨rfl, rfl, rfl⟩ :=
        (issues_iff_of_adds hdraw hanswer hpair hissued).mp hissues
      have hrow := (issueTokenPair_eq_ok hissued).1
      have hhash : env.sha256 draw.secret = row.tokenHash := by rw [hrow]
      have hlive : row.revokedAt = none := by rw [hrow]
      refine ⟨row, ?_, rfl, rfl, ?_⟩
      · rw [Database.tokenByHash?, htokens, hhash]
        refine lookup_append_singleton (lookup_eq_none_iff.mpr ?_)
        intro old hold
        rw [← hhash]
        exact (hledger.ne_draw_revoked hfresh hdraw hold).2
      · constructor
        · intro hrevoked
          rw [hlive] at hrevoked
          simp at hrevoked
        · intro hrevoked
          rcases revoked_cons.mp hrevoked with hpast | ⟨other, hother, -⟩
          · obtain ⟨other, hother⟩ := hpast.issued
            exact absurd hother (hledger.not_issued hfresh hdraw other)
          · exact absurd hother (hledger.not_issued hfresh hdraw other)

/-- The ledger is kept by an operation that revokes the rows which the history
then calls revoked. -/
theorem Ledger.step
    (hledger : Ledger env history db) (ids : List Uuid) (moment : ℤ)
    (hfresh : FreshFor env history h.op) (hadds : Adds env h added)
    (htokens : db'.refreshTokens =
      (revokeTokens ids moment db).refreshTokens ++ added)
    (hkills : ∀ token row, IssuedTo env history token row.userId →
      db.tokenByHash? (env.sha256 token) = some row →
      (row.revokedAt.isSome ↔ Revoked env history token) →
      (row.revokedAt.isSome ∨ row.id ∈ ids ↔
        Revoked env (h :: history) token)) :
    Ledger env (h :: history) db' := by
  obtain ⟨hids, hhashes⟩ := hledger.keys_step ids moment hfresh hadds
  refine {
    ids := htokens ▸ hids
    hashes := htokens ▸ hhashes
    rows := fun row hrow => hledger.rows_step hadds (htokens ▸ hrow)
    secrets := fun h' hmem token userId expiresAt hissues => ?_
    stored := fun h' hmem token userId expiresAt hissues => ?_
    once := fun since h' before token userId expiresAt other heq hissues => ?_ }
  · rcases List.mem_cons.mp hmem with rfl | hmem
    · exact exists_draw_of_adds hadds hissues
    · exact hledger.secrets h' hmem token userId expiresAt hissues
  · rcases List.mem_cons.mp hmem with rfl | hmem
    · exact hledger.stored_new hfresh hadds hissues htokens
    · obtain ⟨old, row, hold, hrow, rfl, huser, hexpires, hrevoked, hnow⟩ :=
        hledger.stored_old hmem hissues htokens
      refine ⟨row, hrow, huser, hexpires, hnow.trans ?_⟩
      exact hkills token old ⟨h', hmem, expiresAt, hissues⟩ hold hrevoked
  · cases since with
    | nil =>
        obtain ⟨rfl, rfl⟩ := List.cons.inj heq
        obtain ⟨draw, hdraw, rfl⟩ := exists_draw_of_adds hadds hissues
        exact hledger.not_issued hfresh hdraw other
    | cons first since =>
        obtain ⟨rfl, rfl⟩ := List.cons.inj heq
        exact hledger.once since h' before token userId expiresAt other rfl
          hissues

/-! ### The effects -/

theorem adds_error (op : AuthOp) (e : Raised) : Adds env ⟨op, .error e⟩ [] := by
  refine .none ?_
  intro token userId expiresAt hissues
  obtain ⟨answer, pair, draw, hanswer, -⟩ := hissues
  simp at hanswer

theorem Ledger.refused
    {op : AuthOp} (e : Raised) (hledger : Ledger env history db)
    (hfresh : FreshFor env history op)
    (hrefresh : ∀ raw draw stored, op = .session (.refresh raw draw) →
      db.tokenByHash? (env.sha256 raw) = some stored → stored.revokedAt = none)
    (hlogout : ∀ raw moment, op = .session (.logout raw moment) →
      db.tokenByHash? (env.sha256 raw) = none)
    (htokens : db'.refreshTokens = db.refreshTokens) :
    Ledger env (⟨op, .error e⟩ :: history) db' := by
  refine hledger.step [] 0 hfresh (adds_error op e) (by
    rw [revokeTokens_nil, List.append_nil, htokens])
    fun token row hissued hrow hrevoked => ?_
  rw [revoked_cons, ← hrevoked]
  constructor
  · rintro (hdead | hmem)
    · exact Or.inl hdead
    · simp at hmem
  · rintro (hdead | ⟨other, -, hspends | ⟨raw, ⟨draw, hop⟩, hraw, hdead⟩⟩)
    · exact Or.inl hdead
    · rcases hspends with ⟨draw, pair, -, hanswer⟩ | ⟨moment, hop⟩
      · simp at hanswer
      · rw [hlogout token moment hop] at hrow
        simp at hrow
    · obtain ⟨stored, hstored, -, hdead'⟩ := hledger.of_issuedTo hraw
      have hlive := hrefresh raw draw stored hop hstored
      rw [← hdead', hlive] at hdead
      simp at hdead

/-- A pair that is handed out without a token being spent. -/
theorem Ledger.issued
    (hledger : Ledger env history db) (hfresh : FreshFor env history h.op)
    (hadds : Adds env h added) (hspends : ∀ token, ¬ h.Spends token)
    (hrefreshes : ∀ token, ¬ h.Refreshes token)
    (htokens : db'.refreshTokens = db.refreshTokens ++ added) :
    Ledger env (h :: history) db' := by
  refine hledger.step [] 0 hfresh hadds (by rw [revokeTokens_nil, htokens])
    fun token row hissued hrow hrevoked => ?_
  rw [revoked_cons, ← hrevoked]
  simp [hspends, hrefreshes]

theorem Ledger.rotated
    (hledger : Ledger env history db) (raw : String) (draw : TokenDraw)
    {stored row : RefreshToken} {user : User} {pair : TokenPair}
    (hfresh : FreshFor env history (.session (.refresh raw draw)))
    (hstored : db.tokenByHash? (env.sha256 raw) = some stored)
    (hlive : stored.revokedAt = none)
    (hissued : issueTokenPair env user draw = .ok (row, pair))
    (htokens : db'.refreshTokens =
      (revokeTokens [stored.id] draw.revokedAt db).refreshTokens ++ [row]) :
    Ledger env (⟨.session (.refresh raw draw), .ok (.refreshed pair)⟩ :: history)
      db' := by
  apply hledger.step _ _ hfresh (.one user draw row _ _ rfl rfl rfl hissued)
    htokens
  intro token row hissued hrow hrevoked
  rw [revoked_cons, ← hrevoked, List.mem_singleton]
  constructor
  · rintro (hdead | hid)
    · exact Or.inl hdead
    · obtain rfl := hledger.eq_of_id hfresh rfl hstored hissued hrow hid
      exact Or.inr ⟨_, hissued, Or.inl (Or.inl ⟨draw, pair, rfl, rfl⟩)⟩
  · rintro (hdead | ⟨other, -, hspends | ⟨raw', ⟨draw', hop⟩, hraw, hdead⟩⟩)
    · exact Or.inl hdead
    · rcases hspends with ⟨draw', pair', hop, -⟩ | ⟨moment, hop⟩
      · obtain ⟨rfl, -⟩ := SessionOp.refresh.inj (AuthOp.session.inj hop)
        rw [hrow] at hstored
        exact Or.inr (congrArg RefreshToken.id (Option.some.inj hstored))
      · simp at hop
    · obtain ⟨rfl, -⟩ := SessionOp.refresh.inj (AuthOp.session.inj hop)
      obtain ⟨stored', hstored', -, hdead'⟩ := hledger.of_issuedTo hraw
      obtain rfl := Option.some.inj (hstored.symm.trans hstored')
      rw [← hdead', hlive] at hdead
      simp at hdead

theorem Ledger.replayed
    (hledger : Ledger env history db) (raw : String) (draw : TokenDraw)
    {stored : RefreshToken} (e : Raised)
    (hfresh : FreshFor env history (.session (.refresh raw draw)))
    (hstored : db.tokenByHash? (env.sha256 raw) = some stored)
    (hdead : stored.revokedAt.isSome)
    (htokens : db'.refreshTokens = (revokeTokens (db.liveTokens stored.userId)
      draw.revokedAt db).refreshTokens) :
    Ledger env (⟨.session (.refresh raw draw), .error e⟩ :: history) db' := by
  have hraw := hledger.issuedTo_of_presented hfresh rfl hstored
  refine hledger.step _ _ hfresh (adds_error _ e)
    (by rw [List.append_nil, htokens])
    fun token row hissued hrow hrevoked => ?_
  rw [revoked_cons, ← hrevoked]
  constructor
  · rintro (hdead' | hid)
    · exact Or.inl hdead'
    · obtain ⟨t, ht, hsame, -, hid⟩ := mem_liveTokens.mp hid
      obtain rfl := hledger.ids.eq_of_mem ht (mem_of_lookup hrow) hid
      obtain ⟨stored', hstored', -, hdead'⟩ := hledger.of_issuedTo hraw
      obtain rfl := Option.some.inj (hstored.symm.trans hstored')
      rw [hsame] at hissued
      exact Or.inr ⟨stored.userId, hissued, Or.inr ⟨raw, ⟨draw, rfl⟩, hraw,
        hdead'.mp hdead⟩⟩
  · rintro (hdead' | ⟨other, hother, hspends | ⟨raw', ⟨draw', hop⟩, hraw', -⟩⟩)
    · exact Or.inl hdead'
    · rcases hspends with ⟨draw', pair', -, hanswer⟩ | ⟨moment, hop⟩
      · simp at hanswer
      · simp at hop
    · obtain ⟨rfl, -⟩ := SessionOp.refresh.inj (AuthOp.session.inj hop)
      obtain ⟨stored', hstored', hsame, -⟩ := hledger.of_issuedTo hraw'
      obtain rfl := Option.some.inj (hstored.symm.trans hstored')
      obtain ⟨row', hrow', hsame', -⟩ := hledger.of_issuedTo hother
      obtain rfl := Option.some.inj (hrow.symm.trans hrow')
      by_cases hlive : row.revokedAt = none
      · refine Or.inr (mem_liveTokens.mpr ⟨row, mem_of_lookup hrow, ?_,
          hlive, rfl⟩)
        rw [hsame', hsame]
      · exact Or.inl (by simpa [Option.isSome_iff_ne_none] using hlive)

theorem Ledger.loggedOut
    (hledger : Ledger env history db) (raw : String) (moment : ℤ)
    {stored : RefreshToken}
    (hfresh : FreshFor env history (.session (.logout raw moment)))
    (hstored : db.tokenByHash? (env.sha256 raw) = some stored)
    (hids : ids = if stored.revokedAt.isSome then [] else [stored.id])
    (htokens : db'.refreshTokens =
      (revokeTokens ids moment db).refreshTokens) :
    Ledger env (⟨.session (.logout raw moment), .ok .loggedOut⟩ :: history)
      db' := by
  have hnone : Adds env ⟨.session (.logout raw moment), .ok .loggedOut⟩ [] := by
    refine .none ?_
    intro token userId expiresAt hissues
    obtain ⟨answer, pair, draw, hanswer, hpair, -⟩ := hissues
    obtain rfl := Except.ok.inj hanswer
    simp [AuthAnswer.pair?] at hpair
  refine hledger.step ids moment hfresh hnone (by rw [List.append_nil, htokens])
    fun token row hissued hrow hrevoked => ?_
  rw [revoked_cons, ← hrevoked]
  constructor
  · rintro (hdead | hid)
    · exact Or.inl hdead
    · have hsame : row.id = stored.id := by
        rw [hids] at hid
        split at hid
        · simp at hid
        · exact List.mem_singleton.mp hid
      obtain rfl := hledger.eq_of_id hfresh rfl hstored hissued hrow hsame
      exact Or.inr ⟨_, hissued, Or.inl (Or.inr ⟨moment, rfl⟩)⟩
  · rintro (hdead | ⟨other, -, hspends | ⟨raw', ⟨draw', hop⟩, -⟩⟩)
    · exact Or.inl hdead
    · rcases hspends with ⟨draw', pair', hop, -⟩ | ⟨moment, hop⟩
      · simp at hop
      · obtain ⟨rfl, -⟩ := SessionOp.logout.inj (AuthOp.session.inj hop)
        obtain rfl := Option.some.inj (hrow.symm.trans hstored)
        by_cases hdead : row.revokedAt.isSome
        · exact Or.inl hdead
        · rw [if_neg hdead] at hids
          exact Or.inr (hids ▸ List.mem_singleton.mpr rfl)
    · simp at hop

/-- Every operation keeps the ledger. -/
theorem Ledger.effect
    {op : AuthOp} {answer : Except Raised AuthAnswer}
    {tokens : List RefreshToken} (hledger : Ledger env history db)
    (hfresh : FreshFor env history op) (heffect : Effect env db op answer tokens)
    (htokens : db'.refreshTokens = tokens) :
    Ledger env (⟨op, answer⟩ :: history) db' := by
  cases heffect with
  | refused op e hrefresh hlogout =>
      exact hledger.refused e hfresh hrefresh hlogout htokens
  | registered payload id salt createdAt draw response user row hissued =>
      exact hledger.issued hfresh (.one user draw row _ _ rfl rfl rfl hissued)
        (fun token => by simp [Handled.Spends])
        (fun token => by simp [Handled.Refreshes]) htokens
  | loggedIn email password salt draw response user row hissued =>
      exact hledger.issued hfresh (.one user draw row _ _ rfl rfl rfl hissued)
        (fun token => by simp [Handled.Spends])
        (fun token => by simp [Handled.Refreshes]) htokens
  | rotated raw draw stored user row pair hstored hlive hissued =>
      exact hledger.rotated raw draw hfresh hstored hlive hissued htokens
  | replayed raw draw stored e hstored hdead =>
      exact hledger.replayed raw draw e hfresh hstored hdead htokens
  | loggedOut raw moment stored ids hstored hids =>
      exact hledger.loggedOut raw moment hfresh hstored hids htokens

end

/-! ## Whole runs -/

section

variable {env : Env} {db : Database}

theorem DistinctDraws.of_append {ops more : List AuthOp}
    (h : DistinctDraws env (ops ++ more)) : DistinctDraws env ops where
  ids := by
    have hids := h.ids
    rw [List.filterMap_append, List.map_append] at hids
    exact hids.of_append_left
  secrets := by
    have hsecrets := h.secrets
    rw [List.filterMap_append, List.map_append] at hsecrets
    exact hsecrets.of_append_left
  hashes a b ha hb := by
    refine h.hashes a b ?_ ?_
    · rw [List.filterMap_append, List.map_append, List.filterMap_append]
      exact ha.imp (List.mem_append_left _) (List.mem_append_left _)
    · rw [List.filterMap_append, List.map_append, List.filterMap_append]
      exact hb.imp (List.mem_append_left _) (List.mem_append_left _)

/-- What the next operation draws and presents is fresh for the history. -/
theorem DistinctDraws.freshFor {ops : List AuthOp} {op : AuthOp}
    (hdistinct : DistinctDraws env (ops ++ [op])) {history : List Handled}
    (hops : ∀ h ∈ history, h.op ∈ ops) : FreshFor env history op := by
  have hold : ∀ h ∈ history, ∀ old, h.op.draw? = some old →
      old ∈ ops.filterMap AuthOp.draw? := fun h hmem old hdraw =>
    List.mem_filterMap.mpr ⟨h.op, hops h hmem, hdraw⟩
  constructor
  · intro draw hdraw h hmem old hopOld
    have hmemOld := hold h hmem old hopOld
    have hids := hdistinct.ids
    have hsecrets := hdistinct.secrets
    have hnew : (ops ++ [op]).filterMap AuthOp.draw? =
        ops.filterMap AuthOp.draw? ++ [draw] := by
      simp [hdraw]
    rw [hnew, List.map_append] at hids hsecrets
    have hid := (List.nodup_append.mp hids).2.2 old.id
      (List.mem_map_of_mem hmemOld) draw.id (by simp)
    have hsecret := (List.nodup_append.mp hsecrets).2.2 old.secret
      (List.mem_map_of_mem hmemOld) draw.secret (by simp)
    refine ⟨Ne.symm hid, fun hhash => hsecret ?_⟩
    refine (hdistinct.hashes draw.secret old.secret (Or.inl ?_) (Or.inl ?_)
      hhash).symm
    · rw [hnew]
      exact List.mem_map_of_mem (by simp)
    · rw [hnew]
      exact List.mem_map_of_mem (List.mem_append_left _ hmemOld)
  · intro raw hraw h hmem old hopOld hhash
    have hmemOld := hold h hmem old hopOld
    refine hdistinct.hashes old.secret raw (Or.inl ?_) (Or.inr ?_) hhash
    · rw [List.filterMap_append]
      exact List.mem_map_of_mem (List.mem_append_left _ hmemOld)
    · rw [List.filterMap_append]
      exact List.mem_append_right _ (by simp [hraw])

theorem handleAll_concat (events : List AuthEvent) (event : AuthEvent) :
    handleAll env db (events ++ [event]) =
      handle env (handleAll env db events) event := by
  rw [handleAll, List.foldl_append]
  rfl

/-- From an empty token table on, table and history agree. -/
theorem ledger_handleAll
    (hempty : db.refreshTokens = []) {events : List AuthEvent}
    (hdistinct : DistinctDraws env (events.filterMap AuthEvent.op?)) :
    Ledger env (handleAll env db events).2 (handleAll env db events).1 ∧
      ∀ h ∈ (handleAll env db events).2,
        h.op ∈ events.filterMap AuthEvent.op? := by
  induction events using List.reverseRecOn with
  | nil =>
      refine ⟨?_, fun h hmem => by simp [handleAll] at hmem⟩
      constructor
      · simp [handleAll, hempty, UniqueKeys]
      · simp [handleAll, hempty, UniqueKeys]
      · simp [handleAll, hempty]
      · simp [handleAll]
      · simp [handleAll]
      · simp [handleAll]
  | append_singleton events event ih =>
      rw [List.filterMap_append] at hdistinct ⊢
      obtain ⟨hledger, hops⟩ := ih hdistinct.of_append
      rw [handleAll_concat]
      cases event with
      | usersEdited users =>
          refine ⟨{ hledger with }, ?_⟩
          intro h hmem
          exact List.mem_append_left _ (hops h hmem)
      | asked op =>
          refine ⟨hledger.effect (hdistinct.freshFor hops) (effect_of_run op)
            rfl, ?_⟩
          intro h hmem
          rcases List.mem_cons.mp hmem with rfl | hmem
          · exact List.mem_append_right _ (by simp [AuthEvent.op?])
          · exact List.mem_append_left _ (hops h hmem)

/-- In terms of the whole history, a token is usable until it is revoked. -/
theorem usable_iff
    {history : List Handled} (hledger : Ledger env history db)
    {token : String} {now : ℤ} :
    Usable env db history token now ↔
      ∃ h ∈ history, ∃ userId expiresAt user,
        h.Issues env token userId expiresAt ∧ now < expiresAt ∧
        db.user? userId = some user ∧ user.isActive = true ∧
        ¬ Revoked env history token := by
  have hrevoked : ∀ {since h before userId expiresAt},
      history = since ++ h :: before → h.Issues env token userId expiresAt →
      (Revoked env history token ↔ ∃ later h' earlier,
        since = later ++ h' :: earlier ∧
        (h'.Spends token ∨ ∃ other, h'.Refreshes other ∧
          IssuedTo env (earlier ++ h :: before) other userId ∧
          Revoked env (earlier ++ h :: before) other)) := by
    intro since h before userId expiresAt heq hissues
    have hissued : IssuedTo env history token userId :=
      ⟨h, by rw [heq]; simp, expiresAt, hissues⟩
    obtain ⟨row, hrow, hsame, -⟩ := hledger.of_issuedTo hissued
    have hunique : ∀ other, IssuedTo env history token other →
        other = userId := by
      intro other hother
      obtain ⟨row', hrow', hsame', -⟩ := hledger.of_issuedTo hother
      obtain rfl := Option.some.inj (hrow.symm.trans hrow')
      exact hsame'.symm.trans hsame
    have honce := fun other => hledger.once since h before token userId
      expiresAt other heq hissues
    subst heq
    exact revoked_iff_since hissues honce hunique
  constructor
  · rintro ⟨since, h, before, userId, expiresAt, user, heq, hissues, hnow, huser,
      hactive, hlater⟩
    refine ⟨h, by rw [heq]; simp, userId, expiresAt, user, hissues, hnow, huser,
      hactive, fun hdead => ?_⟩
    obtain ⟨later, h', earlier, hsplit, hspends | ⟨other, hother, hto, hdead⟩⟩ :=
      (hrevoked heq hissues).mp hdead
    · exact (hlater later h' earlier hsplit).1 hspends
    · exact (hlater later h' earlier hsplit).2 other hother hto hdead
  · rintro ⟨h, hmem, userId, expiresAt, user, hissues, hnow, huser, hactive,
      hlive⟩
    obtain ⟨since, before, heq⟩ := List.append_of_mem hmem
    refine ⟨since, h, before, userId, expiresAt, user, heq, hissues, hnow,
      huser, hactive, fun later h' earlier hsplit => ⟨fun hspends => hlive ?_,
        fun other hother hto hdead => hlive ?_⟩⟩
    · exact (hrevoked heq hissues).mpr
        ⟨later, h', earlier, hsplit, Or.inl hspends⟩
    · exact (hrevoked heq hissues).mpr
        ⟨later, h', earlier, hsplit, Or.inr ⟨other, hother, hto, hdead⟩⟩

end

/-- A refresh succeeds exactly when its token was issued and is still usable,
and the calendar has room for the new tokens. -/
theorem refresh_succeeds_iff
    (env : Env) (db : Database) (events : List AuthEvent) (token : String)
    (draw : TokenDraw) (hempty : db.refreshTokens = [])
    (hdistinct : DistinctDraws env
      (events.filterMap AuthEvent.op? ++ [.session (.refresh token draw)])) :
    (∃ pair db', (refresh env token draw).run (handleAll env db events).1 =
        (.ok pair, db')) ↔
      Usable env (handleAll env db events).1 (handleAll env db events).2 token
          draw.checkedAt ∧
        Representable
          (draw.issuedAt + days env.settings.refreshTokenExpireDays) ∧
        Representable
          (draw.signedAt + minutes env.settings.accessTokenExpireMinutes) := by
  obtain ⟨hledger, hops⟩ := ledger_handleAll hempty hdistinct.of_append
  have hfresh := hdistinct.freshFor hops
  generalize (handleAll env db events).1 = final at *
  generalize (handleAll env db events).2 = history at *
  rw [usable_iff hledger]
  constructor
  · rintro ⟨pair, db', hrun⟩
    obtain ⟨stored, hstored, hlive, hnow, user, huser, hactive, row, hissued,
      -⟩ := run_refresh_eq_ok_iff.mp hrun
    obtain ⟨h, hmem, expiresAt, hissues⟩ :=
      hledger.issuedTo_of_presented hfresh rfl hstored
    obtain ⟨row', hrow', -, hexpires, hrevoked⟩ :=
      hledger.stored h hmem token _ expiresAt hissues
    obtain rfl := Option.some.inj (hstored.symm.trans hrow')
    refine ⟨⟨h, hmem, stored.userId, expiresAt, user, hissues, hexpires ▸ hnow,
      huser, hactive, ?_⟩,
        (exists_issueTokenPair_iff user).mp ⟨row, pair, hissued⟩⟩
    intro hdead
    rw [← hrevoked, hlive] at hdead
    simp at hdead
  · rintro ⟨⟨h, hmem, userId, expiresAt, user, hissues, hnow, huser, hactive,
      hlive⟩, hrepresentable⟩
    obtain ⟨stored, hstored, rfl, rfl, hrevoked⟩ :=
      hledger.stored h hmem token userId expiresAt hissues
    obtain ⟨row, pair, hissued⟩ :=
      (exists_issueTokenPair_iff user).mpr hrepresentable
    have hid : user.id = stored.userId := key_of_lookup huser
    have hnew : ∀ old ∈ final.refreshTokens, old.id ≠ draw.id ∧
        old.tokenHash ≠ env.sha256 draw.secret :=
      fun old hold => hledger.ne_draw hfresh rfl hold
    obtain ⟨db', hw⟩ : ∃ db', rotateToken stored.id draw.revokedAt row final =
        .ok db' := by
      rw [(issueTokenPair_eq_ok hissued).1]
      refine exists_rotateToken (List.mem_map_of_mem (mem_of_lookup hstored))
        ?_ (lookup_eq_none_iff.mpr fun old hold =>
          (hnew old hold).2) ?_
      · intro hold
        obtain ⟨old, hold, heq⟩ := List.mem_map.mp hold
        exact (hnew old hold).1 heq
      · rw [hid, huser]
        rfl
    have hlive' : stored.revokedAt = none := by
      by_contra hsome
      exact hlive (hrevoked.mp (Option.isSome_iff_ne_none.mpr hsome))
    exact ⟨pair, db', run_refresh_eq_ok_iff.mpr ⟨stored, hstored, hlive', hnow,
      user, huser, hactive, row, hissued, hw⟩⟩

/-! ## A login and a refresh -/

/-- The customer of the sample shop logs in. -/
def loginAt (moment : ℤ) : List AuthEvent :=
  [.asked (.session (.login "Cara" "Customer" "salt"
    (Sample.draw 60 "first" moment)))]

theorem distinct_loginAt (moment moment' : ℤ) :
    DistinctDraws Sample.env ((loginAt moment).filterMap AuthEvent.op? ++
      [.session (.refresh "first" (Sample.draw 61 "second" moment'))]) where
  ids := show [(60 : ℕ), 61].Nodup by decide
  secrets := show ["first", "second"].Nodup by decide
  hashes _ _ _ _ h := h

theorem refresh_succeeds_iff_morning :
    (∃ pair db', (refresh Sample.env "first"
        (Sample.draw 61 "second" (Sample.clock 9 0))).run
          (handleAll Sample.env Sample.db (loginAt (Sample.clock 8 0))).1 =
        (.ok pair, db')) ↔
      Usable Sample.env
          (handleAll Sample.env Sample.db (loginAt (Sample.clock 8 0))).1
          (handleAll Sample.env Sample.db (loginAt (Sample.clock 8 0))).2
          "first" (Sample.clock 9 0) ∧
        Representable (Sample.clock 9 0 + days 30) ∧
        Representable (Sample.clock 9 0 + minutes 15) :=
  refresh_succeeds_iff Sample.env Sample.db (loginAt (Sample.clock 8 0)) "first"
    (Sample.draw 61 "second" (Sample.clock 9 0)) rfl (distinct_loginAt _ _)

/-- In the last days of the calendar a usable token is not exchanged: the
expiry of the new one cannot be represented. -/
theorem not_refresh_succeeds_iff_usable :
    ¬ ((∃ pair db', (refresh Sample.env "first"
          (Sample.draw 61 "second" (datetimeMax - days 29))).run
            (handleAll Sample.env Sample.db
              (loginAt (datetimeMax - days 30))).1 = (.ok pair, db')) ↔
        Usable Sample.env
            (handleAll Sample.env Sample.db
              (loginAt (datetimeMax - days 30))).1
            (handleAll Sample.env Sample.db
              (loginAt (datetimeMax - days 30))).2
            "first" (datetimeMax - days 29) ∧
          ∀ h ∈ (handleAll Sample.env Sample.db
            (loginAt (datetimeMax - days 30))).2, ¬ h.Spends "first") := by
  intro h
  have hoverflow : ((refresh Sample.env "first"
      (Sample.draw 61 "second" (datetimeMax - days 29))).run
        (handleAll Sample.env Sample.db
          (loginAt (datetimeMax - days 30))).1).1 = .error .overflowError := by
    decide +kernel
  have husable : Usable Sample.env
      (handleAll Sample.env Sample.db (loginAt (datetimeMax - days 30))).1
      (handleAll Sample.env Sample.db (loginAt (datetimeMax - days 30))).2
      "first" (datetimeMax - days 29) := by
    refine ⟨[], ⟨_, _⟩, [], 4, datetimeMax, Sample.customer, rfl,
      ⟨_, _, _, rfl, rfl, rfl, rfl, rfl, rfl⟩, by decide, rfl, rfl, ?_⟩
    intro later h' earlier heq
    simp at heq
  have hunspent : ∀ h ∈ (handleAll Sample.env Sample.db
      (loginAt (datetimeMax - days 30))).2, ¬ h.Spends "first" := by
    intro h' hmem
    obtain rfl := List.mem_singleton.mp hmem
    rintro (⟨draw, pair, hop, -⟩ | ⟨moment, hop⟩)
    · exact nomatch hop
    · exact nomatch hop
  obtain ⟨pair, db', hrun⟩ := h.mpr ⟨husable, hunspent⟩
  rw [hrun] at hoverflow
  simp at hoverflow

end BarberHub
