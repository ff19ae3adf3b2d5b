import BarberHub.Accounts.Tokens
import BarberHub.Support.Pools

/-!
# Using a refresh token once

`refresh` reads the row of the token, checks `revoked_at`, and revokes the row
by primary key when it commits.  Nothing holds the row in between.  This module
shows what that leaves of single use: a token is exchanged once as long as it
is not revoked while another request that has looked it up is under way, and
one such overlap is enough to exchange it twice.
-/

namespace BarberHub

open KeyedTable ReadCommitted Program Pool

variable {ι : Type} [DecidableEq ι]

/-- The requests, all presenting the same token, before any has begun. -/
def refreshPool (env : Env) (rawToken : String) (draws : ι → TokenDraw)
    (db : Database) : Pool ι Database Raised TokenPair where
  committed := db
  running i := refresh env rawToken (draws i)

/-- At most one request has answered a new pair. -/
def SingleUse (env : Env) (rawToken : String) (draws : ι → TokenDraw)
    (db : Database) (schedule : List ι) : Prop :=
  ∀ i j pair pair',
    ((refreshPool env rawToken draws db).exec schedule).running i =
      .done (.ok pair) →
    ((refreshPool env rawToken draws db).exec schedule).running j =
      .done (.ok pair') → i = j

/-- A commit that does not revoke the token. -/
def LeavesToken (hash : String) (s s' : Database) : Prop :=
  ∀ t t', s.tokenByHash? hash = some t → s'.tokenByHash? hash = some t' →
    t.revokedAt = none → t'.revokedAt = none

/-! ## One commit -/

/-- What others may commit while a request is under way. -/
structure RefreshRely (hash : String) (s s' : Database) : Prop where
  live : ∀ t, s.tokenByHash? hash = some t → t.revokedAt = none →
    ∃ t', s'.tokenByHash? hash = some t' ∧ t'.id = t.id ∧ t'.revokedAt = none
  keeps : ∀ id ∈ s.tokenIds, id ∈ s'.tokenIds

/-- What a request commits: it revokes tokens, or it exchanges the token for
the one with the key it has drawn. -/
inductive RefreshCommit (hash : String) (fresh : Uuid)
    (s s' : Database) : Prop where
  | revoked (hids : s'.tokenIds = s.tokenIds)
      (htoken : ∀ t, s.tokenByHash? hash = some t →
        ∃ t', s'.tokenByHash? hash = some t' ∧ t'.id = t.id ∧
          (t.revokedAt.isSome → t'.revokedAt.isSome))
  | rotated (t : RefreshToken) (moment : ℤ)
      (hfresh : fresh ∉ s.tokenIds)
      (hids : s'.tokenIds = s.tokenIds ++ [fresh])
      (htoken : s.tokenByHash? hash = some t) (hlive : t.revokedAt = none)
      (hrevoked : s'.tokenByHash? hash =
        some { t with revokedAt := some moment })

theorem isRely_refreshRely (hash : String) : IsRely (RefreshRely hash) where
  refl s := ⟨fun t ht hlive => ⟨t, ht, rfl, hlive⟩, fun _ h => h⟩
  trans {s t u} h h' := by
    refine ⟨?_, fun id hid => h'.keeps id (h.keeps id hid)⟩
    intro a ha hlive
    obtain ⟨b, hb, hid, hlive⟩ := h.live a ha hlive
    obtain ⟨c, hc, hid', hlive⟩ := h'.live b hb hlive
    exact ⟨c, hc, hid'.trans hid, hlive⟩

section

variable {hash : String} {fresh : Uuid} {s s' : Database}

theorem RefreshCommit.token (h : RefreshCommit hash fresh s s')
    {t : RefreshToken} (ht : s.tokenByHash? hash = some t) :
    ∃ t', s'.tokenByHash? hash = some t' ∧ t'.id = t.id ∧
      (t.revokedAt.isSome → t'.revokedAt.isSome) := by
  cases h with
  | revoked _ htoken => exact htoken t ht
  | rotated u moment _ _ htoken _ hrevoked =>
      obtain rfl := Option.some.inj (ht.symm.trans htoken)
      exact ⟨_, hrevoked, rfl, fun _ => rfl⟩

theorem RefreshCommit.keeps (h : RefreshCommit hash fresh s s') {id : Uuid}
    (hid : id ∈ s.tokenIds) : id ∈ s'.tokenIds := by
  cases h with
  | revoked hids => rwa [hids]
  | rotated _ _ _ hids =>
      rw [hids]
      exact List.mem_append_left _ hid

theorem RefreshCommit.added (h : RefreshCommit hash fresh s s') {id : Uuid}
    (hid : id ∈ s'.tokenIds) : id ∈ s.tokenIds ∨ id = fresh := by
  cases h with
  | revoked hids => exact Or.inl (hids ▸ hid)
  | rotated _ _ _ hids =>
      rw [hids, List.mem_append, List.mem_singleton] at hid
      exact hid

end

/-! ## One request -/

/-- The new token of a request is in the table, and was not before. -/
def Issued (db : Database) (draw : TokenDraw) (s : Database) : Prop :=
  draw.id ∈ s.tokenIds ∧ draw.id ∉ db.tokenIds

/-- Every row the table held at first is still there. -/
def Database.KeepsTokens (db s : Database) : Prop :=
  ∀ id ∈ db.tokenIds, id ∈ s.tokenIds

theorem revokeAllForUser_learns (hash : String) (userId : Uuid) (moment : ℤ)
    {fresh : Uuid} (s : Database) :
    (revokeAllForUser userId moment).Learns (RefreshRely hash)
      (RefreshCommit hash fresh) (fun _ _ => True) s := by
  rw [revokeAllForUser]
  have hrely := isRely_refreshRely hash
  refine Learns.bind hrely (learns_query (Q := fun _ _ => True)
    fun _ _ _ _ => trivial) ?_
  intro live t _
  refine learns_write fun u u' _ hw => ⟨?_, fun _ _ => trivial⟩
  obtain rfl := Except.ok.inj hw
  refine .revoked (tokenIds_revokeTokens _ _ _) ?_
  intro a ha
  rw [tokenByHash?_revokeTokens, ha]
  refine ⟨_, rfl, ?_, ?_⟩
  · dsimp only
    split <;> rfl
  · intro hrevoked
    dsimp only
    split
    · rfl
    · exact hrevoked

/-- A request that answers a pair has put a new token into the table. -/
theorem refresh_learns (env : Env) (rawToken : String) (draw : TokenDraw)
    {db s : Database} (hdb : db.KeepsTokens s) :
    (refresh env rawToken draw).Learns
      (RefreshRely (env.sha256 rawToken))
      (RefreshCommit (env.sha256 rawToken) draw.id)
      (fun _ => Issued db draw) s := by
  have hrely := isRely_refreshRely (env.sha256 rawToken)
  rw [refresh, loadRefreshToken]
  refine Learns.bind hrely (Learns.bind hrely (learns_query (Q := fun found u =>
    ∃ t, RefreshRely (env.sha256 rawToken) s t ∧
      RefreshRely (env.sha256 rawToken) t u ∧
      found = t.tokenByHash? (env.sha256 rawToken))
    fun t u hst htu => ⟨t, hst, htu, rfl⟩) fun found u h =>
      learns_rowOr (Q := fun stored v =>
        ∃ t, RefreshRely (env.sha256 rawToken) s t ∧
          RefreshRely (env.sha256 rawToken) t v ∧
          t.tokenByHash? (env.sha256 rawToken) = some stored)
        fun stored v hstored huv => ?_) ?_
  · obtain ⟨t, hst, htu, rfl⟩ := h
    exact ⟨t, hst, hrely.trans htu huv, hstored⟩
  intro stored v h
  obtain ⟨t, hst, htv, hstored⟩ := h
  split
  next hrevoked =>
    exact Learns.bind hrely (revokeAllForUser_learns _ _ _ v)
      fun _ _ _ => learns_done fun _ _ h => by simp at h
  next hlive =>
    have hnone : stored.revokedAt = none := by simpa using hlive
    have hstable : ∀ a b, RefreshRely (env.sha256 rawToken) t a →
        RefreshRely (env.sha256 rawToken) a b →
        RefreshRely (env.sha256 rawToken) t b := fun _ _ => hrely.trans
    apply Learns.bind hrely ((readOnly_require _ _).learns hstable htv)
    intro _ w htw
    apply Learns.bind hrely ((readOnly_query _).learns hstable htw)
    intro found x htx
    apply Learns.bind hrely ((readOnly_rowOr _ _).learns hstable htx)
    intro user y hty
    refine Learns.bind hrely (learns_done (Q := fun issued z =>
      issued.1.id = draw.id ∧ RefreshRely (env.sha256 rawToken) t z)
        fun issued z hissued hyz => ⟨?_, hrely.trans hty hyz⟩) ?_
    · rw [(issueTokenPair_eq_ok hissued).1]
    rintro issued z ⟨hid, htz⟩
    refine Learns.bind hrely (learns_write (Q := fun _ => Issued db draw) ?_) ?_
    · intro u u' hzu hw
      -- the row that was read is still there, and still live
      have htu := hrely.trans htz hzu
      obtain ⟨now, hnow, hsame, hlive'⟩ := htu.live stored hstored hnone
      obtain ⟨hfresh, hids, htoken⟩ := rotateToken_eq_ok hw
      rw [hid] at hfresh hids
      refine ⟨.rotated now draw.revokedAt hfresh hids hnow hlive'
        (htoken now hnow hsame), fun a ha => ⟨?_, ?_⟩⟩
      · exact ha.keeps _ (by rw [hids]; simp)
      · exact fun hold => hfresh (htu.keeps _ (hst.keeps _ (hdb _ hold)))
    · intro _ u hu
      exact learns_done fun _ a _ ha => ⟨ha.keeps _ hu.1, hu.2⟩

/-! ## Any number of requests -/

/-- What holds along a run: once a new token is in the table the presented one
is revoked, and at most one new token is. -/
structure Exchanged (hash : String) (draws : ι → TokenDraw)
    (db s : Database) : Prop where
  keeps : db.KeepsTokens s
  revoked : ∀ i, Issued db (draws i) s →
    ∃ t, s.tokenByHash? hash = some t ∧ t.revokedAt.isSome
  once : ∀ i j, Issued db (draws i) s → Issued db (draws j) s → i = j

omit [DecidableEq ι] in
theorem exchanged_initial (hash : String) (draws : ι → TokenDraw)
    (db : Database) : Exchanged hash draws db db where
  keeps _ h := h
  revoked _ h := absurd h.1 h.2
  once _ _ h := absurd h.1 h.2

omit [DecidableEq ι] in
/-- A commit of one request keeps it. -/
theorem Exchanged.commit
    {hash : String} {draws : ι → TokenDraw} {db s s' : Database} {j : ι}
    (hdraws : Function.Injective fun i => (draws i).id)
    (h : Exchanged hash draws db s)
    (hcommit : RefreshCommit hash (draws j).id s s') :
    Exchanged hash draws db s' := by
  have hkeeps : db.KeepsTokens s' :=
    fun id hid => hcommit.keeps (h.keeps id hid)
  -- a token issued by now was issued before, or is the one just added
  cases hcommit with
  | revoked hids htoken =>
      have hback : ∀ i, Issued db (draws i) s' → Issued db (draws i) s :=
        fun i hi => ⟨hids ▸ hi.1, hi.2⟩
      refine ⟨hkeeps, ?_, fun i k hi hk => h.once i k (hback i hi) (hback k hk)⟩
      intro i hi
      obtain ⟨t, ht, hrevoked⟩ := h.revoked i (hback i hi)
      obtain ⟨t', ht', -, hrevoked'⟩ := htoken t ht
      exact ⟨t', ht', hrevoked' hrevoked⟩
  | rotated t moment hfresh hids htoken hlive hrevoked =>
      have hnone : ∀ i, ¬ Issued db (draws i) s := by
        intro i hi
        obtain ⟨t', ht', hrevoked'⟩ := h.revoked i hi
        obtain rfl := Option.some.inj (htoken.symm.trans ht')
        rw [hlive] at hrevoked'
        simp at hrevoked'
      have hnew : ∀ i, Issued db (draws i) s' → i = j := by
        intro i hi
        have hmem := hi.1
        rw [hids, List.mem_append, List.mem_singleton] at hmem
        rcases hmem with hold | hadded
        · exact absurd ⟨hold, hi.2⟩ (hnone i)
        · exact hdraws hadded
      exact ⟨hkeeps, fun i _ => ⟨_, hrevoked, rfl⟩,
        fun i k hi hk => (hnew i hi).trans (hnew k hk).symm⟩

omit [DecidableEq ι] in
/-- The requests, verified together. -/
theorem refreshPool_verified
    (env : Env) (rawToken : String) (draws : ι → TokenDraw) (db : Database)
    (hdraws : Function.Injective fun i => (draws i).id) :
    (refreshPool env rawToken draws db).Verified
      (Exchanged (env.sha256 rawToken) draws db) (fun _ _ => True)
      (fun _ => RefreshRely (env.sha256 rawToken))
      (fun i => RefreshCommit (env.sha256 rawToken) (draws i).id)
      (fun _ => LeavesToken (env.sha256 rawToken))
      (fun i r s => ∀ pair, r = .ok pair → Issued db (draws i) s) where
  isRely _ := isRely_refreshRely _
  init := exchanged_initial _ draws db
  begin_init _ := trivial
  begin_keep _ _ _ _ _ _ _ _ := trivial
  start i s hs _ := refresh_learns env rawToken (draws i) hs.keeps
  inv i s s' hs h := hs.commit hdraws h
  compat i j s s' _ _ h htol := by
    refine ⟨?_, fun id hid => h.keeps hid⟩
    intro t ht hlive
    obtain ⟨t', ht', hid, -⟩ := h.token ht
    exact ⟨t', ht', hid, htol t t' ht ht' hlive⟩
  answer i j s s' r _ _ h hpost pair hr :=
    ⟨h.keeps (hpost pair hr).1, (hpost pair hr).2⟩

/-- A refresh token is exchanged at most once in every run in which it is not
revoked while another request that has looked it up is under way. -/
theorem refresh_single_use
    (env : Env) (rawToken : String) (draws : ι → TokenDraw) (db : Database)
    (schedule : List ι) (hdraws : Function.Injective fun i => (draws i).id)
    (htol : (refreshPool env rawToken draws db).Tolerant
      (fun _ => LeavesToken (env.sha256 rawToken)) schedule) :
    SingleUse env rawToken draws db schedule := by
  have hpool := refreshPool_verified env rawToken draws db hdraws
  intro i j pair pair' hi hj
  have hi' := hpool.answered_of_unfinished htol id hi
  have hj' := hpool.answered_of_unfinished htol id hj
  exact (hpool.invariant htol).once i j (hi' pair rfl) (hj' pair' rfl)

/-! ## Two requests -/

/-- The sample shop with a session of its customer. -/
def sessionDb : Database :=
  { Sample.db with
    refreshTokens :=
      [⟨60, 4, "secret", Sample.clock 23 0, none⟩] }

/-- Two requests that draw different keys and secrets. -/
def twoDraws : Bool → TokenDraw
  | false => ⟨61, "first", 71, Sample.clock 9 0, Sample.clock 9 0,
      Sample.clock 9 0, Sample.clock 9 0⟩
  | true => ⟨62, "second", 72, Sample.clock 9 0, Sample.clock 9 0,
      Sample.clock 9 0, Sample.clock 9 0⟩

theorem refresh_single_use_one_after_the_other :
    SingleUse Sample.env "secret" twoDraws sessionDb
      [false, false, false, true, true, true] := by
  refine refresh_single_use _ _ _ _ _ ?_ ?_
  · intro i j hij
    cases i <;> cases j <;> simp [twoDraws] at hij ⊢
  · exact tolerant_serial false true 3 3 (by decide +kernel)

/-- When both have read the token before either revokes it, both are answered
a new pair. -/
theorem refresh_used_twice :
    ¬ SingleUse Sample.env "secret" twoDraws sessionDb
      [false, true, false, true, false, true] := by
  intro h
  obtain ⟨pair, hfirst⟩ : ∃ pair,
      ((refreshPool Sample.env "secret" twoDraws sessionDb).exec
        [false, true, false, true, false, true]).running false =
          .done (.ok pair) := ⟨_, rfl⟩
  obtain ⟨pair', hsecond⟩ : ∃ pair,
      ((refreshPool Sample.env "secret" twoDraws sessionDb).exec
        [false, true, false, true, false, true]).running true =
          .done (.ok pair) := ⟨_, rfl⟩
  exact absurd (h false true pair pair' hfirst hsecond) (by decide)

end BarberHub
