import BarberHub.Accounts.Access

/-!
# Sessions in the browser

`store`, `request`, `refreshSession` and the handlers of the account pages of
`frontend/app.js`: calls that run side by side over one `localStorage`, each up
to its next `await`, against the server that exchanges the tokens.  The server
executes one request after another.  This module shows what one step keeps
while no two calls use one refresh token.
-/

namespace BarberHub.Frontend

open KeyedTable ReadCommitted Program Fallible

/-! ## The browser -/

/-- The entries of `localStorage` that requests read. -/
structure Store where
  access : Option String
  refresh : Option String
  deriving DecidableEq, Repr

/-- An entry as a condition of `if` or `&&` takes it. -/
def truthy (entry : Option String) : Option String :=
  entry.filter fun text => text ≠ ""

deriving instance DecidableEq for RegisterRequest

/-- What the form of `authView` is submitted with. -/
inductive SignInForm where
  | register (payload : RegisterRequest)
  | login (email password : String)
  deriving DecidableEq

/-- The two tokens of an answer. -/
abbrev Tokens := String × String

/-- Where a handler is: a request with `auth`, which goes through
`refreshSession` if it must, a sign-in or a sign-out. -/
inductive Task where
  /-- `request`, called with or without `retry`. -/
  | call (retry : Bool)
  | sent (access : Option String) (retry : Bool)
  /-- The status has come back; whether it is 401. -/
  | answered (isUnauthorized retry : Bool)
  | refreshing (token : String)
  /-- The answer to the refresh: tokens, or an error. -/
  | exchanged (token : String) (tokens : Option Tokens)
  /-- `refreshSession` has returned `true`. -/
  | renewed
  /-- `refreshSession` has returned `false`. -/
  | refused (token : String)
  | signIn (form : SignInForm)
  | signingIn (form : SignInForm)
  | signedIn (tokens : Option Tokens)
  | signOut
  | signingOut (token : Option String)
  | signedOut (token : Option String)
  /-- Its tab was closed while it used the token. -/
  | closed (token : Option String)
  | ended
  deriving DecidableEq

namespace Task

/-- The refresh token a task has sent, until it has stored its answer or has
cleared the store. -/
def uses : Task → Option String
  | refreshing token => some token
  | exchanged token _ => some token
  | refused token => some token
  | signingOut token => token
  | signedOut token => token
  | closed token => token
  | _ => none

/-- The refresh token a task is about to store. -/
def brings : Task → Option String
  | exchanged _ tokens => tokens.map Prod.snd
  | signedIn tokens => tokens.map Prod.snd
  | _ => none

/-- The code up to the next `await`, and what it leaves in the store. -/
def resume (store : Store) : Task → Store × Task
  | call retry => (store, sent (truthy store.access) retry)
  | answered true true =>
      match truthy store.refresh with
      | some token => (store, refreshing token)
      | none => (store, ended)
  | answered _ _ => (store, ended)
  | exchanged _ (some tokens) => (⟨some tokens.1, some tokens.2⟩, renewed)
  | exchanged token none => (store, refused token)
  | renewed => (store, sent (truthy store.access) false)
  | refused _ => (⟨none, none⟩, ended)
  | signIn form => (store, signingIn form)
  | signedIn (some tokens) => (⟨some tokens.1, some tokens.2⟩, ended)
  | signedIn none => (store, ended)
  | signOut => (store, signingOut store.refresh)
  | signedOut _ => (⟨none, none⟩, ended)
  | task => (store, task)

/-- `fetch` rejects: the request or its answer was lost. -/
def lose : Task → Task
  | sent _ _ => ended
  | answered _ _ => ended
  | refreshing token => exchanged token none
  | exchanged token _ => exchanged token none
  | signingIn _ => signedIn none
  | signedIn _ => signedIn none
  | signingOut token => signedOut token
  | task => task

/-- A handler that has not begun. -/
def Begins : Task → Prop
  | call _ => True
  | signIn _ => True
  | signOut => True
  | _ => False

end Task

/-! ## The server -/

/-- What the random generators and the clock give to one request. -/
structure Draws where
  now : ℤ
  draw : TokenDraw
  id : Uuid
  salt : String

/-- What the task asks of the accounts. -/
def Task.op? (draws : Draws) : Task → Option AuthOp
  | refreshing token => some (.session (.refresh token draws.draw))
  | signingIn (.register payload) =>
      some (.register payload draws.id draws.salt draws.now draws.draw)
  | signingIn (.login email password) =>
      some (.session (.login email password draws.salt draws.draw))
  | signingOut (some token) => some (.session (.logout token draws.now))
  | _ => none

/-- The tokens in an answer, as the browser gets them. -/
def tokensOf (jwt : Jwt) : Except Raised AuthAnswer → Option Tokens
  | .ok answer => answer.pair?.map fun pair =>
      (jwt.encode pair.accessToken, pair.refreshToken)
  | .error _ => none

def Task.receive (tokens : Option Tokens) : Task → Task
  | refreshing token => exchanged token tokens
  | signingIn _ => signedIn tokens
  | signingOut token => signedOut token
  | task => task

/-- The request of a task is answered; what it asked of the accounts, if it
did.  A sign-out without a token is refused before it does. -/
def Task.serve (env : Env) (jwt : Jwt) (db : Database) (draws : Draws) :
    Task → List AuthEvent × Task
  | sent access retry =>
      match ((getCurrentUser jwt draws.now access).run db).1 with
      | .ok _ => ([], answered false retry)
      | .error _ => ([], answered true retry)
  | signingOut none => ([], signedOut none)
  | task =>
      match task.op? draws with
      | some op => ([.asked op],
          task.receive (tokensOf jwt ((op.transaction env).run db).1))
      | none => ([], task)

/-! ## Runs -/

/-- The store and the tasks of a browser, and what the server has been asked,
by it and by others. -/
structure World (ι : Type) where
  asked : List AuthEvent
  store : Store
  tasks : ι → Task

/-- A task goes on, its request is answered or lost, its tab is closed, or the
server hears of somebody else. -/
inductive Event (ι : Type) where
  | resume (i : ι)
  | serve (i : ι) (draws : Draws)
  | lose (i : ι)
  | close (i : ι)
  | elsewhere (event : AuthEvent)

namespace World

variable {ι : Type} [DecidableEq ι]

/-- Nothing has been stored, asked or begun. -/
def start (tasks : ι → Task) : World ι :=
  ⟨[], ⟨none, none⟩, tasks⟩

omit [DecidableEq ι] in
/-- The server's tables and its history, from these tables on. -/
def server (env : Env) (db : Database) (w : World ι) :
    Database × List Handled :=
  handleAll env db w.asked

/-- Replace a task. -/
def put (w : World ι) (i : ι) (task : Task) : World ι :=
  { w with tasks := Function.update w.tasks i task }

def step (env : Env) (jwt : Jwt) (db : Database) (w : World ι) :
    Event ι → World ι
  | .resume i =>
      let (store, task) := (w.tasks i).resume w.store
      { w.put i task with store := store }
  | .serve i draws =>
      let (asked, task) :=
        (w.tasks i).serve env jwt (w.server env db).1 draws
      { w.put i task with asked := w.asked ++ asked }
  | .lose i => w.put i (w.tasks i).lose
  | .close i => w.put i (.closed (w.tasks i).uses)
  | .elsewhere event => { w with asked := w.asked ++ [event] }

def exec (env : Env) (jwt : Jwt) (db : Database) (w : World ι)
    (events : List (Event ι)) : World ι :=
  events.foldl (step env jwt db) w

/-- A run of these tasks in a blank browser. -/
def after (env : Env) (jwt : Jwt) (db : Database) (tasks : ι → Task)
    (events : List (Event ι)) : World ι :=
  (start tasks).exec env jwt db events

end World

/-! ## One use of a token at a time -/

namespace World

variable {ι : Type} [DecidableEq ι]

/-- No two tasks use one token. -/
def Disjoint (tasks : ι → Task) : Prop :=
  ∀ i j, i ≠ j → (tasks i).uses = (tasks j).uses → (tasks i).uses = none

/-- The token is in the store or with a task. -/
def Holds (store : Store) (tasks : ι → Task) (token : String) : Prop :=
  store.refresh = some token ∨
    ∃ i, (tasks i).uses = some token ∨ (tasks i).brings = some token

/-- What somebody else presents is not held here, and it is not a refresh with
a revoked token of a user whose tokens are. -/
def Apart (env : Env) (db : Database) (w : World ι) (event : AuthEvent) :
    Prop :=
  ∀ op token, event.op? = some op → op.presented? = some token →
    ¬ Holds w.store w.tasks token ∧
    ((∃ draw, op = .session (.refresh token draw)) →
      Revoked env (w.server env db).2 token →
      ∀ userId, IssuedTo env (w.server env db).2 token userId →
        ∀ held, Holds w.store w.tasks held →
          ¬ IssuedTo env (w.server env db).2 held userId)

/-- What the store and the tasks hold was issued, and is revoked only where a
task uses it that the server has answered. -/
structure Kept (env : Env) (history : List Handled) (store : Store)
    (tasks : ι → Task) : Prop where
  stored : ∀ token, store.refresh = some token →
    (∃ userId, IssuedTo env history token userId) ∧
      (Revoked env history token → ∃ i, (tasks i).uses = some token)
  used : ∀ i token, (tasks i).uses = some token →
    ∃ userId, IssuedTo env history token userId
  refreshing : ∀ i token, tasks i = .refreshing token →
    ¬ Revoked env history token
  brought : ∀ i token, (tasks i).brings = some token →
    (∃ userId, IssuedTo env history token userId) ∧
      ¬ Revoked env history token ∧ store.refresh ≠ some token ∧
      (∀ j, (tasks j).uses ≠ some token) ∧
      ∀ j, (tasks j).brings = some token → j = i

section

variable {env : Env} {history : List Handled} {store store' : Store}
  {tasks : ι → Task} {i : ι} {task : Task}

/-- A task that goes on in the browser keeps what it uses until it changes the
store, stores only what it brings, and sends only what is stored. -/
theorem Kept.client (h : Kept env history store tasks)
    (hstore : ∀ token, store'.refresh = some token →
      (store.refresh = some token ∧
        ((tasks i).uses = some token → task.uses = some token)) ∨
      ((tasks i).brings = some token ∧ task.brings = none))
    (huses : ∀ token, task.uses = some token →
      (tasks i).uses = some token ∨ store.refresh = some token)
    (hlive : ∀ token, task = .refreshing token →
      ¬ Revoked env history token)
    (hbrings : ∀ token, task.brings = some token →
      (tasks i).brings = some token ∧ store' = store) :
    Kept env history store' (Function.update tasks i task) where
  stored token htoken := by
    rcases hstore token htoken with ⟨hold, hkeep⟩ | ⟨hbrought, -⟩
    · refine ⟨(h.stored token hold).1, fun hrevoked => ?_⟩
      obtain ⟨j, hj⟩ := (h.stored token hold).2 hrevoked
      refine ⟨j, ?_⟩
      by_cases hij : j = i
      · subst hij
        simpa using hkeep hj
      · simpa [hij] using hj
    · obtain ⟨hissued, hlive, -⟩ := h.brought i token hbrought
      exact ⟨hissued, fun hrevoked => absurd hrevoked hlive⟩
  used := by
    refine (Function.forall_update_iff tasks (p := fun _ t => ∀ token,
      t.uses = some token → ∃ userId, IssuedTo env history token userId)).mpr
        ⟨fun token htoken => ?_, fun j _ => h.used j⟩
    rcases huses token htoken with hold | hold
    · exact h.used i token hold
    · exact (h.stored token hold).1
  refreshing := (Function.forall_update_iff tasks (p := fun _ t => ∀ token,
    t = .refreshing token → ¬ Revoked env history token)).mpr
      ⟨hlive, fun j _ => h.refreshing j⟩
  brought j token htoken := by
    have hold : (tasks j).brings = some token ∧ (j = i → store' = store) := by
      by_cases hij : j = i
      · subst hij
        rw [Function.update_self] at htoken
        exact ⟨(hbrings token htoken).1, fun _ => (hbrings token htoken).2⟩
      · rw [Function.update_of_ne hij] at htoken
        exact ⟨htoken, fun heq => absurd heq hij⟩
    obtain ⟨hissued, hlive, hstored, hused, honly⟩ := h.brought j token hold.1
    refine ⟨hissued, hlive, ?_, ?_, ?_⟩
    · intro hnew
      rcases hstore token hnew with ⟨hsame, -⟩ | ⟨hbrought, hnone⟩
      · exact hstored hsame
      · obtain rfl := honly i hbrought
        rw [Function.update_self, hnone] at htoken
        simp at htoken
    · refine (Function.forall_update_iff tasks (p := fun _ t =>
        t.uses ≠ some token)).mpr ⟨fun hk => ?_, fun k _ => hused k⟩
      rcases huses token hk with hsame | hsame
      · exact hused i hsame
      · exact hstored hsame
    · exact (Function.forall_update_iff tasks (p := fun k t =>
        t.brings = some token → k = j)).mpr
          ⟨fun hk => honly i (hbrings token hk).1, fun k _ => honly k⟩

/-- A request that finds no token of the same user revoked revokes at most the
one that it spends. -/
theorem revoked_of_quiet {h : Handled} {token : String}
    (hquiet : ∀ other, h.Refreshes other → Revoked env history other →
      ∀ userId, IssuedTo env history other userId →
        ¬ IssuedTo env history token userId)
    (hrevoked : Revoked env (h :: history) token) :
    Revoked env history token ∨ h.Spends token := by
  rcases revoked_cons.mp hrevoked with
    hpast | ⟨userId, hissued, hspends | hreplay⟩
  · exact Or.inl hpast
  · exact Or.inr hspends
  · obtain ⟨other, hother, hto, hdead⟩ := hreplay
    exact absurd hissued (hquiet other hother hdead userId hto)

omit [DecidableEq ι] in
/-- A request that spends no token but one a task uses that has been
answered. -/
theorem Kept.asked (h : Kept env history store tasks) {new : Handled}
    (hquiet : ∀ other, new.Refreshes other → Revoked env history other →
      ∀ userId, IssuedTo env history other userId →
        ∀ held, Holds store tasks held → ¬ IssuedTo env history held userId)
    (hspends : ∀ token, new.Spends token →
      (∀ i, tasks i ≠ .refreshing token ∧ (tasks i).brings ≠ some token) ∧
        (store.refresh = some token → ∃ i, (tasks i).uses = some token)) :
    Kept env (new :: history) store tasks where
  stored token htoken := by
    obtain ⟨⟨userId, hissued⟩, hused⟩ := h.stored token htoken
    refine ⟨⟨userId, hissued.later [new]⟩, fun hrevoked => ?_⟩
    rcases revoked_of_quiet (fun other ho hd u hto =>
      hquiet other ho hd u hto token (Or.inl htoken)) hrevoked with
      hpast | hspent
    · exact hused hpast
    · exact (hspends token hspent).2 htoken
  used i token htoken := by
    obtain ⟨userId, hissued⟩ := h.used i token htoken
    exact ⟨userId, hissued.later [new]⟩
  refreshing i token htoken hrevoked := by
    have huses : (tasks i).uses = some token := by rw [htoken]; rfl
    rcases revoked_of_quiet (fun other ho hd u hto =>
      hquiet other ho hd u hto token (Or.inr ⟨i, Or.inl huses⟩)) hrevoked with
      hpast | hspent
    · exact h.refreshing i token htoken hpast
    · exact ((hspends token hspent).1 i).1 htoken
  brought i token htoken := by
    obtain ⟨⟨userId, hissued⟩, hlive, hrest⟩ := h.brought i token htoken
    refine ⟨⟨userId, hissued.later [new]⟩, fun hrevoked => ?_, hrest⟩
    rcases revoked_of_quiet (fun other ho hd u hto =>
      hquiet other ho hd u hto token (Or.inr ⟨i, Or.inr htoken⟩)) hrevoked with
      hpast | hspent
    · exact hlive hpast
    · exact ((hspends token hspent).1 i).2 htoken

/-- A task is handed a token that nobody had before. -/
theorem Kept.bring {new : Handled} {token : String} {userId : Uuid}
    (hold : Kept env history store tasks)
    (h : Kept env (new :: history) store tasks)
    (hissued : IssuedTo env (new :: history) token userId)
    (hfresh : ∀ userId, ¬ IssuedTo env history token userId)
    (huses : task.uses = (tasks i).uses)
    (hask : ∀ token, task ≠ .refreshing token)
    (hbrings : task.brings = some token) :
    Kept env (new :: history) store (Function.update tasks i task) := by
  have hnew : ¬ Revoked env (new :: history) token := by
    intro hrevoked
    rcases revoked_cons.mp hrevoked with hpast | ⟨owner, hto, -⟩
    · obtain ⟨owner, hto⟩ := hpast.issued
      exact hfresh owner hto
    · exact hfresh owner hto
  have hstored : store.refresh ≠ some token := by
    intro hsame
    obtain ⟨owner, hto⟩ := (hold.stored token hsame).1
    exact hfresh owner hto
  have hused : ∀ j, (tasks j).uses ≠ some token := by
    intro j hsame
    obtain ⟨owner, hto⟩ := hold.used j token hsame
    exact hfresh owner hto
  have hbrought : ∀ j, (tasks j).brings ≠ some token := by
    intro j hsame
    obtain ⟨owner, hto⟩ := (hold.brought j token hsame).1
    exact hfresh owner hto
  have hall : ∀ j, (Function.update tasks i task j).uses = (tasks j).uses :=
    (Function.forall_update_iff tasks (p := fun j t =>
      t.uses = (tasks j).uses)).mpr ⟨huses, fun _ _ => rfl⟩
  have honly : ∀ j, (Function.update tasks i task j).brings = some token →
      j = i :=
    (Function.forall_update_iff tasks (p := fun j t =>
      t.brings = some token → j = i)).mpr
        ⟨fun _ => rfl, fun j _ hsame => absurd hsame (hbrought j)⟩
  constructor
  · intro other hother
    obtain ⟨hissued, hrevoked⟩ := h.stored other hother
    simp only [hall]
    exact ⟨hissued, hrevoked⟩
  · intro j other hother
    rw [hall] at hother
    exact h.used j other hother
  · exact (Function.forall_update_iff tasks (p := fun _ t => ∀ token,
      t = .refreshing token → ¬ Revoked env (new :: history) token)).mpr
        ⟨fun other hsame => absurd hsame (hask other),
          fun j _ => h.refreshing j⟩
  · intro j other hother
    simp only [hall]
    by_cases hij : j = i
    · subst hij
      rw [Function.update_self, hbrings] at hother
      obtain rfl := Option.some.inj hother
      exact ⟨⟨userId, hissued⟩, hnew, hstored, hused, honly⟩
    · rw [Function.update_of_ne hij] at hother
      obtain ⟨hissued, hlive, hne, hfree, hone⟩ := h.brought j other hother
      refine ⟨hissued, hlive, hne, hfree, ?_⟩
      refine (Function.forall_update_iff tasks (p := fun k t =>
        t.brings = some other → k = j)).mpr ⟨fun hk => ?_, fun k _ => hone k⟩
      rw [hbrings] at hk
      obtain rfl := Option.some.inj hk
      exact absurd hother (hbrought j)

/-- A task that neither stores nor sends a token. -/
theorem Kept.idle (h : Kept env history store tasks)
    (huses : task.uses = (tasks i).uses) (hbrings : task.brings = none)
    (hask : ∀ token, task ≠ .refreshing token) :
    Kept env history store (Function.update tasks i task) := by
  refine h.client (fun token htoken => ?_) (fun token htoken => ?_)
    (fun token htoken => absurd htoken (hask token)) (fun token htoken => ?_)
  · rw [huses]
    exact Or.inl ⟨htoken, id⟩
  · rw [huses] at htoken
    exact Or.inl htoken
  · rw [hbrings] at htoken
    simp at htoken

omit [DecidableEq ι] in
theorem truthy_eq_some {entry : Option String} {token : String}
    (h : truthy entry = some token) : entry = some token :=
  (Option.filter_eq_some_iff.mp h).1

/-- A handler goes on, and shares no token afterwards. -/
theorem Kept.resume (h : Kept env history store tasks)
    (hdisjoint : Disjoint
      (Function.update tasks i ((tasks i).resume store).2)) :
    Kept env history ((tasks i).resume store).1
      (Function.update tasks i ((tasks i).resume store).2) := by
  cases htask : tasks i with
  | call retry | renewed | signIn form =>
      exact h.idle (by simp [htask, Task.resume, Task.uses])
        (by simp [Task.resume, Task.brings]) (by simp [Task.resume])
  | answered isUnauthorized retry =>
      by_cases hretry : isUnauthorized = true ∧ retry = true
      · obtain ⟨rfl, rfl⟩ := hretry
        cases htoken : truthy store.refresh with
        | none =>
            simp only [Task.resume, htoken]
            exact h.idle (by simp [htask, Task.uses]) rfl (by simp)
        | some token =>
            rw [htask] at hdisjoint
            simp only [Task.resume, htoken] at hdisjoint ⊢
            have hstored := truthy_eq_some htoken
            refine h.client (fun _ hsame => ?_) (fun _ hsame => ?_)
              (fun _ hsame hrevoked => ?_) (by simp [Task.brings])
            · exact Or.inl ⟨hsame, by simp [htask, Task.uses]⟩
            · obtain rfl := Option.some.inj hsame
              exact Or.inr hstored
            -- a task that has spent the token would share it from now on
            · obtain rfl := Task.refreshing.inj hsame
              obtain ⟨j, hj⟩ := (h.stored token hstored).2 hrevoked
              have hji : j ≠ i := by
                rintro rfl
                simp [htask, Task.uses] at hj
              have hnone := hdisjoint i j hji.symm
              rw [Function.update_self, Function.update_of_ne hji, hj] at hnone
              simp [Task.uses] at hnone
      · have hover : (Task.answered isUnauthorized retry).resume store =
            (store, .ended) := by
          cases isUnauthorized <;> cases retry <;> simp_all [Task.resume]
        rw [hover]
        exact h.idle (by simp [htask, Task.uses]) rfl (by simp)
  | exchanged token tokens =>
      cases tokens with
      | none =>
          exact h.idle (by simp [htask, Task.resume, Task.uses]) rfl
            (by simp [Task.resume])
      | some tokens =>
          refine h.client (fun other hother => Or.inr ?_)
            (by simp [Task.resume, Task.uses]) (by simp [Task.resume])
            (by simp [Task.resume, Task.brings])
          simpa [htask, Task.resume, Task.brings] using hother
  | signedIn tokens =>
      cases tokens with
      | none =>
          exact h.idle (by simp [htask, Task.resume, Task.uses]) rfl
            (by simp [Task.resume])
      | some tokens =>
          refine h.client (fun other hother => Or.inr ?_)
            (by simp [Task.resume, Task.uses]) (by simp [Task.resume])
            (by simp [Task.resume, Task.brings])
          simpa [htask, Task.resume, Task.brings] using hother
  | refused token | signedOut token =>
      exact h.client (by simp [Task.resume]) (by simp [Task.resume, Task.uses])
        (by simp [Task.resume]) (by simp [Task.resume, Task.brings])
  | signOut =>
      refine h.client (fun other hother => Or.inl ⟨hother, ?_⟩)
        (fun other hother => Or.inr hother) (by simp [Task.resume])
        (by simp [Task.resume, Task.brings])
      simp [htask, Task.uses]
  | sent access retry | refreshing token | signingIn form | signingOut token
    | closed token | ended =>
      rw [← htask]
      have hsame : (tasks i).resume store = (store, tasks i) := by
        rw [htask]
        rfl
      rw [hsame, Function.update_eq_self]
      exact h

omit [DecidableEq ι] in
theorem op?_cases {draws : Draws} {op : AuthOp}
    (hop : task.op? draws = some op) :
    (∃ token, task = .refreshing token ∧
      op = .session (.refresh token draws.draw)) ∨
    (∃ form, task = .signingIn form ∧ op.presented? = none) ∨
    ∃ token, task = .signingOut (some token) ∧
      op = .session (.logout token draws.now) := by
  cases task with
  | refreshing token =>
      exact Or.inl ⟨token, rfl, (Option.some.inj hop).symm⟩
  | signingIn form =>
      refine Or.inr (Or.inl ⟨form, rfl, ?_⟩)
      cases form with
      | register payload | login email password =>
          rw [← Option.some.inj hop]
          rfl
  | signingOut token =>
      cases token with
      | none => simp [Task.op?] at hop
      | some token =>
          exact Or.inr (Or.inr ⟨token, rfl, (Option.some.inj hop).symm⟩)
  | call retry | sent access retry | answered isUnauthorized retry
    | exchanged token tokens | renewed | refused token | signIn form
    | signedIn tokens | signOut | signedOut token | closed token | ended =>
      simp [Task.op?] at hop

omit [DecidableEq ι] in
/-- An answered task uses what it has sent, and brings at most what it gets. -/
theorem receive_spec {draws : Draws} {op : AuthOp}
    (hop : task.op? draws = some op) (tokens : Option Tokens) :
    (task.receive tokens).uses = task.uses ∧
      ((task.receive tokens).brings = none ∨
        (task.receive tokens).brings = tokens.map Prod.snd) ∧
      ∀ token, task.receive tokens ≠ .refreshing token := by
  rcases op?_cases hop with ⟨token, rfl, -⟩ | ⟨form, rfl, -⟩ | ⟨token, rfl, -⟩
  · exact ⟨rfl, Or.inr rfl, by simp [Task.receive]⟩
  · exact ⟨rfl, Or.inr rfl, by simp [Task.receive]⟩
  · exact ⟨rfl, Or.inl rfl, by simp [Task.receive]⟩

omit [DecidableEq ι] in
/-- What a request spends, the task uses. -/
theorem uses_of_spends {draws : Draws} {op : AuthOp} {token : String}
    {answer : Except Raised AuthAnswer} (hop : task.op? draws = some op)
    (hspends : Handled.Spends ⟨op, answer⟩ token) : task.uses = some token := by
  have hpresented : op.presented? = some token := by
    rcases hspends with ⟨draw, pair, hsame, -⟩ | ⟨moment, hsame⟩
    · rw [show op = _ from hsame]
      rfl
    · rw [show op = _ from hsame]
      rfl
  rcases op?_cases hop with ⟨raw, rfl, rfl⟩ | ⟨form, -, hnone⟩ | ⟨raw, rfl, rfl⟩
  · exact hpresented
  · rw [hnone] at hpresented
    simp at hpresented
  · exact hpresented

/-- The tokens in an answer are issued with it, and are the ones drawn. -/
theorem issued_pair {op : AuthOp} {db : Database} {answer : AuthAnswer}
    {pair : TokenPair} (past : List Handled)
    (hanswer : ((op.transaction env).run db).1 = .ok answer)
    (hpair : answer.pair? = some pair) :
    IssuedTo env (⟨op, .ok answer⟩ :: past) pair.refreshToken
        pair.accessToken.sub ∧
      ∃ draw, op.draw? = some draw ∧ pair.refreshToken = draw.secret := by
  have heffect : Effect env db op _ _ := effect_of_run op
  have hsigned := heffect.signed
  rw [hanswer] at hsigned
  obtain ⟨draw, user, row, -, hdraw, -, -, hissues⟩ :=
    hsigned pair.accessToken ⟨answer, pair, rfl, hpair, rfl⟩
  have hissued : IssuedTo env (⟨op, .ok answer⟩ :: past) draw.secret
      pair.accessToken.sub := ⟨_, List.mem_cons_self, _, hissues⟩
  obtain ⟨answer', pair', -, hanswer', hpair', -, hsecret, -⟩ := hissues
  obtain rfl := Except.ok.inj hanswer'
  obtain rfl := Option.some.inj (hpair.symm.trans hpair')
  rw [← hsecret] at hissued
  exact ⟨hissued, draw, hdraw, hsecret⟩

theorem tokensOf_eq_some {jwt : Jwt} {answer : Except Raised AuthAnswer}
    {tokens : Tokens} (h : tokensOf jwt answer = some tokens) :
    ∃ handed pair, answer = .ok handed ∧ handed.pair? = some pair ∧
      tokens = (jwt.encode pair.accessToken, pair.refreshToken) := by
  cases answer with
  | error e => simp [tokensOf] at h
  | ok handed =>
      obtain ⟨pair, hpair, rfl⟩ := Option.map_eq_some_iff.mp h
      exact ⟨handed, pair, rfl, hpair, rfl⟩

/-- A task is answered, and no other uses the token it has sent. -/
theorem Kept.ask (h : Kept env history store tasks) (hdisjoint : Disjoint tasks)
    {jwt : Jwt} {db : Database} {draws : Draws} {op : AuthOp}
    (hop : (tasks i).op? draws = some op) (hledger : Ledger env history db)
    (hfresh : FreshFor env history op) :
    Kept env (⟨op, ((op.transaction env).run db).1⟩ :: history) store
      (Function.update tasks i ((tasks i).receive
        (tokensOf jwt ((op.transaction env).run db).1))) := by
  obtain ⟨huses, hnone, hask⟩ := receive_spec hop none
  have hidle : Kept env history store
      (Function.update tasks i ((tasks i).receive none)) :=
    h.idle huses (hnone.elim id id) hask
  have hasked : Kept env (⟨op, ((op.transaction env).run db).1⟩ :: history)
      store (Function.update tasks i ((tasks i).receive none)) := by
    refine hidle.asked ?_ ?_
    · rintro other ⟨draw, hsame⟩ hdead
      rcases op?_cases hop with ⟨token, htask, rfl⟩ | ⟨form, -, hpresents⟩ |
        ⟨token, -, rfl⟩
      · simp only [AuthOp.session.injEq, SessionOp.refresh.injEq] at hsame
        rw [← hsame.1] at hdead
        exact absurd hdead (h.refreshing i token htask)
      · rw [show op = _ from hsame] at hpresents
        simp [AuthOp.presented?] at hpresents
      · simp at hsame
    · intro token hspends
      have hused := uses_of_spends hop hspends
      refine ⟨?_, fun _ => ⟨i, by rw [Function.update_self, huses, hused]⟩⟩
      refine (Function.forall_update_iff tasks (p := fun _ t =>
        t ≠ .refreshing token ∧ t.brings ≠ some token)).mpr
          ⟨⟨hask token, ?_⟩, fun j hj => ⟨?_, ?_⟩⟩
      · rw [hnone.elim id id]
        simp
      · intro hsame
        have hshared := hdisjoint i j hj.symm
        rw [hused, hsame] at hshared
        simp [Task.uses] at hshared
      · intro hsame
        exact (h.brought j token hsame).2.2.2.1 i hused
  cases htokens : tokensOf jwt ((op.transaction env).run db).1 with
  | none => exact hasked
  | some tokens =>
      obtain ⟨huses', hbrings, hask'⟩ := receive_spec hop (some tokens)
      obtain ⟨handed, pair, hanswer, hpair, rfl⟩ := tokensOf_eq_some htokens
      obtain ⟨hissued, draw, hdraw, hsecret⟩ :=
        issued_pair history hanswer hpair
      have hnew := hledger.not_issued hfresh hdraw
      rw [← hsecret] at hnew
      rw [hanswer] at hasked ⊢
      rw [← Function.update_idem ((tasks i).receive none)]
      rcases hbrings with hempty | hbrings
      · exact hasked.idle (by rw [Function.update_self, huses', huses]) hempty hask'
      · exact hidle.bring hasked hissued hnew
          (by rw [Function.update_self, huses', huses]) hask' hbrings

end

section

variable {env : Env} {jwt : Jwt} {db : Database} {w : World ι}

theorem after_concat (tasks : ι → Task) (events : List (Event ι))
    (event : Event ι) :
    after env jwt db tasks (events ++ [event]) =
      (after env jwt db tasks events).step env jwt db event := by
  rw [after, exec, List.foldl_append]
  rfl

/-- The server is asked something, or nothing. -/
theorem asked_step (event : Event ι) :
    ∃ more, (w.step env jwt db event).asked = w.asked ++ more := by
  cases event with
  | resume i => exact ⟨[], by simp [step, put]⟩
  | serve i draws => exact ⟨_, rfl⟩
  | lose i => exact ⟨[], by simp [step, put]⟩
  | close i => exact ⟨[], by simp [step, put]⟩
  | elsewhere event => exact ⟨[event], rfl⟩

theorem asked_prefix (tasks : ι → Task) (before rest : List (Event ι)) :
    (after env jwt db tasks before).asked <+:
      (after env jwt db tasks (before ++ rest)).asked := by
  induction rest using List.reverseRecOn with
  | nil => simp
  | append_singleton rest event ih =>
      rw [← List.append_assoc, after_concat]
      refine ih.trans ?_
      obtain ⟨more, hmore⟩ := asked_step event
      exact ⟨more, hmore.symm⟩

/-- What is drawn in a run is drawn in its beginning. -/
theorem distinct_of_prefix {tasks : ι → Task} {before rest : List (Event ι)}
    (hdistinct : DistinctDraws env
      ((after env jwt db tasks (before ++ rest)).asked.filterMap
        AuthEvent.op?)) :
    DistinctDraws env
      ((after env jwt db tasks before).asked.filterMap AuthEvent.op?) := by
  have hprefix : (after env jwt db tasks before).asked <+: _ :=
    asked_prefix tasks before rest
  obtain ⟨more, hmore⟩ := hprefix
  rw [← hmore, List.filterMap_append] at hdistinct
  exact hdistinct.of_append

omit [DecidableEq ι] in
theorem server_append (asked : List AuthEvent) (op : AuthOp) (store : Store)
    (tasks : ι → Task) :
    (⟨asked ++ [.asked op], store, tasks⟩ : World ι).server env db =
      (((op.transaction env).run (handleAll env db asked).1).2,
        ⟨op, ((op.transaction env).run (handleAll env db asked).1).1⟩ ::
          (handleAll env db asked).2) := by
  rw [server, handleAll_concat]
  rfl

/-- A request of a task to the accounts. -/
theorem serve_of_op {draws : Draws} {task : Task} {op : AuthOp}
    (hop : task.op? draws = some op) (t : Database) :
    task.serve env jwt t draws = ([.asked op],
      task.receive (tokensOf jwt ((op.transaction env).run t).1)) := by
  have hserve : task.serve env jwt t draws = match task.op? draws with
      | some op => ([.asked op],
          task.receive (tokensOf jwt ((op.transaction env).run t).1))
      | none => ([], task) := by
    rcases op?_cases hop with ⟨token, rfl, -⟩ | ⟨form, rfl, -⟩ | ⟨token, rfl, -⟩
    · rfl
    · rfl
    · rfl
  rw [hserve, hop]

/-- Any other request asks the accounts nothing. -/
theorem serve_of_no_op {draws : Draws} {task : Task}
    (hop : task.op? draws = none) (t : Database) :
    ∃ task', task.serve env jwt t draws = ([], task') ∧
      (task' = task ∨ task'.uses = task.uses ∧ task'.brings = none ∧
        ∀ token, task' ≠ .refreshing token) := by
  cases task with
  | sent access retry =>
      rw [Task.serve]
      split
      · exact ⟨_, rfl, Or.inr ⟨rfl, rfl, by simp⟩⟩
      · exact ⟨_, rfl, Or.inr ⟨rfl, rfl, by simp⟩⟩
  | refreshing token => simp [Task.op?] at hop
  | signingIn form =>
      cases form with
      | register payload | login email password => simp [Task.op?] at hop
  | signingOut token =>
      cases token with
      | none => exact ⟨_, rfl, Or.inr ⟨rfl, rfl, by simp⟩⟩
      | some token => simp [Task.op?] at hop
  | call retry | answered isUnauthorized retry | exchanged token tokens
    | renewed | refused token | signIn form | signedIn tokens | signOut
    | signedOut token | closed token | ended =>
      exact ⟨_, rfl, Or.inl rfl⟩

theorem step_serve {i : ι} {draws : Draws} {asked : List AuthEvent} {task : Task}
    (hserve : (w.tasks i).serve env jwt (w.server env db).1 draws =
      (asked, task)) :
    w.step env jwt db (.serve i draws) =
      ⟨w.asked ++ asked, w.store, Function.update w.tasks i task⟩ := by
  rw [step, hserve]
  rfl

/-- One event keeps what the invariant says. -/
theorem Kept.step {event : Event ι}
    (h : Kept env (w.server env db).2 w.store w.tasks)
    (hempty : db.refreshTokens = [])
    (hdistinct : DistinctDraws env
      ((w.step env jwt db event).asked.filterMap AuthEvent.op?))
    (hapart : ∀ other, event = .elsewhere other → w.Apart env db other)
    (hdisjoint : Disjoint w.tasks)
    (hdisjoint' : Disjoint (w.step env jwt db event).tasks) :
    Kept env ((w.step env jwt db event).server env db).2
      (w.step env jwt db event).store (w.step env jwt db event).tasks := by
  cases event with
  | resume i => exact h.resume hdisjoint'
  | lose i =>
      have hlose : ∀ task : Task, task.lose.uses = task.uses ∧
          task.lose.brings = none ∧ ∀ token, task.lose ≠ .refreshing token := by
        intro task
        cases task <;> simp [Task.lose, Task.uses, Task.brings]
      obtain ⟨huses, hbrings, hask⟩ := hlose (w.tasks i)
      exact h.idle huses hbrings hask
  | close i => exact h.idle rfl rfl (by simp)
  | serve i draws =>
      cases hop : (w.tasks i).op? draws with
      | some op =>
          rw [step_serve (serve_of_op hop _)] at hdistinct ⊢
          rw [List.filterMap_append] at hdistinct
          obtain ⟨hledger, hops⟩ := ledger_handleAll hempty hdistinct.of_append
          rw [server_append]
          exact h.ask hdisjoint hop hledger (hdistinct.freshFor hops)
      | none =>
          obtain ⟨task, hserve, hsame | ⟨huses, hbrings, hask⟩⟩ :=
            serve_of_no_op hop (w.server env db).1
          · rw [step_serve hserve, List.append_nil, hsame,
              Function.update_eq_self]
            exact h
          · rw [step_serve hserve, List.append_nil]
            exact h.idle huses hbrings hask
  | elsewhere event =>
      cases event with
      | usersEdited users =>
          have hsame : (handleAll env db (w.asked ++ [.usersEdited users])).2 =
              (handleAll env db w.asked).2 := by
            rw [handleAll_concat]
            rfl
          simp only [World.step, server, hsame]
          exact h
      | asked op =>
          have hforeign := fun token => hapart _ rfl op token rfl
          simp only [World.step]
          rw [server_append]
          refine h.asked ?_ ?_
          · rintro other ⟨draw, hsame⟩
            obtain rfl : op = _ := hsame
            exact (hforeign other rfl).2 ⟨draw, rfl⟩
          · intro token hspends
            have hpresented : op.presented? = some token := by
              rcases hspends with ⟨draw, pair, hsame, -⟩ | ⟨moment, hsame⟩
              · rw [show op = _ from hsame]
                rfl
              · rw [show op = _ from hsame]
                rfl
            have hnot := (hforeign token hpresented).1
            refine ⟨fun i => ⟨?_, ?_⟩, fun hstored => absurd (Or.inl hstored) hnot⟩
            · intro hsame
              exact hnot (Or.inr ⟨i, Or.inl (by rw [hsame]; rfl)⟩)
            · exact fun hsame => hnot (Or.inr ⟨i, Or.inr hsame⟩)

end

end World

end BarberHub.Frontend
