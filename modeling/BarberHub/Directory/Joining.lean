import BarberHub.Accounts.Sessions
import BarberHub.Directory.Assignment

/-!
# New shops, services and barbers

`create_shop` of `app/services/barbershop.py`, `create_service` of
`service_catalog.py` and `add_barber` of `barber_directory.py`, each up to its
commit, next to `set_services`.
-/

namespace BarberHub

open KeyedTable ReadCommitted Program Fallible

/-! ## The bodies -/

structure BarbershopCreate where
  name : String
  description : Option String
  address : String
  city : String
  latitude : Option ℤ
  longitude : Option ℤ
  phone : Option String
  timezone : String
  requiresConfirmation : Bool
  deriving DecidableEq, Repr

structure ServiceCreate where
  name : String
  description : Option String
  durationMinutes : ℤ
  price : ℤ
  deriving DecidableEq, Repr

structure BarberCreate where
  email : String
  bio : Option String
  experienceYears : ℤ
  deriving DecidableEq, Repr

/-- The row `create_shop` adds; the database says when. -/
def BarbershopCreate.row (payload : BarbershopCreate) (ownerId id : Uuid)
    (createdAt : ℤ) : Barbershop where
  id := id
  ownerId := ownerId
  name := payload.name
  description := payload.description
  address := payload.address
  city := payload.city
  latitude := payload.latitude
  longitude := payload.longitude
  phone := payload.phone
  timezone := payload.timezone
  isActive := true
  requiresConfirmation := payload.requiresConfirmation
  createdAt := createdAt

/-- The row `create_service` adds. -/
def ServiceCreate.row (payload : ServiceCreate) (shopId id : Uuid) :
    Service where
  id := id
  shopId := shopId
  name := payload.name
  description := payload.description
  durationMinutes := payload.durationMinutes
  price := payload.price
  isActive := true

/-- The row `add_barber` adds. -/
def BarberCreate.row (payload : BarberCreate) (userId shopId id : Uuid) :
    Barber where
  id := id
  userId := userId
  shopId := shopId
  bio := payload.bio
  experienceYears := payload.experienceYears
  rating := 0
  reviewsCount := 0
  isActive := true

/-! ## The tables -/

/-- `INSERT INTO barbershops`. -/
def insertShop (row : Barbershop) (db : Database) : Except Raised Database := do
  enforce (db.barbershop? row.id = none) .unique
  enforce (db.user? row.ownerId).isSome .foreignKey
  pure { db with barbershops := db.barbershops ++ [row] }

/-- `INSERT INTO services`, with the index on the lower-cased names of a
shop. -/
def insertService (env : Env) (row : Service) (db : Database) :
    Except Raised Database := do
  enforce row.Checked .check
  enforce (db.service? row.id = none) .unique
  enforce (∀ other ∈ db.services, other.shopId = row.shopId →
    env.lower other.name ≠ env.lower row.name) .unique
  enforce (db.barbershop? row.shopId).isSome .foreignKey
  pure { db with services := db.services ++ [row] }

/-- `INSERT INTO barbers`. -/
def insertBarber (row : Barber) (db : Database) : Except Raised Database := do
  enforce row.Checked .check
  enforce (db.barber? row.id = none) .unique
  enforce (∀ other ∈ db.barbers,
    ¬ (other.userId = row.userId ∧ other.shopId = row.shopId)) .unique
  enforce ((db.user? row.userId).isSome ∧ (db.barbershop? row.shopId).isSome)
    .foreignKey
  pure { db with barbers := db.barbers ++ [row] }

/-- `UPDATE users SET role = 'BARBER'`. -/
def promote (userId : Uuid) (db : Database) : Except Raised Database :=
  if (db.user? userId).isSome then
    .ok { db with
      users := updateAt User.id userId (fun user => { user with role := .barber })
        db.users }
  else .error .staleDataError

/-! ## The operations -/

def createShop (owner : User) (payload : BarbershopCreate) (id : Uuid)
    (createdAt : ℤ) : Request Unit :=
  write (insertShop (payload.row owner.id id createdAt))

/-- `create_service`; `quoted` is `repr` of the name. -/
def createService (env : Env) (user : User) (shopId : Uuid)
    (payload : ServiceCreate) (id : Uuid) (quoted : String) : Request Unit := do
  let shop ← getShopOr404 shopId (some user)
  ensureCanManageShop user shop
  commitOrConflict ("This shop already offers a service named " ++ quoted)
    (insertService env (payload.row shop.id id))

/-- The flush of `add_barber`: the new row, and the promotion of a customer. -/
def flushNewBarber (row : Barber) (account : User) (db : Database) :
    Except Raised Database := do
  let db ← insertBarber row db
  -- promote, never demote
  if account.role = .customer then promote account.id db else pure db

def addBarber (env : Env) (user : User) (shopId : Uuid)
    (payload : BarberCreate) (id : Uuid) : Request Unit := do
  let shop ← getShopOr404 shopId (some user)
  ensureCanManageShop user shop
  let found ← query fun db => db.userByEmail? env payload.email
  let account ← rowOr (.app ⟨.notFoundError,
    "No account with that email. The barber must register first.",
    [("email", .text payload.email)]⟩) found
  require (account.isActive = true)
    (conflict "That account has been deactivated")
  commitOrConflict "This person is already a barber at this shop"
    (flushNewBarber (payload.row account.id shop.id id) account)

/-- A request that adds to a directory, or says who performs what. -/
inductive DirectoryOp where
  | createShop (owner : User) (payload : BarbershopCreate) (id : Uuid)
      (createdAt : ℤ)
  | createService (user : User) (shopId : Uuid) (payload : ServiceCreate)
      (id : Uuid) (quoted : String)
  | addBarber (user : User) (shopId : Uuid) (payload : BarberCreate) (id : Uuid)
  | setServices (user : User) (barberId : Uuid) (serviceIds : List Uuid)

def DirectoryOp.program (env : Env) : DirectoryOp → Request Unit
  | createShop owner payload id createdAt =>
      BarberHub.createShop owner payload id createdAt
  | createService user shopId payload id quoted =>
      BarberHub.createService env user shopId payload id quoted
  | addBarber user shopId payload id =>
      BarberHub.addBarber env user shopId payload id
  | setServices user barberId serviceIds =>
      BarberHub.setServices user barberId serviceIds

/-! ## What is written -/

section

variable {env : Env} {db db' : Database}

theorem insertShop_eq_ok {row : Barbershop} (h : insertShop row db = .ok db') :
    db' = { db with barbershops := db.barbershops ++ [row] } := by
  rw [insertShop] at h
  simp only [bind_eq_ok_iff] at h
  obtain ⟨_, -, _, -, h⟩ := h
  exact (Except.ok.inj h).symm

theorem insertService_eq_ok {row : Service}
    (h : insertService env row db = .ok db') :
    db' = { db with services := db.services ++ [row] } ∧
      (∀ other ∈ db.services, other.id ≠ row.id) ∧
      ∀ other ∈ db.services, other.shopId = row.shopId →
        env.lower other.name ≠ env.lower row.name := by
  rw [insertService] at h
  simp only [bind_eq_ok_iff] at h
  obtain ⟨_, -, _, hfresh, _, hnames, _, -, h⟩ := h
  exact ⟨(Except.ok.inj h).symm, lookup_eq_none_iff.mp (enforce_eq_ok hfresh),
    enforce_eq_ok hnames⟩

theorem insertBarber_eq_ok {row : Barber} (h : insertBarber row db = .ok db') :
    db' = { db with barbers := db.barbers ++ [row] } ∧
      (∀ other ∈ db.barbers, other.id ≠ row.id) ∧
      ∀ other ∈ db.barbers,
        ¬ (other.userId = row.userId ∧ other.shopId = row.shopId) := by
  rw [insertBarber] at h
  simp only [bind_eq_ok_iff] at h
  obtain ⟨_, -, _, hfresh, _, hnew, _, -, h⟩ := h
  exact ⟨(Except.ok.inj h).symm, lookup_eq_none_iff.mp (enforce_eq_ok hfresh),
    enforce_eq_ok hnew⟩

theorem promote_eq_ok {userId : Uuid} (h : promote userId db = .ok db') :
    db' = { db with users := db'.users } := by
  rw [promote] at h
  split at h
  · rw [← Except.ok.inj h]
  · simp at h

theorem flushNewBarber_eq_ok {row : Barber} {account : User}
    (h : flushNewBarber row account db = .ok db') :
    db' = { db with barbers := db.barbers ++ [row], users := db'.users } ∧
      (∀ other ∈ db.barbers, other.id ≠ row.id) ∧
      ∀ other ∈ db.barbers,
        ¬ (other.userId = row.userId ∧ other.shopId = row.shopId) := by
  rw [flushNewBarber] at h
  obtain ⟨inserted, hinsert, h⟩ := bind_eq_ok_iff.mp h
  obtain ⟨rfl, hfresh⟩ := insertBarber_eq_ok hinsert
  refine ⟨?_, hfresh⟩
  split at h
  · rw [promote_eq_ok h]
  · rw [← Except.ok.inj h]

end

end BarberHub
