import BarberHub.Core.Environment
import BarberHub.Support.Fallible

/-!
# Partial updates

The bodies of the three PATCH requests and the UPDATE a flush emits for them.
A field is not sent, sent as null, or sent with a value; every column whose
new value differs from the loaded one is written, null included, and a null in
a NOT NULL column is refused by the database.
-/

namespace BarberHub

open KeyedTable Fallible

/-- A field of a partial update, as `model_dump(exclude_unset=True)` has it. -/
abbrev Sent (α : Type) := Option (Option α)

namespace Sent

variable {α : Type} [DecidableEq α]

/-- What is left to write once the loaded row was assigned to. -/
def changed (loaded : Option α) (sent : Sent α) : Sent α :=
  sent.filter (· ≠ loaded)

omit [DecidableEq α] in
/-- The value a NOT NULL column gets. -/
def column (old : α) : Sent α → Except Raised α
  | none => .ok old
  | some none => .error (.integrityError .notNull)
  | some (some new) => .ok new

omit [DecidableEq α] in
theorem column_eq_ok {old new : α} {sent : Sent α}
    (h : sent.column old = .ok new) :
    new = old ∨ sent = some (some new) := by
  cases sent with
  | none => exact Or.inl (Except.ok.inj h).symm
  | some value =>
      cases value with
      | none => simp [column] at h
      | some value =>
          obtain rfl := Except.ok.inj h
          exact Or.inr rfl

/-- The text can be stored in a column of at most so many characters.
PostgreSQL stores no `U+0000`. -/
def Fits (width : Option ℕ) : Sent String → Prop
  | some (some text) =>
      Char.ofNat 0 ∉ text.toList ∧ ∀ n ∈ width, text.length ≤ n
  | _ => True

instance (width : Option ℕ) (sent : Sent String) : Decidable (sent.Fits width) :=
  match sent with
  | some (some text) =>
      inferInstanceAs (Decidable (Char.ofNat 0 ∉ text.toList ∧
        ∀ n ∈ width, text.length ≤ n))
  | some none => isTrue trivial
  | none => isTrue trivial

theorem sent_of_changed {loaded : Option α} {sent : Sent α} {value : Option α}
    (h : sent.changed loaded = some value) : sent = some value :=
  (Option.filter_eq_some_iff.mp h).1

end Sent

/-! ## The bodies -/

structure BarberUpdate where
  bio : Sent String := none
  experienceYears : Sent ℤ := none
  isActive : Sent Bool := none
  deriving DecidableEq, Repr

structure ServiceUpdate where
  name : Sent String := none
  description : Sent String := none
  durationMinutes : Sent ℤ := none
  price : Sent ℤ := none
  isActive : Sent Bool := none
  deriving DecidableEq, Repr

structure BarbershopUpdate where
  name : Sent String := none
  description : Sent String := none
  address : Sent String := none
  city : Sent String := none
  latitude : Sent ℤ := none
  longitude : Sent ℤ := none
  phone : Sent String := none
  timezone : Sent String := none
  isActive : Sent Bool := none
  requiresConfirmation : Sent Bool := none
  deriving DecidableEq, Repr

namespace BarberUpdate

/-- The columns to write for a loaded row. -/
def changes (u : BarberUpdate) (loaded : Barber) : BarberUpdate where
  bio := u.bio.changed loaded.bio
  experienceYears := u.experienceYears.changed loaded.experienceYears
  isActive := u.isActive.changed loaded.isActive

/-- The texts fit their columns. -/
def Storable (u : BarberUpdate) : Prop :=
  u.bio.Fits none

instance (u : BarberUpdate) : Decidable u.Storable :=
  inferInstanceAs (Decidable (Sent.Fits _ _))

/-- The row with these columns written. -/
def apply (u : BarberUpdate) (row : Barber) : Except Raised Barber := do
  let experienceYears ← u.experienceYears.column row.experienceYears
  let isActive ← u.isActive.column row.isActive
  pure { row with
    bio := u.bio.getD row.bio
    experienceYears := experienceYears
    isActive := isActive }

theorem apply_eq_ok {u : BarberUpdate} {row row' : Barber}
    (h : u.apply row = .ok row') :
    row'.id = row.id ∧ row'.userId = row.userId ∧ row'.shopId = row.shopId ∧
      u.isActive.column row.isActive = .ok row'.isActive := by
  rw [apply] at h
  simp only [bind_eq_ok_iff] at h
  obtain ⟨experienceYears, -, isActive, hactive, h⟩ := h
  obtain rfl := Except.ok.inj h
  exact ⟨rfl, rfl, rfl, hactive⟩

end BarberUpdate

namespace ServiceUpdate

/-- The columns to write for a loaded row. -/
def changes (u : ServiceUpdate) (loaded : Service) : ServiceUpdate where
  name := u.name.changed loaded.name
  description := u.description.changed loaded.description
  durationMinutes := u.durationMinutes.changed loaded.durationMinutes
  price := u.price.changed loaded.price
  isActive := u.isActive.changed loaded.isActive

/-- The texts fit their columns. -/
def Storable (u : ServiceUpdate) : Prop :=
  u.name.Fits (some 150) ∧ u.description.Fits none

instance (u : ServiceUpdate) : Decidable u.Storable :=
  inferInstanceAs (Decidable (_ ∧ _))

/-- The row with these columns written. -/
def apply (u : ServiceUpdate) (row : Service) : Except Raised Service := do
  let name ← u.name.column row.name
  let durationMinutes ← u.durationMinutes.column row.durationMinutes
  let price ← u.price.column row.price
  let isActive ← u.isActive.column row.isActive
  pure { row with
    name := name
    description := u.description.getD row.description
    durationMinutes := durationMinutes
    price := price
    isActive := isActive }

theorem apply_eq_ok {u : ServiceUpdate} {row row' : Service}
    (h : u.apply row = .ok row') :
    row'.id = row.id ∧ row'.shopId = row.shopId ∧
      u.isActive.column row.isActive = .ok row'.isActive := by
  rw [apply] at h
  simp only [bind_eq_ok_iff] at h
  obtain ⟨name, -, duration, -, price, -, isActive, hactive, h⟩ := h
  obtain rfl := Except.ok.inj h
  exact ⟨rfl, rfl, hactive⟩

end ServiceUpdate

namespace BarbershopUpdate

/-- The columns to write for a loaded row. -/
def changes (u : BarbershopUpdate) (loaded : Barbershop) :
    BarbershopUpdate where
  name := u.name.changed loaded.name
  description := u.description.changed loaded.description
  address := u.address.changed loaded.address
  city := u.city.changed loaded.city
  latitude := u.latitude.changed loaded.latitude
  longitude := u.longitude.changed loaded.longitude
  phone := u.phone.changed loaded.phone
  timezone := u.timezone.changed loaded.timezone
  isActive := u.isActive.changed loaded.isActive
  requiresConfirmation :=
    u.requiresConfirmation.changed loaded.requiresConfirmation

/-- The texts fit their columns. -/
def Storable (u : BarbershopUpdate) : Prop :=
  u.name.Fits (some 150) ∧ u.description.Fits none ∧
    u.address.Fits (some 255) ∧ u.city.Fits (some 100) ∧
    u.phone.Fits (some 32) ∧ u.timezone.Fits (some 64)

instance (u : BarbershopUpdate) : Decidable u.Storable :=
  inferInstanceAs (Decidable (_ ∧ _ ∧ _ ∧ _ ∧ _ ∧ _))

/-- The row with these columns written. -/
def apply (u : BarbershopUpdate) (row : Barbershop) :
    Except Raised Barbershop := do
  let name ← u.name.column row.name
  let address ← u.address.column row.address
  let city ← u.city.column row.city
  let timezone ← u.timezone.column row.timezone
  let isActive ← u.isActive.column row.isActive
  let requiresConfirmation ←
    u.requiresConfirmation.column row.requiresConfirmation
  pure { row with
    name := name
    description := u.description.getD row.description
    address := address
    city := city
    latitude := u.latitude.getD row.latitude
    longitude := u.longitude.getD row.longitude
    phone := u.phone.getD row.phone
    timezone := timezone
    isActive := isActive
    requiresConfirmation := requiresConfirmation }

theorem apply_eq_ok {u : BarbershopUpdate} {row row' : Barbershop}
    (h : u.apply row = .ok row') :
    row'.id = row.id ∧ row'.ownerId = row.ownerId ∧
      u.timezone.column row.timezone = .ok row'.timezone ∧
      u.isActive.column row.isActive = .ok row'.isActive := by
  rw [apply] at h
  simp only [bind_eq_ok_iff] at h
  obtain ⟨name, -, address, -, city, -, timezone, htimezone, isActive, hactive,
    requires, -, h⟩ := h
  obtain rfl := Except.ok.inj h
  exact ⟨rfl, rfl, htimezone, hactive⟩

end BarbershopUpdate

/-! ## The UPDATE -/

/-- `UPDATE ... SET ... WHERE id = ...` on a table with a primary key. -/
def updateRow {α : Type} (key : α → Uuid) (id : Uuid)
    (apply : α → Except Raised α) (constraints : α → Except Raised Unit)
    (rows : List α) : Except Raised (List α) :=
  match lookup key rows id with
  | none => .error .staleDataError
  | some row => do
      let row ← apply row
      constraints row
      .ok (updateAt key id (fun _ => row) rows)

/-- An accepted UPDATE has found its row, and the new one satisfies the
constraints. -/
theorem updateRow_eq_ok
    {α : Type} {key : α → Uuid} {id : Uuid} {apply : α → Except Raised α}
    {constraints : α → Except Raised Unit} {rows rows' : List α}
    (h : updateRow key id apply constraints rows = .ok rows') :
    ∃ row new, lookup key rows id = some row ∧ apply row = .ok new ∧
      constraints new = .ok () ∧ rows' = updateAt key id (fun _ => new) rows := by
  rw [updateRow] at h
  cases hrow : lookup key rows id with
  | none => simp [hrow] at h
  | some row =>
      simp only [hrow, bind_eq_ok_iff] at h
      obtain ⟨new, hnew, _, hconstraints, h⟩ := h
      exact ⟨row, new, rfl, hnew, hconstraints, (Except.ok.inj h).symm⟩

/-- The rows after an accepted UPDATE: those before it, the one with the key
changed. -/
theorem lookup_updateRow
    {α : Type} {key : α → Uuid} {id : Uuid} {apply : α → Except Raised α}
    {constraints : α → Except Raised Unit} {rows rows' : List α}
    (hkey : ∀ r r', apply r = .ok r' → key r' = key r)
    (h : updateRow key id apply constraints rows = .ok rows')
    {k : Uuid} {r' : α} (hr' : lookup key rows' k = some r') :
    lookup key rows k = some r' ∨
      k = id ∧ ∃ r, lookup key rows id = some r ∧ apply r = .ok r' := by
  obtain ⟨row, new, hrow, hnew, -, rfl⟩ := updateRow_eq_ok h
  have hid : key new = id := (hkey _ _ hnew).trans (key_of_lookup hrow)
  by_cases hk : k = id
  · subst hk
    rw [lookup_updateAt_self fun _ _ => hid, hrow, Option.map_some] at hr'
    obtain rfl := Option.some.inj hr'
    exact Or.inr ⟨rfl, row, hrow, hnew⟩
  · rw [lookup_updateAt_of_ne hk fun _ _ => hid] at hr'
    exact Or.inl hr'

/-- `IntegrityError` unless the condition holds. -/
def enforce (p : Prop) [Decidable p] (violation : Violation) :
    Except Raised Unit :=
  if p then .ok () else .error (.integrityError violation)

theorem enforce_eq_ok {p : Prop} [Decidable p] {violation : Violation}
    {u : Unit} (h : enforce p violation = .ok u) : p := by
  by_contra hnot
  rw [enforce, if_neg hnot] at h
  simp at h

/-- `DataError` unless the values sent fit the types of their columns. -/
def encode (p : Prop) [Decidable p] : Except Raised Unit :=
  if p then .ok () else .error .dataError

/-- The flush after `update_barber` and `deactivate_barber`. -/
def flushBarber (id : Uuid) (u : BarberUpdate) (db : Database) :
    Except Raised Database :=
  if u = {} then .ok db
  else do
    encode u.Storable
    let barbers ← updateRow Barber.id id u.apply
      (fun row => enforce row.Checked .check) db.barbers
    pure { db with barbers := barbers }

/-- The flush after `update_service` and `deactivate_service`. -/
def flushService (env : Env) (id : Uuid) (u : ServiceUpdate) (db : Database) :
    Except Raised Database :=
  if u = {} then .ok db
  else do
    encode u.Storable
    let services ← updateRow Service.id id u.apply
      (fun row => do
        enforce row.Checked .check
        enforce (∀ other ∈ db.services, other.id ≠ id →
          other.shopId = row.shopId → env.lower other.name ≠ env.lower row.name)
          .unique)
      db.services
    pure { db with services := services }

/-- The flush after `update_shop` and `deactivate_shop`. -/
def flushShop (id : Uuid) (u : BarbershopUpdate) (db : Database) :
    Except Raised Database :=
  if u = {} then .ok db
  else do
    encode u.Storable
    let barbershops ← updateRow Barbershop.id id u.apply (fun _ => .ok ())
      db.barbershops
    pure { db with barbershops := barbershops }

section

variable {env : Env} {id k : Uuid} {db db' : Database}

theorem flushBarber_eq_ok {u : BarberUpdate}
    (h : flushBarber id u db = .ok db') :
    db' = { db with barbers := db'.barbers } ∧
      ∀ k row', db'.barber? k = some row' → db.barber? k = some row' ∨
        k = id ∧ ∃ row, db.barber? id = some row ∧ u.apply row = .ok row' := by
  rw [flushBarber] at h
  split at h
  · obtain rfl := Except.ok.inj h
    exact ⟨rfl, fun _ _ hrow => Or.inl hrow⟩
  · simp only [bind_eq_ok_iff] at h
    obtain ⟨_, -, barbers, hrows, h⟩ := h
    obtain rfl := Except.ok.inj h
    exact ⟨rfl, fun _ _ => lookup_updateRow
      (fun _ _ happly => (BarberUpdate.apply_eq_ok happly).1) hrows⟩

theorem flushService_eq_ok {u : ServiceUpdate}
    (h : flushService env id u db = .ok db') :
    db' = { db with services := db'.services } ∧
      ∀ k row', db'.service? k = some row' → db.service? k = some row' ∨
        k = id ∧ ∃ row, db.service? id = some row ∧ u.apply row = .ok row' := by
  rw [flushService] at h
  split at h
  · obtain rfl := Except.ok.inj h
    exact ⟨rfl, fun _ _ hrow => Or.inl hrow⟩
  · simp only [bind_eq_ok_iff] at h
    obtain ⟨_, -, services, hrows, h⟩ := h
    obtain rfl := Except.ok.inj h
    exact ⟨rfl, fun _ _ => lookup_updateRow
      (fun _ _ happly => (ServiceUpdate.apply_eq_ok happly).1) hrows⟩

/-- The index on the lower-cased names of a shop tells the services apart. -/
def Database.NamesUnique (env : Env) (db : Database) : Prop :=
  UniqueKeys (fun s : Service => (s.shopId, env.lower s.name)) db.services

/-- An accepted edit of a service keeps the primary key and the index on the
names. -/
theorem namesUnique_flushService {u : ServiceUpdate}
    (hkeys : UniqueKeys Service.id db.services) (hnames : db.NamesUnique env)
    (h : flushService env id u db = .ok db') :
    UniqueKeys Service.id db'.services ∧ db'.NamesUnique env := by
  rw [flushService] at h
  split at h
  · obtain rfl := Except.ok.inj h
    exact ⟨hkeys, hnames⟩
  · simp only [bind_eq_ok_iff] at h
    obtain ⟨_, -, services, hrows, h⟩ := h
    obtain rfl := Except.ok.inj h
    obtain ⟨row, new, hrow, hnew, hconstraints, rfl⟩ := updateRow_eq_ok hrows
    have hid : new.id = id :=
      (ServiceUpdate.apply_eq_ok hnew).1.trans (key_of_lookup hrow)
    simp only [bind_eq_ok_iff] at hconstraints
    obtain ⟨_, -, hfree⟩ := hconstraints
    constructor
    · apply hkeys.updateAt
      intro r _ hr
      rw [hid, hr]
    · apply hnames.replaceAt hkeys
      intro other hother hne hsame
      obtain ⟨hshop, hname⟩ := Prod.mk.inj hsame
      exact enforce_eq_ok hfree other hother hne hshop hname

theorem flushShop_eq_ok {u : BarbershopUpdate}
    (h : flushShop id u db = .ok db') :
    db' = { db with barbershops := db'.barbershops } ∧
      ∀ k row', db'.barbershop? k = some row' →
        db.barbershop? k = some row' ∨
        k = id ∧ ∃ row, db.barbershop? id = some row ∧
          u.apply row = .ok row' := by
  rw [flushShop] at h
  split at h
  · obtain rfl := Except.ok.inj h
    exact ⟨rfl, fun _ _ hrow => Or.inl hrow⟩
  · simp only [bind_eq_ok_iff] at h
    obtain ⟨_, -, barbershops, hrows, h⟩ := h
    obtain rfl := Except.ok.inj h
    exact ⟨rfl, fun _ _ => lookup_updateRow
      (fun _ _ happly => (BarbershopUpdate.apply_eq_ok happly).1) hrows⟩

end

end BarberHub
