import BarberHub.Core.Tables
import BarberHub.Support.RelyGuarantee

/-!
# What a request runs in

The settings of `app/core/config.py`, and the parts of the world that are not
under the application's control: the time zone database behind `zoneinfo`,
the `lower` function of the database, the hash functions and the message
broker.  Whether the `no_double_booking` constraint is enforced is a field too,
so that what the application guarantees without it can be said.
-/

namespace BarberHub

open ReadCommitted Program

structure Settings where
  slotStepMinutes : ℤ := 15
  minBookingLeadMinutes : ℤ := 30
  appointmentChangeCutoffMinutes : ℤ := 120
  accessTokenExpireMinutes : ℤ := 15
  refreshTokenExpireDays : ℤ := 30
  notificationsEnabled : Bool := true
  deriving DecidableEq, Repr

structure Env where
  settings : Settings := {}
  /-- `ZoneInfo(key)`, none when it raises. -/
  zoneinfo : String → Option Zone
  /-- `settings.default_tz`. -/
  defaultTz : Zone
  /-- `lower` of the database. -/
  lower : String → String := id
  /-- `hashlib.sha256`, as a hexadecimal string. -/
  sha256 : String → String := id
  /-- `hash_password`, with the salt it draws. -/
  hashPassword : String → String → String := fun _ password => password
  /-- `verify_password` of a password against a stored hash. -/
  verifyPassword : String → String → Bool := fun password hash => password = hash
  /-- `needs_rehash` of a stored hash. -/
  needsRehash : String → Bool := fun _ => false
  noDoubleBooking : Bool := true
  /-- Whether `send_task` reaches the broker. -/
  brokerUp : Bool := true

namespace Env

/-- `timedelta(minutes=settings.SLOT_STEP_MINUTES)`. -/
def slotStep (env : Env) : ℤ :=
  minutes env.settings.slotStepMinutes

/-- `timedelta(minutes=settings.MIN_BOOKING_LEAD_MINUTES)`. -/
def bookingLead (env : Env) : ℤ :=
  minutes env.settings.minBookingLeadMinutes

/-- The zone of that name, or the configured default. -/
def zoneNamed (env : Env) (key : String) : Zone :=
  (env.zoneinfo key).getD env.defaultTz

/-- `shop_timezone`: the shop's zone, or the configured default. -/
def shopTimezone (env : Env) (shop : Barbershop) : Zone :=
  env.zoneNamed shop.timezone

/-- The zones `shop_timezone` can return. -/
def Knows (env : Env) (tz : Zone) : Prop :=
  tz = env.defaultTz ∨ ∃ key, env.zoneinfo key = some tz

theorem knows_shopTimezone (env : Env) (shop : Barbershop) :
    env.Knows (env.shopTimezone shop) := by
  rw [shopTimezone, zoneNamed]
  cases h : env.zoneinfo shop.timezone with
  | none => exact Or.inl rfl
  | some tz => exact Or.inr ⟨shop.timezone, h⟩

end Env

/-- A request against the database. -/
abbrev Request (α : Type) := Program Database Raised α

/-- `scalar_one_or_none`, raising when there is no row. -/
def rowOr {α : Type} (e : Raised) : Option α → Request α
  | some row => pure row
  | none => Program.raise e

/-- Raise unless the condition holds. -/
def require (p : Prop) [Decidable p] (e : Raised) : Request Unit :=
  if p then pure () else Program.raise e

theorem run_rowOr_bind_eq_ok_iff
    {α β : Type} {e : Raised} {row : Option α} {f : α → Request β}
    {db db' : Database} {b : β} :
    (rowOr e row >>= f).run db = (.ok b, db') ↔
      ∃ a, row = some a ∧ (f a).run db = (.ok b, db') := by
  cases row <;> simp [rowOr]

theorem run_require_bind_eq_ok_iff
    {β : Type} {p : Prop} [Decidable p] {e : Raised} {f : Unit → Request β}
    {db db' : Database} {b : β} :
    (require p e >>= f).run db = (.ok b, db') ↔
      p ∧ (f ()).run db = (.ok b, db') := by
  rw [require]
  split <;> simp [*]

theorem run_rowOr_eq_ok
    {α : Type} {e : Raised} {row : Option α} {a : α} {db db' : Database}
    (h : (rowOr e row).run db = (.ok a, db')) : row = some a := by
  cases row with
  | none => simp [rowOr] at h
  | some r =>
      simp only [rowOr, pure_eq_done, run_done, Prod.mk.injEq,
        Except.ok.injEq] at h
      rw [h.1]

section

variable {α β : Type} {Q : β → Prop}
  {K : (Database → Except Raised Database) → Except Raised β → Prop}

theorem endsWith_rowOr_bind {e : Raised} {row : Option α} {f : α → Request β}
    (h : ∀ a, row = some a → (f a).EndsWith Q K) :
    (rowOr e row >>= f).EndsWith Q K := by
  cases row with
  | none => exact endsWith_error e
  | some a => exact h a rfl

theorem endsWith_require_bind {p : Prop} [Decidable p] {e : Raised}
    {f : Unit → Request β} (h : p → (f ()).EndsWith Q K) :
    (require p e >>= f).EndsWith Q K := by
  rw [require]
  split
  next hp => exact h hp
  · exact endsWith_error e

end

theorem readOnly_rowOr {α : Type} (e : Raised) (row : Option α) :
    (rowOr e row).ReadOnly := by
  cases row <;> trivial

theorem readOnly_require (p : Prop) [Decidable p] (e : Raised) :
    (require p e).ReadOnly := by
  rw [require]
  split <;> trivial

section

variable {rely guar : Database → Database → Prop}

theorem learns_rowOr
    {α : Type} {Q : α → Database → Prop} {e : Raised} {row : Option α}
    {s : Database} (h : ∀ a t, row = some a → rely s t → Q a t) :
    (rowOr e row).Learns rely guar Q s := by
  cases row with
  | none => exact learns_done fun a t ha => by simp at ha
  | some row => exact learns_done fun a t ha => h a t (by simpa using ha)

theorem learns_require
    {Q : Unit → Database → Prop} {p : Prop} [Decidable p] {e : Raised}
    {s : Database} (h : ∀ t, p → rely s t → Q () t) :
    (require p e).Learns rely guar Q s := by
  rw [require]
  split
  next hp => exact learns_done fun _ t _ => h t hp
  · exact learns_done fun a t ha => by simp at ha

end

/-- The result of datetime arithmetic, if Python can hold it. -/
def representable (x : ℤ) : Except Raised ℤ :=
  if Representable x then .ok x else .error .overflowError

@[simp] theorem representable_eq_ok_iff {x y : ℤ} :
    representable x = .ok y ↔ Representable x ∧ x = y := by
  rw [representable]
  split <;> simp [*]

theorem representable_of {x : ℤ} (h : Representable x) :
    representable x = .ok x := if_pos h

/-- `x + timedelta`: the sum is formed on the clock that `x` is written on. -/
def AwareDatetime.add (x : AwareDatetime) (duration : ℤ) :
    Except Raised AwareDatetime :=
  if h : Representable (x.wall + duration) then
    .ok { x with wall := x.wall + duration, readable := h }
  else .error .overflowError

theorem AwareDatetime.add_of {x : AwareDatetime} {duration : ℤ}
    (h : Representable (x.wall + duration)) :
    ∃ y, x.add duration = .ok y ∧ y.instant = x.instant + duration := by
  refine ⟨_, dif_pos h, ?_⟩
  simp only [instant]
  omega

theorem AwareDatetime.add_eq_ok {x y : AwareDatetime} {duration : ℤ}
    (h : x.add duration = .ok y) :
    Representable (x.wall + duration) ∧ y.instant = x.instant + duration := by
  by_cases hwall : Representable (x.wall + duration)
  · obtain ⟨z, hz, hinstant⟩ := add_of hwall
    obtain rfl := Except.ok.inj (hz.symm.trans h)
    exact ⟨hwall, hinstant⟩
  · rw [add, dif_neg hwall] at h
    simp at h

theorem AwareDatetime.add_of_not {x : AwareDatetime} {duration : ℤ}
    (h : ¬ Representable (x.wall + duration)) :
    x.add duration = .error .overflowError :=
  dif_neg h

/-- An instant as a parameter of a statement. -/
def bindParam (x : ℤ) : Except Raised ℤ :=
  if Representable x then .ok x else .error .dataError

theorem bindParam_eq_ok_iff {x y : ℤ} :
    bindParam x = .ok y ↔ Representable x ∧ x = y := by
  rw [bindParam]
  split <;> simp [*]

theorem bindParam_eq_ok {x y : ℤ} (h : bindParam x = .ok y) : x = y :=
  (bindParam_eq_ok_iff.mp h).2

/-! ## A sample shop -/

namespace Sample

/-- A shop in UTC, with the default settings. -/
def env : Env where
  zoneinfo key := if key = "UTC" then some (.fixed "UTC" 0) else none
  defaultTz := .fixed "UTC" 0

def timeOfDay (hour minute : ℕ) : TimeOfDay :=
  Fin.ofNat 86400000000 ((hour * 60 + minute) * 60000000)

/-- A Monday. -/
def monday : ℤ := 735001

/-- A time on that Monday, UTC. -/
def clock (hour minute : ℕ) : ℤ :=
  combine monday (timeOfDay hour minute)

theorem clock_representable (hour minute : ℕ) :
    Representable (clock hour minute) := by
  have hbounds := combine_bounds monday (timeOfDay hour minute)
  unfold midnight monday oneDay at hbounds
  unfold Representable datetimeMin datetimeMax dateMax oneDay clock monday
  omega

/-- That time, as a request writes it. -/
def start (hour minute : ℕ) : AwareDatetime :=
  .utc (clock hour minute) (clock_representable hour minute)

/-- An account whose email is its first name, and its password hash the last. -/
def account (id : Uuid) (firstName lastName : String) (role : UserRole) :
    User where
  id := id
  firstName := firstName
  lastName := lastName
  email := firstName
  phone := none
  passwordHash := lastName
  role := role
  isActive := true
  createdAt := clock 0 0

def admin : User := account 1 "Ada" "Admin" .admin
def owner : User := account 2 "Olga" "Owner" .shopOwner
def stylist : User := account 3 "Boris" "Barber" .barber
def customer : User := account 4 "Cara" "Customer" .customer

def shop : Barbershop where
  id := 10
  ownerId := 2
  name := "Sample shop"
  description := none
  address := "1 Main Street"
  city := "Almaty"
  latitude := none
  longitude := none
  phone := none
  timezone := "UTC"
  isActive := true
  requiresConfirmation := false
  createdAt := clock 0 0

def barber : Barber := ⟨20, 3, 10, none, 0, 0, 0, true⟩

def haircut : Service := ⟨30, 10, "Haircut", none, 30, 500000, true⟩

/-- The barber works from nine to five on Mondays. -/
def hours : WorkingHours := ⟨50, 20, 0, timeOfDay 9 0, timeOfDay 17 0⟩

/-- A shop nobody has booked yet. -/
def db : Database where
  users := [admin, owner, stylist, customer]
  barbershops := [shop]
  barbers := [barber]
  services := [haircut]
  barberServices := [(20, 30)]
  workingHours := [hours]

/-- A booking of the first customer. -/
def booking (id : Uuid) (start stop : ℤ) (status : AppointmentStatus) :
    Appointment where
  id := id
  customerId := 4
  barberId := 20
  serviceId := 30
  startTime := start
  endTime := stop
  status := status
  totalPrice := 500000
  cancelledById := none
  cancellationReason := none
  createdAt := clock 0 0

/-- The shop with a booking from nine to half past. -/
def bookedDb : Database :=
  { db with appointments := [booking 40 (clock 9 0) (clock 9 30) .confirmed] }

/-- 2026-03-29, the Sunday on which Berlin springs forward. -/
def springDay : ℤ := 739704

/-- Berlin in 2026: an hour ahead, two hours in summer. -/
def berlin : Zone where
  key := "Europe/Berlin"
  initial := minutes 60
  changes := [
    (combine 739704 (timeOfDay 1 0), minutes 120),
    (combine 739914 (timeOfDay 1 0), minutes 60)]
  sorted := by decide

/-- A world in which every zone is Berlin. -/
def berlinEnv : Env where
  zoneinfo _ := some berlin
  defaultTz := berlin

/-- The barber works for a part of every Sunday, in Berlin. -/
def berlinDb (start stop : TimeOfDay) : Database :=
  { db with
    barbershops := [{ shop with timezone := "Europe/Berlin" }]
    workingHours := [⟨50, 20, 6, start, stop⟩] }

/-- A world in which every zone is twelve hours behind UTC. -/
def lateEnv : Env where
  zoneinfo _ := some (.fixed "Etc/GMT+12" (-(minutes 720)))
  defaultTz := .fixed "Etc/GMT+12" (-(minutes 720))

def lateShop : Barbershop := { shop with timezone := "Etc/GMT+12" }

/-- The barber works late on the weekday of 9999-12-30. -/
def lateDb : Database :=
  { db with
    barbershops := [lateShop]
    workingHours :=
      [⟨50, 20, weekday (dateMax - 1), timeOfDay 22 0, timeOfDay 23 30⟩] }

theorem eq_of_knows_late {tz : Zone} (h : lateEnv.Knows tz) :
    tz = .fixed "Etc/GMT+12" (-(minutes 720)) := by
  rcases h with rfl | ⟨key, hkey⟩
  · rfl
  · exact (Option.some.inj hkey).symm

/-- The sample world knows no other zone than UTC. -/
theorem eq_of_knows {tz : Zone} (h : env.Knows tz) : tz = .fixed "UTC" 0 := by
  rcases h with rfl | ⟨key, hkey⟩
  · rfl
  · rw [env] at hkey
    dsimp only at hkey
    split at hkey
    · exact (Option.some.inj hkey).symm
    · simp at hkey

theorem db_valid : db.Valid := by
  decide +kernel

theorem bookedDb_valid : bookedDb.Valid := by
  decide +kernel

end Sample

end BarberHub
