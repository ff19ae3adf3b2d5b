import BarberHub.Core.Errors
import BarberHub.Core.Time
import BarberHub.Support.KeyedTable
import Mathlib.Tactic.MkIffOfInductiveProp

/-!
# The schema

The tables of `app/models`, as lists of rows, and the constraints the schema
puts on them.  Amounts of money are in hundredths and coordinates in
millionths, the smallest units their columns hold.  Columns that no modelled
function reads or writes are left out.
-/

namespace BarberHub

open HalfOpen KeyedTable

/-! ## Enumerations -/

inductive UserRole where
  | customer
  | barber
  | shopOwner
  | admin
  deriving DecidableEq, Repr

inductive AppointmentStatus where
  | pending
  | confirmed
  | completed
  | cancelled
  | noShow
  deriving DecidableEq, Repr

namespace AppointmentStatus

/-- `value`, as error texts quote it. -/
def value : AppointmentStatus → String
  | pending => "PENDING"
  | confirmed => "CONFIRMED"
  | completed => "COMPLETED"
  | cancelled => "CANCELLED"
  | noShow => "NO_SHOW"

/-- `is_terminal`. -/
def isTerminal : AppointmentStatus → Bool
  | completed | cancelled | noShow => true
  | pending | confirmed => false

/-- `blocks_slot`: the statuses in `_ACTIVE` occupy the barber's time. -/
def blocksSlot : AppointmentStatus → Bool
  | pending | confirmed => true
  | completed | cancelled | noShow => false

/-- A status either occupies the calendar or is final. -/
theorem isTerminal_eq_not_blocksSlot (s : AppointmentStatus) :
    s.isTerminal = !s.blocksSlot := by
  cases s <;> rfl

theorem ne_of_blocksSlot {s final : AppointmentStatus} (h : s.blocksSlot = true)
    (hfinal : final.blocksSlot = false) : s ≠ final := by
  rintro rfl
  simp [h] at hfinal

end AppointmentStatus

/-! ## Rows -/

structure User where
  id : Uuid
  firstName : String
  lastName : String
  email : String
  phone : Option String
  passwordHash : String
  role : UserRole
  isActive : Bool
  createdAt : ℤ
  deriving DecidableEq, Repr

structure Barbershop where
  id : Uuid
  ownerId : Uuid
  name : String
  description : Option String
  address : String
  city : String
  latitude : Option ℤ
  longitude : Option ℤ
  phone : Option String
  timezone : String
  isActive : Bool
  requiresConfirmation : Bool
  createdAt : ℤ
  deriving DecidableEq, Repr

structure Barber where
  id : Uuid
  userId : Uuid
  shopId : Uuid
  bio : Option String
  experienceYears : ℤ
  /-- In hundredths. -/
  rating : ℤ
  reviewsCount : ℤ
  isActive : Bool
  deriving DecidableEq, Repr

structure Service where
  id : Uuid
  shopId : Uuid
  name : String
  description : Option String
  durationMinutes : ℤ
  price : ℤ
  isActive : Bool
  deriving DecidableEq, Repr

/-- One shift on one weekday, in the shop's wall clock. -/
structure WorkingHours where
  id : Uuid
  barberId : Uuid
  weekday : ℤ
  startTime : TimeOfDay
  endTime : TimeOfDay
  deriving DecidableEq, Repr

structure BarberBreak where
  id : Uuid
  barberId : Uuid
  startDatetime : ℤ
  endDatetime : ℤ
  reason : Option String
  deriving DecidableEq, Repr

/-- A range of local calendar days, both ends included. -/
structure ShopClosure where
  id : Uuid
  shopId : Uuid
  startDate : ℤ
  endDate : ℤ
  reason : Option String
  deriving DecidableEq, Repr

structure Appointment where
  id : Uuid
  customerId : Uuid
  barberId : Uuid
  serviceId : Uuid
  startTime : ℤ
  endTime : ℤ
  status : AppointmentStatus
  totalPrice : ℤ
  cancelledById : Option Uuid
  cancellationReason : Option String
  createdAt : ℤ
  deriving DecidableEq, Repr

structure RefreshToken where
  id : Uuid
  userId : Uuid
  tokenHash : String
  expiresAt : ℤ
  revokedAt : Option ℤ
  deriving DecidableEq, Repr

structure Review where
  id : Uuid
  customerId : Uuid
  barberId : Uuid
  appointmentId : Uuid
  rating : ℤ
  comment : Option String
  createdAt : ℤ
  deriving DecidableEq, Repr

inductive ReminderKind where
  | dayBefore
  | hoursBefore
  deriving DecidableEq, Repr

structure AppointmentReminder where
  appointmentId : Uuid
  kind : ReminderKind
  deriving DecidableEq, Repr

/-- `Event` of `app/services/notifications.py`. -/
inductive Event where
  | created
  | cancelled
  | rescheduled
  deriving DecidableEq, Repr

/-- The committed tables, and the notification tasks handed to the broker. -/
structure Database where
  users : List User := []
  barbershops : List Barbershop := []
  barbers : List Barber := []
  services : List Service := []
  /-- `barber_services`: barber and service. -/
  barberServices : List (Uuid × Uuid) := []
  workingHours : List WorkingHours := []
  barberBreaks : List BarberBreak := []
  shopClosures : List ShopClosure := []
  appointments : List Appointment := []
  refreshTokens : List RefreshToken := []
  reviews : List Review := []
  appointmentReminders : List AppointmentReminder := []
  queue : List (Event × Uuid) := []
  deriving DecidableEq, Repr

namespace Database

def user? (db : Database) : Uuid → Option User :=
  lookup User.id db.users

def barbershop? (db : Database) : Uuid → Option Barbershop :=
  lookup Barbershop.id db.barbershops

def barber? (db : Database) : Uuid → Option Barber :=
  lookup Barber.id db.barbers

def service? (db : Database) : Uuid → Option Service :=
  lookup Service.id db.services

def barberBreak? (db : Database) : Uuid → Option BarberBreak :=
  lookup BarberBreak.id db.barberBreaks

def shopClosure? (db : Database) : Uuid → Option ShopClosure :=
  lookup ShopClosure.id db.shopClosures

def appointment? (db : Database) : Uuid → Option Appointment :=
  lookup Appointment.id db.appointments

end Database

/-! ## Constraints -/

/-- The two rows would occupy the same barber at the same time: what
`no_double_booking` excludes. -/
def Appointment.Conflicts (a b : Appointment) : Prop :=
  a.barberId = b.barberId ∧ a.status.blocksSlot ∧ b.status.blocksSlot ∧
    Overlap a.startTime a.endTime b.startTime b.endTime

instance (a b : Appointment) : Decidable (a.Conflicts b) :=
  inferInstanceAs (Decidable (_ ∧ _ ∧ _ ∧ _))

theorem Appointment.conflicts_comm {a b : Appointment} :
    a.Conflicts b ↔ b.Conflicts a := by
  unfold Conflicts
  rw [overlap_comm, eq_comm]
  tauto

/-- `experience_years_non_negative`, `rating_range` and
`reviews_count_non_negative`. -/
def Barber.Checked (barber : Barber) : Prop :=
  0 ≤ barber.experienceYears ∧ 0 ≤ barber.rating ∧ barber.rating ≤ 500 ∧
    0 ≤ barber.reviewsCount

/-- `duration_minutes_range` and `price_non_negative`. -/
def Service.Checked (service : Service) : Prop :=
  0 < service.durationMinutes ∧ service.durationMinutes ≤ 480 ∧
    0 ≤ service.price

/-- `weekday_range` and `end_after_start`. -/
def WorkingHours.Checked (hours : WorkingHours) : Prop :=
  0 ≤ hours.weekday ∧ hours.weekday ≤ 6 ∧ hours.startTime < hours.endTime

/-- `end_after_start` and `total_price_non_negative`. -/
def Appointment.Checked (a : Appointment) : Prop :=
  a.startTime < a.endTime ∧ 0 ≤ a.totalPrice

/-- `rating_range` of `reviews`. -/
def Review.Checked (review : Review) : Prop :=
  1 ≤ review.rating ∧ review.rating ≤ 5

instance (barber : Barber) : Decidable barber.Checked :=
  inferInstanceAs (Decidable (_ ∧ _ ∧ _ ∧ _))

instance (service : Service) : Decidable service.Checked :=
  inferInstanceAs (Decidable (_ ∧ _ ∧ _))

instance (hours : WorkingHours) : Decidable hours.Checked :=
  inferInstanceAs (Decidable (_ ∧ _ ∧ _))

instance (a : Appointment) : Decidable a.Checked :=
  inferInstanceAs (Decidable (_ ∧ _))

instance (review : Review) : Decidable review.Checked :=
  inferInstanceAs (Decidable (_ ∧ _))

namespace Database

/-- The primary keys. -/
@[mk_iff] structure KeysUnique (db : Database) : Prop where
  users : UniqueKeys User.id db.users
  barbershops : UniqueKeys Barbershop.id db.barbershops
  barbers : UniqueKeys Barber.id db.barbers
  services : UniqueKeys Service.id db.services
  workingHours : UniqueKeys WorkingHours.id db.workingHours
  barberBreaks : UniqueKeys BarberBreak.id db.barberBreaks
  shopClosures : UniqueKeys ShopClosure.id db.shopClosures
  appointments : UniqueKeys Appointment.id db.appointments
  refreshTokens : UniqueKeys RefreshToken.id db.refreshTokens
  reviews : UniqueKeys Review.id db.reviews

/-- The foreign keys. -/
@[mk_iff] structure ReferencesHold (db : Database) : Prop where
  barbershops : ∀ s ∈ db.barbershops, (db.user? s.ownerId).isSome
  barbers : ∀ b ∈ db.barbers,
    (db.user? b.userId).isSome ∧ (db.barbershop? b.shopId).isSome
  services : ∀ s ∈ db.services, (db.barbershop? s.shopId).isSome
  barberServices : ∀ link ∈ db.barberServices,
    (db.barber? link.1).isSome ∧ (db.service? link.2).isSome
  workingHours : ∀ h ∈ db.workingHours, (db.barber? h.barberId).isSome
  barberBreaks : ∀ b ∈ db.barberBreaks, (db.barber? b.barberId).isSome
  shopClosures : ∀ c ∈ db.shopClosures, (db.barbershop? c.shopId).isSome
  appointments : ∀ a ∈ db.appointments,
    (db.user? a.customerId).isSome ∧ (db.barber? a.barberId).isSome ∧
      (db.service? a.serviceId).isSome
  reviews : ∀ r ∈ db.reviews,
    (db.user? r.customerId).isSome ∧ (db.barber? r.barberId).isSome ∧
      (db.appointment? r.appointmentId).isSome
  appointmentReminders : ∀ r ∈ db.appointmentReminders,
    (db.appointment? r.appointmentId).isSome

/-- The CHECK constraints. -/
@[mk_iff] structure ChecksHold (db : Database) : Prop where
  barbers : ∀ b ∈ db.barbers, b.Checked
  services : ∀ s ∈ db.services, s.Checked
  workingHours : ∀ h ∈ db.workingHours, h.Checked
  barberBreaks : ∀ b ∈ db.barberBreaks, b.startDatetime < b.endDatetime
  shopClosures : ∀ c ∈ db.shopClosures, c.startDate ≤ c.endDate
  appointments : ∀ a ∈ db.appointments, a.Checked
  reviews : ∀ r ∈ db.reviews, r.Checked

/-- `no_double_booking`. -/
def NoDoubleBooking (db : Database) : Prop :=
  ∀ a ∈ db.appointments, ∀ b ∈ db.appointments, a.id ≠ b.id → ¬ a.Conflicts b

instance (db : Database) : Decidable db.NoDoubleBooking :=
  inferInstanceAs (Decidable (∀ a ∈ _, ∀ b ∈ _, _ → ¬ _))

/-- The database satisfies the schema constraints the modelled columns have,
the indexes on the lower-cased names of services and on the case-insensitive
emails of users apart. -/
@[mk_iff] structure Valid (db : Database) : Prop where
  keys : db.KeysUnique
  references : db.ReferencesHold
  checks : db.ChecksHold
  barbers_unique : UniqueKeys
    (fun b : Barber => (b.userId, b.shopId)) db.barbers
  workingHours_unique : UniqueKeys
    (fun h : WorkingHours => (h.barberId, h.weekday, h.startTime))
    db.workingHours
  shopClosures_unique : UniqueKeys
    (fun c : ShopClosure => (c.shopId, c.startDate, c.endDate))
    db.shopClosures
  tokenHash_unique : UniqueKeys RefreshToken.tokenHash db.refreshTokens
  reviews_unique : UniqueKeys Review.appointmentId db.reviews
  appointmentReminders_unique : UniqueKeys
    (fun r : AppointmentReminder => (r.appointmentId, r.kind))
    db.appointmentReminders
  noDoubleBooking : db.NoDoubleBooking

instance (db : Database) : Decidable db.KeysUnique :=
  decidable_of_iff' _ (keysUnique_iff db)

instance (db : Database) : Decidable db.ReferencesHold :=
  decidable_of_iff' _ (referencesHold_iff db)

instance (db : Database) : Decidable db.ChecksHold :=
  decidable_of_iff' _ (checksHold_iff db)

instance (db : Database) : Decidable db.Valid :=
  decidable_of_iff' _ (valid_iff db)

end Database

end BarberHub
