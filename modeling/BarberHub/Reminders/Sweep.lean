import BarberHub.Core.Environment
import BarberHub.Support.Fallible
import BarberHub.Support.LockedTransactions

/-!
# The reminder sweep

`send_appointment_reminders` of `app/workers/tasks.py`, as a transaction that
claims each reminder with a row of `appointment_reminders` before it hands the
mail to `send_email.delay`.  The rows are committed together, when the session
of the sweep ends.  A mail is kept as the values its template is rendered with.
-/

namespace BarberHub

open KeyedTable LockedTransactions Transaction

/-- The unique key of a claim: the appointment and the kind. -/
abbrev ReminderKey := Uuid × ReminderKind

/-- What `_context` collects for the templates; `when` is the reading of the
shop's clock. -/
structure MailContext where
  customer : String
  barber : String
  shop : String
  address : String
  service : String
  price : ℤ
  when : ℤ
  cutoff : ℤ
  reason : String
  horizon : String
  deriving DecidableEq, Repr

/-- A reminder handed to `send_email.delay`: whom it goes to and what it says,
and which appointment, kind and start it is about. -/
structure ReminderMail where
  appointmentId : Uuid
  kind : ReminderKind
  startTime : ℤ
  recipient : String
  context : MailContext
  deriving DecidableEq, Repr

/-- The claim a mail is sent under. -/
def ReminderMail.key (mail : ReminderMail) : ReminderKey :=
  (mail.appointmentId, mail.kind)

abbrev SweepTransaction (α : Type) :=
  Transaction Database ReminderKey ReminderMail Raised α

/-- `REMINDER_HORIZONS`. -/
def ReminderKind.horizon : ReminderKind → ℤ
  | dayBefore => minutes (24 * 60)
  | hoursBefore => minutes (2 * 60)

/-- `context["horizon"]`. -/
def ReminderKind.phrase : ReminderKind → String
  | dayBefore => "tomorrow"
  | hoursBefore => "in 2 hours"

/-- `REMINDER_WINDOW`. -/
def reminderWindow : ℤ := minutes 20

namespace Database

/-- The appointments in `_ACTIVE` that start in the window. -/
def dueAppointments (db : Database) (target : ℤ) : List Appointment :=
  db.appointments.filter fun a =>
    a.status.blocksSlot ∧ target ≤ a.startTime ∧
      a.startTime < target + reminderWindow

/-- The claim can be inserted: there is none, and the appointment exists. -/
def AcceptsReminder (db : Database) (key : ReminderKey) : Prop :=
  (∀ r ∈ db.appointmentReminders, (r.appointmentId, r.kind) ≠ key) ∧
    (db.appointment? key.1).isSome

instance (db : Database) (key : ReminderKey) :
    Decidable (db.AcceptsReminder key) :=
  inferInstanceAs (Decidable (_ ∧ _))

def addReminder (key : ReminderKey) (db : Database) : Database :=
  { db with
    appointmentReminders := db.appointmentReminders ++ [⟨key.1, key.2⟩] }

end Database

/-- What `_eager` loads beside the appointments, one statement for each
relationship. -/
structure Related where
  customers : List User
  services : List Service
  barbers : List Barber
  barberUsers : List User
  shops : List Barbershop

def eager : SweepTransaction Related := do
  let customers ← query fun db => db.users
  let services ← query fun db => db.services
  let barbers ← query fun db => db.barbers
  let barberUsers ← query fun db => db.users
  let shops ← query fun db => db.barbershops
  pure ⟨customers, services, barbers, barberUsers, shops⟩

/-- A row, or the `AttributeError` of reading a column of `None`. -/
def attributeOf {α : Type} : Option α → Except Raised α
  | some row => .ok row
  | none => .error .attributeError

/-- The reminder of an appointment: `_context`, with the horizon filled in. -/
def reminderMail (env : Env) (related : Related) (kind : ReminderKind)
    (a : Appointment) : Except Raised ReminderMail := do
  let barber ← attributeOf (lookup Barber.id related.barbers a.barberId)
  let shop ← attributeOf (lookup Barbershop.id related.shops barber.shopId)
  let wall ← representable ((env.shopTimezone shop).toWall a.startTime)
  let customer ← attributeOf (lookup User.id related.customers a.customerId)
  let barberUser ← attributeOf (lookup User.id related.barberUsers barber.userId)
  let service ← attributeOf (lookup Service.id related.services a.serviceId)
  pure
    { appointmentId := a.id
      kind := kind
      startTime := a.startTime
      recipient := customer.email
      context :=
        { customer := customer.firstName
          barber := barberUser.firstName
          shop := shop.name
          address := shop.address
          service := service.name
          price := a.totalPrice
          when := wall
          cutoff := env.settings.appointmentChangeCutoffMinutes
          reason := ""
          horizon := kind.phrase } }

theorem reminderMail_eq_ok
    {env : Env} {related : Related} {kind : ReminderKind} {a : Appointment}
    {mail : ReminderMail} (h : reminderMail env related kind a = .ok mail) :
    mail.key = (a.id, kind) ∧ mail.startTime = a.startTime := by
  rw [reminderMail] at h
  obtain ⟨barber, -, h⟩ := Fallible.bind_eq_ok_iff.mp h
  obtain ⟨shop, -, h⟩ := Fallible.bind_eq_ok_iff.mp h
  obtain ⟨wall, -, h⟩ := Fallible.bind_eq_ok_iff.mp h
  obtain ⟨customer, -, h⟩ := Fallible.bind_eq_ok_iff.mp h
  obtain ⟨barberUser, -, h⟩ := Fallible.bind_eq_ok_iff.mp h
  obtain ⟨service, -, h⟩ := Fallible.bind_eq_ok_iff.mp h
  obtain rfl := Except.ok.inj h
  exact ⟨rfl, rfl⟩

/-- `_claim_reminder`: an `INSERT` in a savepoint. -/
def claimReminder (key : ReminderKey) : SweepTransaction Bool :=
  insertRow key (fun db => ¬ db.AcceptsReminder key) (Database.addReminder key)

/-- The loop over the appointments that are due. -/
def remindAll (env : Env) (related : Related) (kind : ReminderKind) :
    List Appointment → ℕ → SweepTransaction ℕ
  | [], queued => pure queued
  | a :: due, queued => do
      let claimed ← claimReminder (a.id, kind)
      if claimed then
        let mail ← done (reminderMail env related kind a)
        emit mail
        remindAll env related kind due (queued + 1)
      else remindAll env related kind due queued

/-- The body of the loop over `REMINDER_HORIZONS`. -/
def remindKind (env : Env) (moment : ℤ) (kind : ReminderKind) (queued : ℕ) :
    SweepTransaction ℕ := do
  let target ← done (representable (moment + kind.horizon))
  let _stop ← done (representable (target + reminderWindow))
  let due ← query fun db => db.dueAppointments target
  let related ← eager
  remindAll env related kind due queued

/-- `send_appointment_reminders` at `moment`. -/
def sendAppointmentReminders (env : Env) (moment : ℤ) :
    SweepTransaction ℕ := do
  let queued ← remindKind env moment .dayBefore 0
  let queued ← remindKind env moment .hoursBefore queued
  commitPending
  pure queued

end BarberHub
