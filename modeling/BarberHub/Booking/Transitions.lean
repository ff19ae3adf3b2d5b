import BarberHub.Booking.Writes
import BarberHub.Slots.Available

/-!
# Creating, moving and closing out appointments

`app/services/booking.py` and the `expire_stale_pending` task.  Each operation
that writes is a transaction, which ends with its commit, followed by the
notification and by reading the appointment back.  The clock is an argument:
`now` is the moment a request takes at its start, `createdAt` the database
clock, and `id` the key generated for a new row.
-/

namespace BarberHub

open ReadCommitted Program

/-! ## Reading an appointment -/

structure PersonSummary where
  id : Uuid
  firstName : String
  lastName : String
  deriving DecidableEq, Repr

structure AppointmentRead where
  id : Uuid
  customer : PersonSummary
  barberId : Uuid
  barber : PersonSummary
  shopId : Uuid
  service : ServiceSummary
  startTime : ℤ
  endTime : ℤ
  status : AppointmentStatus
  totalPrice : ℤ
  cancellationReason : Option String
  createdAt : ℤ
  deriving DecidableEq, Repr

/-- An appointment with what `_eager` loads beside it. -/
structure LoadedAppointment where
  appointment : Appointment
  customer : Option User
  service : Option Service
  barber : Option Barber
  barberUser : Option User
  deriving DecidableEq, Repr

def Database.loadedAppointment? (db : Database) (id : Uuid) :
    Option LoadedAppointment :=
  (db.appointment? id).map fun appointment =>
    let barber := db.barber? appointment.barberId
    { appointment := appointment
      customer := db.user? appointment.customerId
      service := db.service? appointment.serviceId
      barber := barber
      barberUser := barber.bind fun b => db.user? b.userId }

/-- An appointment with what `_eager` loads. -/
def Database.eager (db : Database) (a : Appointment) : LoadedAppointment where
  appointment := a
  customer := db.user? a.customerId
  service := db.service? a.serviceId
  barber := db.barber? a.barberId
  barberUser := (db.barber? a.barberId).bind fun b => db.user? b.userId

theorem Database.loadedAppointment?_eq (db : Database) (id : Uuid) :
    db.loadedAppointment? id = (db.appointment? id).map db.eager := rfl

/-- `_load`. -/
def load (id : Uuid) : Request LoadedAppointment := do
  let found ← query (·.loadedAppointment? id)
  rowOr (notFound "Appointment not found") found

/-- `_is_staff_for`. -/
def isStaffFor (user : User) (loaded : LoadedAppointment) : Request Bool :=
  if user.role = .admin then pure true
  else do
    let barber ← rowOr .attributeError loaded.barber
    if barber.userId = user.id then pure true
    else do
      let shop ← query (·.barbershop? barber.shopId)
      pure (shop.any fun shop => shop.ownerId = user.id)

/-- `_load_for_action`: the appointment, and whether the caller is staff. -/
def loadForAction (user : User) (id : Uuid) :
    Request (LoadedAppointment × Bool) := do
  let loaded ← load id
  let isStaff ← isStaffFor user loaded
  require (isStaff ∨ loaded.appointment.customerId = user.id)
    (forbidden "You are not part of this appointment")
  pure (loaded, isStaff)

/-- `_may_view`. -/
def mayView (user : User) (loaded : LoadedAppointment) : Request Bool :=
  if loaded.appointment.customerId = user.id then pure true
  else isStaffFor user loaded

def User.summary (user : User) (id : Uuid) : PersonSummary where
  id := id
  firstName := user.firstName
  lastName := user.lastName

/-- `_to_read`. -/
def LoadedAppointment.toRead (loaded : LoadedAppointment) :
    Except Raised AppointmentRead :=
  match loaded.customer, loaded.barber, loaded.barberUser, loaded.service with
  | some customer, some barber, some barberUser, some service =>
      .ok {
        id := loaded.appointment.id
        customer := customer.summary customer.id
        barberId := loaded.appointment.barberId
        barber := barberUser.summary barber.id
        shopId := barber.shopId
        service := service.summary
        startTime := loaded.appointment.startTime
        endTime := loaded.appointment.endTime
        status := loaded.appointment.status
        totalPrice := loaded.appointment.totalPrice
        cancellationReason := loaded.appointment.cancellationReason
        createdAt := loaded.appointment.createdAt }
  | _, _, _, _ => .error .attributeError

/-- A stored appointment is shown with all that belongs to it. -/
theorem exists_toRead_eager {db : Database} (hrefs : db.ReferencesHold)
    {a : Appointment} (ha : a ∈ db.appointments) :
    ∃ item, (db.eager a).toRead = .ok item := by
  obtain ⟨hcustomer, hbarber, hservice⟩ := hrefs.appointments a ha
  obtain ⟨customer, hcustomer⟩ := Option.isSome_iff_exists.mp hcustomer
  obtain ⟨barber, hbarber⟩ := Option.isSome_iff_exists.mp hbarber
  obtain ⟨service, hservice⟩ := Option.isSome_iff_exists.mp hservice
  obtain ⟨barberUser, huser⟩ := Option.isSome_iff_exists.mp
    (hrefs.barbers barber (KeyedTable.mem_of_lookup hbarber)).1
  simp [Database.eager, LoadedAppointment.toRead, hcustomer, hbarber, hservice,
    huser]

def getAppointment (user : User) (id : Uuid) : Request AppointmentRead := do
  let loaded ← load id
  let may ← mayView user loaded
  require (may = true) (forbidden "You are not part of this appointment")
  ofExcept loaded.toRead

/-- `appointment_event`: hand a task to the broker, if it is there. -/
def appointmentEvent (env : Env) (event : Event) (id : Uuid) : Request Unit :=
  if env.settings.notificationsEnabled && env.brokerUp then
    write fun db => .ok { db with queue := db.queue ++ [(event, id)] }
  else pure ()

/-! ## Checks -/

/-- `_resolve_barber_and_service`. -/
def resolveBarberAndService (barberId serviceId : Uuid) :
    Request (Barber × Service) := do
  let found ← query (·.activeBarber barberId)
  let (barber, services) ← rowOr (notFound "Barber not found") found
  let found ← query (·.activeService serviceId)
  let service ← rowOr (notFound "Service not found") found
  require (service.shopId = barber.shopId)
    (validationError "That service belongs to a different barbershop")
  require (service.id ∈ services)
    (validationError "This barber does not perform that service")
  pure (barber, service)

def outsideWorkingHours (start : AwareDatetime) (localDay : ℤ)
    (offer : AvailabilityRead) : Raised :=
  .app ⟨.outsideWorkingHoursError,
    "That time is not available for this barber",
    [("requested", .aware start.wall start.offset), ("date", .date localDay),
      ("timezone", .text offer.timezone),
      ("available", .instants ((offer.slots.take 20).map SlotRead.start))]⟩

/-- Refuse any start time the availability endpoint would not have shown. -/
def assertOnOffer (env : Env) (barber : Barber) (service : Service)
    (start : AwareDatetime) (now : ℤ) (exclude : Option Uuid) :
    Request Unit := do
  let found ← query (·.barbershop? barber.shopId)
  let shop ← rowOr .assertionError found
  let instant ← ofExcept (representable start.instant)
  let localStart ← ofExcept (toLocal (env.shopTimezone shop) instant)
  let localDay := dateOf localStart
  let offer ← availableSlots env barber.id localDay service.id now exclude false
  if offer.Offers start.instant then pure ()
  else
    -- tells a time nobody could book from one that somebody else has booked
    let ifEmpty ← availableSlots env barber.id localDay service.id now none true
    if ifEmpty.Offers start.instant then raise slotTaken
    else raise (outsideWorkingHours start localDay offer)

/-- `_commit_or_slot_taken`: a lost race is reported as a taken slot. -/
def commitOrSlotTaken (w : Database → Except Raised Database) : Request Unit :=
  write fun db =>
    match w db with
    | .error (.integrityError .exclusion) => .error slotTaken
    | result => result

def invalidTransition (message : String) (details : List (String × Detail)) :
    Raised :=
  .app ⟨.invalidTransitionError, message, details⟩

/-- The status a row must have for an operation, named in the refusal. -/
def requireStatus (appointment : Appointment)
    (allowed : AppointmentStatus → Bool) (refusal : String) : Request Unit :=
  require (allowed appointment.status = true)
    (invalidTransition
      ("A " ++ appointment.status.value ++ " appointment " ++ refusal)
      [("status", .text appointment.status.value)])

/-- `_assert_within_cutoff`. -/
def assertWithinCutoff (env : Env) (appointment : Appointment) (now : ℤ)
    (isStaff : Bool) : Request Unit :=
  if isStaff then pure ()
  else do
    let cutoff ← ofExcept (representable (appointment.startTime -
      minutes env.settings.appointmentChangeCutoffMinutes))
    require (now < cutoff)
      (.app ⟨.cutoffPassedError,
        "It is too late to change this appointment; please call the shop",
        [("cutoff_minutes",
            .number env.settings.appointmentChangeCutoffMinutes),
          ("starts_at", .instant appointment.startTime)]⟩)

/-! ## Transactions -/

structure AppointmentCreate where
  barberId : Uuid
  serviceId : Uuid
  startTime : AwareDatetime
  deriving DecidableEq, Repr

/-- The row `create_appointment` adds. -/
def newAppointment (customer : User) (barber : Barber)
    (shop : Option Barbershop) (service : Service) (start stop : ℤ)
    (id : Uuid) (createdAt : ℤ) : Appointment where
  id := id
  customerId := customer.id
  barberId := barber.id
  serviceId := service.id
  startTime := start
  endTime := stop
  status :=
    if shop.any (·.requiresConfirmation) then .pending else .confirmed
  totalPrice := service.price
  cancelledById := none
  cancellationReason := none
  createdAt := createdAt

/-- `create_appointment` up to its commit. -/
def createTransaction (env : Env) (customer : User)
    (payload : AppointmentCreate) (now : ℤ) (id : Uuid) (createdAt : ℤ) :
    Request Unit := do
  let (barber, service) ←
    resolveBarberAndService payload.barberId payload.serviceId
  let shop ← query (·.barbershop? barber.shopId)
  let start := payload.startTime
  let stop ← ofExcept (start.add service.duration)
  assertOnOffer env barber service start now none
  -- the driver sends both as UTC instants
  let startTime ← ofExcept (bindParam start.instant)
  let endTime ← ofExcept (bindParam stop.instant)
  commitOrSlotTaken (insertAppointment env (newAppointment customer barber shop
    service startTime endTime id createdAt))

def createAppointment (env : Env) (customer : User)
    (payload : AppointmentCreate) (now : ℤ) (id : Uuid) (createdAt : ℤ) :
    Request AppointmentRead := do
  createTransaction env customer payload now id createdAt
  appointmentEvent env .created id
  getAppointment customer id

/-- `cancel_appointment` up to its commit. -/
def cancelTransaction (env : Env) (user : User) (id : Uuid)
    (reason : Option String) (now : ℤ) : Request Unit := do
  let (loaded, isStaff) ← loadForAction user id
  let appointment := loaded.appointment
  requireStatus appointment (·.blocksSlot) "cannot be cancelled"
  assertWithinCutoff env appointment now isStaff
  write (updateAppointment env id (.ofChange appointment
    { appointment with
      status := .cancelled
      cancelledById := some user.id
      cancellationReason := reason }))

def cancelAppointment (env : Env) (user : User) (id : Uuid)
    (reason : Option String) (now : ℤ) : Request AppointmentRead := do
  cancelTransaction env user id reason now
  appointmentEvent env .cancelled id
  getAppointment user id

/-- `reschedule_appointment` up to its commit. -/
def rescheduleTransaction (env : Env) (user : User) (id : Uuid)
    (newStart : AwareDatetime) (now : ℤ) : Request Unit := do
  let (loaded, isStaff) ← loadForAction user id
  let appointment := loaded.appointment
  requireStatus appointment (·.blocksSlot) "cannot be rescheduled"
  assertWithinCutoff env appointment now isStaff
  let (barber, service) ←
    resolveBarberAndService appointment.barberId appointment.serviceId
  assertOnOffer env barber service newStart now (some appointment.id)
  let newEnd ← ofExcept (newStart.add service.duration)
  let startTime ← ofExcept (bindParam newStart.instant)
  let endTime ← ofExcept (bindParam newEnd.instant)
  commitOrSlotTaken (updateAppointment env id (.ofChange appointment
    { appointment with startTime := startTime, endTime := endTime }))

def rescheduleAppointment (env : Env) (user : User) (id : Uuid)
    (newStart : AwareDatetime) (now : ℤ) : Request AppointmentRead := do
  rescheduleTransaction env user id newStart now
  appointmentEvent env .rescheduled id
  getAppointment user id

/-- `confirm_appointment` up to its commit. -/
def confirmTransaction (env : Env) (user : User) (id : Uuid) :
    Request Unit := do
  let (loaded, isStaff) ← loadForAction user id
  let appointment := loaded.appointment
  require (isStaff = true)
    (forbidden "Only the barber or the shop owner can confirm a booking")
  requireStatus appointment (· = .pending) "cannot be confirmed"
  write (updateAppointment env id (.ofChange appointment
    { appointment with status := .confirmed }))

def confirmAppointment (env : Env) (user : User) (id : Uuid) :
    Request AppointmentRead := do
  confirmTransaction env user id
  appointmentEvent env .created id
  getAppointment user id

/-- `_close_out` up to its commit. -/
def closeOutTransaction (env : Env) (user : User) (id : Uuid)
    (target : AppointmentStatus) (now : ℤ) : Request Unit := do
  let (loaded, isStaff) ← loadForAction user id
  let appointment := loaded.appointment
  require (isStaff = true)
    (forbidden
      "Only the barber or the shop owner can close out an appointment")
  requireStatus appointment (·.blocksSlot) ("cannot become " ++ target.value)
  require (appointment.startTime ≤ now)
    (invalidTransition "This appointment has not started yet"
      [("starts_at", .instant appointment.startTime)])
  write (updateAppointment env id (.ofChange appointment
    { appointment with status := target }))

/-- `_close_out`. -/
def closeOut (env : Env) (user : User) (id : Uuid)
    (target : AppointmentStatus) (now : ℤ) : Request AppointmentRead := do
  closeOutTransaction env user id target now
  getAppointment user id

def completeAppointment (env : Env) (user : User) (id : Uuid) (now : ℤ) :
    Request AppointmentRead :=
  closeOut env user id .completed now

def markNoShow (env : Env) (user : User) (id : Uuid) (now : ℤ) :
    Request AppointmentRead :=
  closeOut env user id .noShow now

/-! ## The confirmation timeout -/

/-- The rows `expire_stale_pending` selects. -/
def Database.stalePending (db : Database) (cutoff : ℤ) : List Appointment :=
  db.appointments.filter fun a => a.status = .pending ∧ a.createdAt < cutoff

theorem Database.mem_stalePending {db : Database} {cutoff : ℤ} {a : Appointment} :
    a ∈ db.stalePending cutoff ↔
      a ∈ db.appointments ∧ a.status = .pending ∧ a.createdAt < cutoff := by
  rw [stalePending, List.mem_filter, decide_eq_true_eq]

/-- The UPDATE for one stale row. -/
def expiry (a : Appointment) : AppointmentUpdate :=
  .ofChange a
    { a with
      status := .cancelled
      cancellationReason := some "Not confirmed in time" }

/-- `expire_stale_pending`: one commit for all the rows it selected. -/
def expireStalePending (env : Env) (now : ℤ) : Request ℕ := do
  let cutoff ← ofExcept (representable (now - minutes 30))
  let stale ← query (·.stalePending cutoff)
  write fun db =>
    stale.foldlM (fun db a => updateAppointment env a.id (expiry a) db) db
  pure stale.length

end BarberHub
