import Mathlib.Data.List.ReduceOption
import BarberHub.Availability.FreeSlots
import BarberHub.Availability.LocalDay

/-!
# Turning stored schedules into bookable slots

`app/services/slots.py`: the queries behind the availability endpoint, in the
order they are made, each seeing what is committed when it is made.
-/

namespace BarberHub

open HalfOpen ReadCommitted Program

/-! ## The response -/

/-- Hour and minute of a reading, as `strftime("%H:%M")` prints them. -/
def hourMinute (w : ℤ) : ℤ × ℤ :=
  (w % oneDay / minutes 60, w % minutes 60 / minutes 1)

structure SlotRead where
  start : ℤ
  stop : ℤ
  startLocal : ℤ × ℤ
  endLocal : ℤ × ℤ
  deriving DecidableEq, Repr

structure ServiceSummary where
  id : Uuid
  name : String
  durationMinutes : ℤ
  deriving DecidableEq, Repr

structure AvailabilityRead where
  date : ℤ
  timezone : String
  barberId : Uuid
  service : ServiceSummary
  slots : List SlotRead
  deriving DecidableEq, Repr

/-- Some offered slot starts at the requested time. -/
def AvailabilityRead.Offers (offer : AvailabilityRead) (start : ℤ) : Prop :=
  ∃ slot ∈ offer.slots, slot.start = start

instance (offer : AvailabilityRead) (start : ℤ) :
    Decidable (offer.Offers start) :=
  inferInstanceAs (Decidable (∃ slot ∈ _, _))

def Service.summary (service : Service) : ServiceSummary where
  id := service.id
  name := service.name
  durationMinutes := service.durationMinutes

/-- `timedelta(minutes=service.duration_minutes)`. -/
def Service.duration (service : Service) : ℤ :=
  minutes service.durationMinutes

def slotRead (tz : Zone) (slot : Interval) : Except Raised SlotRead := do
  let startLocal ← toLocal tz slot.start
  let endLocal ← toLocal tz slot.stop
  pure {
    start := slot.start
    stop := slot.stop
    startLocal := hourMinute startLocal
    endLocal := hourMinute endLocal }

/-- `_render`. -/
def render (day : ℤ) (tz : Zone) (barberId : Uuid) (service : Service)
    (slots : List Interval) : Except Raised AvailabilityRead := do
  let reads ← slots.mapM (slotRead tz)
  pure {
    date := day
    timezone := tz.key
    barberId := barberId
    service := service.summary
    slots := reads }

/-! ## The queries -/

namespace Database

/-- `barber.services`, as far as its ids go. -/
def servicesOf (db : Database) (barberId : Uuid) : List Uuid :=
  (db.barberServices.filter fun link => link.1 = barberId).map Prod.snd

/-- An active barber, with the services loaded beside the row. -/
def activeBarber (db : Database) (barberId : Uuid) :
    Option (Barber × List Uuid) :=
  ((db.barber? barberId).filter (·.isActive)).map fun barber =>
    (barber, db.servicesOf barber.id)

def activeShop (db : Database) (shopId : Uuid) : Option Barbershop :=
  (db.barbershop? shopId).filter (·.isActive)

def activeService (db : Database) (serviceId : Uuid) : Option Service :=
  (db.service? serviceId).filter (·.isActive)

/-- Some closure of the shop covers the local day. -/
def ClosedOn (db : Database) (shopId : Uuid) (day : ℤ) : Prop :=
  ∃ c ∈ db.shopClosures, c.shopId = shopId ∧ c.startDate ≤ day ∧ day ≤ c.endDate

instance (db : Database) (shopId : Uuid) (day : ℤ) :
    Decidable (db.ClosedOn shopId day) :=
  inferInstanceAs (Decidable (∃ c ∈ _, _ ∧ _ ∧ _))

/-- The rows `_shifts_for` fetches. -/
def hoursOn (db : Database) (barberId : Uuid) (day : ℤ) : List WorkingHours :=
  db.workingHours.filter fun row =>
    row.barberId = barberId ∧ row.weekday = weekday day

/-- The rows `_appointments` fetches. -/
def appointmentsIn (db : Database) (barberId : Uuid) (window : Interval)
    (exclude : Option Uuid) : List Appointment :=
  db.appointments.filter fun a =>
    a.barberId = barberId ∧ a.status.blocksSlot ∧ a.startTime < window.stop ∧
      window.start < a.endTime ∧ exclude ≠ some a.id

/-- The rows `_breaks` fetches. -/
def breaksIn (db : Database) (barberId : Uuid) (window : Interval) :
    List BarberBreak :=
  db.barberBreaks.filter fun b =>
    b.barberId = barberId ∧ b.startDatetime < window.stop ∧
      window.start < b.endDatetime

end Database

def validationError (message : String) (details : List (String × Detail) := []) :
    Raised :=
  .app ⟨.validationError, message, details⟩

/-- `_load_and_validate`. -/
def loadAndValidate (barberId serviceId : Uuid) :
    Request (Barber × Barbershop × Service) := do
  let found ← query (·.activeBarber barberId)
  let (barber, services) ← rowOr (notFound "Barber not found") found
  let found ← query (·.activeShop barber.shopId)
  let shop ← rowOr (notFound "Barber not found") found
  let found ← query (·.activeService serviceId)
  let service ← rowOr (notFound "Service not found") found
  -- a service from another shop, and one this barber does not perform
  require (service.shopId = barber.shopId)
    (validationError "That service belongs to a different barbershop")
  require (service.id ∈ services)
    (validationError "This barber does not perform that service"
      [("barber_id", .id barberId), ("service_id", .id serviceId)])
  pure (barber, shop, service)

/-- `_shifts_for`. -/
def shiftsFor (barberId : Uuid) (day : ℤ) (tz : Zone) :
    Request (List Interval) := do
  let rows ← query (·.hoursOn barberId day)
  let shifts ← ofExcept (rows.mapM fun row =>
    workingInterval day row.startTime row.endTime tz)
  pure shifts.reduceOption

/-- `_appointments`. -/
def appointments (barberId : Uuid) (window : Interval)
    (exclude : Option Uuid) : Request (List Interval) := do
  let rows ← query (·.appointmentsIn barberId window exclude)
  ofExcept (rows.mapM fun a => Interval.new a.startTime a.endTime)

/-- `taken` of `available_slots`. -/
def taken (barberId : Uuid) (window : Interval) (exclude : Option Uuid)
    (ignoreAppointments : Bool) : Request (List Interval) :=
  if ignoreAppointments then pure [] else appointments barberId window exclude

/-- `_is_closed`. -/
def isClosed (shopId : Uuid) (day : ℤ) : Request Bool :=
  query fun db => db.ClosedOn shopId day

/-- `_breaks`. -/
def breaks (barberId : Uuid) (window : Interval) : Request (List Interval) := do
  let rows ← query (·.breaksIn barberId window)
  ofExcept (rows.mapM fun b => Interval.new b.startDatetime b.endDatetime)

/-- `compute_free_slots` as called here, with the range of its datetimes. -/
def freeSlots (env : Env) (service : Service) (now : ℤ) (window : Interval)
    (shifts busy : List Interval) : Except Raised (List Interval) := do
  let notBefore ← representable (now + env.bookingLead)
  let slots ← computeFreeSlots (clip shifts window) busy
    service.duration env.slotStep notBefore window.start
  if SlotsRepresentable (subtract (normalize (clip shifts window)) busy)
      service.duration env.slotStep notBefore window.start then
    pure slots
  else .error .overflowError

/-- Free slots for one barber on one local calendar day. -/
def availableSlots (env : Env) (barberId : Uuid) (day : ℤ) (serviceId : Uuid)
    (now : ℤ) (excludeAppointment : Option Uuid) (ignoreAppointments : Bool) :
    Request AvailabilityRead := do
  let (_, shop, service) ← loadAndValidate barberId serviceId
  let tz := env.shopTimezone shop
  let window ← ofExcept (localDayBounds day tz)
  if ← isClosed shop.id day then
    ofExcept (render day tz barberId service [])
  else
    let shifts ← shiftsFor barberId day tz
    if shifts.isEmpty then
      ofExcept (render day tz barberId service [])
    else
      let taken ← taken barberId window excludeAppointment ignoreAppointments
      let blocked ← breaks barberId window
      let busy := clip (taken ++ blocked) window
      let slots ← ofExcept (freeSlots env service now window shifts busy)
      ofExcept (render day tz barberId service slots)

end BarberHub
