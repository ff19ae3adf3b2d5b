import BarberHub.Accounts.Access
import BarberHub.System.Statements

/-!
# Requests and tasks

The handlers of `app/api/v1` that write, each behind the dependency that finds
its caller, and the tasks of the workers: whatever may run against the database
at the same time.
-/

namespace BarberHub

open KeyedTable ReadCommitted Program Pool Fallible

/-- A handler that writes, with what it takes besides its caller and the clock.
The ids and the creation times are the database's. -/
inductive Route where
  | createAppointment (payload : AppointmentCreate) (id : Uuid) (createdAt : ℤ)
  | cancelAppointment (id : Uuid) (reason : Option String)
  | rescheduleAppointment (id : Uuid) (startTime : AwareDatetime)
  | confirmAppointment (id : Uuid)
  | completeAppointment (id : Uuid)
  | noShowAppointment (id : Uuid)
  | createBarbershop (payload : BarbershopCreate) (id : Uuid) (createdAt : ℤ)
  | updateBarbershop (id : Uuid) (payload : BarbershopUpdate)
  | deleteBarbershop (id : Uuid)
  | createService (shopId : Uuid) (payload : ServiceCreate) (id : Uuid)
      (quoted : String)
  | updateService (id : Uuid) (payload : ServiceUpdate)
  | deleteService (id : Uuid)
  | addBarber (shopId : Uuid) (payload : BarberCreate) (id : Uuid)
  | updateBarber (id : Uuid) (payload : BarberUpdate)
  | deleteBarber (id : Uuid)
  | setBarberServices (barberId : Uuid) (serviceIds : List Uuid)
  | putWorkingHours (barberId : Uuid) (items : List WorkingHoursSlot)
      (newId : ℕ → Uuid)
  | createBreak (barberId : Uuid) (payload : BreakCreate) (id : Uuid)
  | deleteBreak (id : Uuid)
  | createClosure (shopId : Uuid) (payload : ClosureCreate) (id : Uuid)
  | deleteClosure (id : Uuid)
  | createReview (appointmentId : Uuid) (payload : ReviewCreate)
      (reviewId : Uuid) (createdAt : ℤ)

namespace Route

/-- The roles the route is gated on: `CustomerOnly` and `OwnerOrAdmin`.  The
other routes depend on `CurrentUser`. -/
def roles : Route → Option (List UserRole)
  | createAppointment _ _ _ => some [.customer]
  | createBarbershop _ _ _ => some [.shopOwner]
  | _ => none

/-- What the handler calls, for a caller and a clock. -/
def work (user : User) (now : ℤ) : Route → Work
  | createAppointment payload id createdAt =>
      .booking (.create user payload now id createdAt)
  | cancelAppointment id reason => .booking (.cancel user id reason now)
  | rescheduleAppointment id startTime =>
      .booking (.reschedule user id startTime now)
  | confirmAppointment id => .booking (.confirm user id)
  | completeAppointment id => .booking (.complete user id now)
  | noShowAppointment id => .booking (.noShow user id now)
  | createBarbershop payload id createdAt =>
      .directory (.createShop user payload id createdAt)
  | updateBarbershop id payload => .management (.updateShop user id payload) now
  | deleteBarbershop id => .management (.deactivateShop user id) now
  | createService shopId payload id quoted =>
      .directory (.createService user shopId payload id quoted)
  | updateService id payload => .management (.updateService user id payload) now
  | deleteService id => .management (.deactivateService user id) now
  | addBarber shopId payload id => .directory (.addBarber user shopId payload id)
  | updateBarber id payload => .management (.updateBarber user id payload) now
  | deleteBarber id => .management (.deactivateBarber user id) now
  | setBarberServices barberId serviceIds =>
      .directory (.setServices user barberId serviceIds)
  | putWorkingHours barberId items newId =>
      .management (.replaceWorkingHours user barberId items newId) now
  | createBreak barberId payload id =>
      .management (.createBreak user barberId payload id) now
  | deleteBreak id => .management (.deleteBreak user id) now
  | createClosure shopId payload id =>
      .management (.createClosure user shopId payload id) now
  | deleteClosure id => .management (.deleteClosure user id) now
  | createReview appointmentId payload reviewId createdAt =>
      .rating (.review user appointmentId payload reviewId createdAt)

/-- The caller, as the dependencies of the route find them. -/
def caller (jwt : Jwt) (moment : ℤ) (credentials : Option String)
    (route : Route) : Request User := do
  let user ← getCurrentUser jwt moment credentials
  match route.roles with
  | none => pure user
  | some roles => requireRoles roles user

end Route

/-- Whatever runs against the database. -/
inductive Job where
  | request (route : Route) (credentials : Option String) (moment now : ℤ)
  | account (op : AuthOp)
  | expireStalePending (now : ℤ)
  | recomputeBarberRatings
  | sendAppointmentReminders (moment : ℤ)

def Job.program (env : Env) (jwt : Jwt) : Job → Request Unit
  | request route credentials moment now => do
      let user ← route.caller jwt moment credentials
      (route.work user now).program env
  | account op => (Work.account op).program env
  | expireStalePending now => (Work.booking (.expire now)).program env
  | recomputeBarberRatings => (Work.rating .recompute).program env
  | sendAppointmentReminders moment => (Work.reminders moment).program env

def jobPool {ι : Type} (env : Env) (jwt : Jwt) (jobs : ι → Job)
    (db : Database) : Pool ι Database Raised Unit where
  committed := db
  running i := (jobs i).program env jwt

/-- Who gets past the gate of a route. -/
def Route.Admits (route : Route) (user : User) : Prop :=
  ∀ roles, route.roles = some roles → user.role ∈ roles ∨ user.role = .admin

end BarberHub
