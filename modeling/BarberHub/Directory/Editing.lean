import BarberHub.Directory.Permissions
import BarberHub.Directory.Updates

/-!
# Editing and switching off

The updates and soft deletes of `app/services/barber_directory.py`,
`service_catalog.py` and `barbershop.py`, each up to its commit.  A soft delete
first counts the appointments still to come; an update that sends `is_active`
does not.
-/

namespace BarberHub

open ReadCommitted Program

/-- Active appointments from `now` on that satisfy a condition. -/
def Database.upcoming (db : Database) (now : ℤ)
    (concerns : Appointment → Bool) : List Appointment :=
  db.appointments.filter fun a =>
    concerns a = true ∧ now ≤ a.startTime ∧ a.status.blocksSlot = true

/-- The appointment is with a barber of the shop. -/
def Database.AtShop (db : Database) (shopId : Uuid) (a : Appointment) : Bool :=
  (db.barber? a.barberId).any fun barber => barber.shopId = shopId

/-- The count of upcoming appointments, and the refusal if there are any. -/
def refuseUpcoming (message : String) (now : ℤ)
    (concerns : Database → Appointment → Bool) : Request Unit := do
  let upcoming ← query fun db => (db.upcoming now (concerns db)).length
  require (upcoming = 0)
    (conflict message [("upcoming_appointments", .number upcoming)])

/-- A commit whose `IntegrityError` becomes a `ConflictError`. -/
def commitOrConflict (message : String)
    (w : Database → Except Raised Database) : Request Unit :=
  write fun db =>
    match w db with
    | .error (.integrityError _) => .error (conflict message)
    | result => result

/-! ## Barbers -/

/-- `_load` with `include_inactive=True`. -/
def loadBarber (barberId : Uuid) : Request Barber := do
  let found ← query (·.barber? barberId)
  rowOr (notFound "Barber not found") found

def updateBarber (user : User) (barberId : Uuid) (payload : BarberUpdate) :
    Request Unit := do
  let barber ← loadBarber barberId
  ensureCanManageBarber user barber
  write (flushBarber barber.id (payload.changes barber))

def deactivateBarber (user : User) (barberId : Uuid) (now : ℤ) :
    Request Unit := do
  let barber ← loadBarber barberId
  let shop ← getShopOr404 barber.shopId (some user)
  ensureCanManageShop user shop
  refuseUpcoming "This barber still has upcoming appointments" now
    fun _ a => a.barberId = barber.id
  write (flushBarber barber.id
    (BarberUpdate.changes { isActive := some (some false) } barber))

/-! ## Services -/

/-- `_get_manageable_service`. -/
def getManageableService (user : User) (serviceId : Uuid) :
    Request Service := do
  let found ← query (·.service? serviceId)
  let service ← rowOr (notFound "Service not found") found
  let shop ← getShopOr404 service.shopId (some user)
  ensureCanManageShop user shop
  pure service

def updateService (env : Env) (user : User) (serviceId : Uuid)
    (payload : ServiceUpdate) : Request Unit := do
  let service ← getManageableService user serviceId
  commitOrConflict "This shop already offers a service with that name"
    (flushService env service.id (payload.changes service))

def deactivateService (env : Env) (user : User) (serviceId : Uuid) (now : ℤ) :
    Request Unit := do
  let service ← getManageableService user serviceId
  refuseUpcoming "This service still has upcoming appointments" now
    fun _ a => a.serviceId = service.id
  write (flushService env service.id
    (ServiceUpdate.changes { isActive := some (some false) } service))

/-! ## Shops -/

def updateShop (user : User) (shopId : Uuid) (payload : BarbershopUpdate) :
    Request Unit := do
  let shop ← getShopOr404 shopId (some user)
  ensureCanManageShop user shop
  write (flushShop shop.id (payload.changes shop))

def deactivateShop (user : User) (shopId : Uuid) (now : ℤ) :
    Request Unit := do
  let shop ← getShopOr404 shopId (some user)
  ensureCanManageShop user shop
  refuseUpcoming "This barbershop still has upcoming appointments" now
    fun db a => db.AtShop shopId a
  write (flushShop shop.id
    (BarbershopUpdate.changes { isActive := some (some false) } shop))

/-! ## What the checks have seen -/

theorem readOnly_loadBarber (barberId : Uuid) :
    (loadBarber barberId).ReadOnly :=
  (readOnly_query _).bind fun _ => readOnly_rowOr _ _

theorem readOnly_getManageableService (user : User) (serviceId : Uuid) :
    (getManageableService user serviceId).ReadOnly :=
  (readOnly_query _).bind fun _ => (readOnly_rowOr _ _).bind fun _ =>
    (readOnly_getShopOr404 _ _).bind fun _ =>
      (readOnly_ensureCanManageShop _ _).bind fun _ => trivial

theorem readOnly_refuseUpcoming (message : String) (now : ℤ)
    (concerns : Database → Appointment → Bool) :
    (refuseUpcoming message now concerns).ReadOnly :=
  (readOnly_query _).bind fun _ => readOnly_require _ _

section

variable {db db' : Database}

theorem run_loadBarber_eq_ok {barberId : Uuid} {barber : Barber}
    (h : (loadBarber barberId).run db = (.ok barber, db')) :
    db.barber? barberId = some barber := by
  rw [loadBarber] at h
  rw [query_bind, run_read] at h
  exact run_rowOr_eq_ok h

theorem run_getManageableService_eq_ok {user : User} {serviceId : Uuid}
    {service : Service}
    (h : (getManageableService user serviceId).run db = (.ok service, db')) :
    db.service? serviceId = some service := by
  rw [getManageableService] at h
  rw [query_bind, run_read, run_rowOr_bind_eq_ok_iff] at h
  obtain ⟨row, hrow, h⟩ := h
  obtain ⟨shop, s, -, h⟩ := run_bind_eq_ok_iff.mp h
  obtain ⟨_, t, -, h⟩ := run_bind_eq_ok_iff.mp h
  simp only [pure_eq_done, run_done, Prod.mk.injEq, Except.ok.injEq] at h
  rw [hrow, h.1]

/-- The check passes only when nothing is to come. -/
theorem run_refuseUpcoming_eq_ok {message : String} {now : ℤ}
    {concerns : Database → Appointment → Bool}
    (h : (refuseUpcoming message now concerns).run db = (.ok (), db')) :
    ∀ a ∈ db.appointments, concerns db a = true → now ≤ a.startTime →
      a.status.blocksSlot = false := by
  unfold refuseUpcoming require at h
  rw [query_bind, run_read] at h
  have hnone : (db.upcoming now (concerns db)).length = 0 := by
    by_contra hsome
    rw [if_neg hsome] at h
    simp at h
  intro a ha hconcerns hnow
  by_contra hactive
  have hmem : a ∈ db.upcoming now (concerns db) := by
    rw [Database.upcoming]
    rw [List.mem_filter]
    exact ⟨ha, by simpa [hconcerns, hnow] using hactive⟩
  rw [List.eq_nil_of_length_eq_zero hnone] at hmem
  simp at hmem

end

end BarberHub
