import BarberHub.Booking.Operations
import BarberHub.Schedule.Blocking
import BarberHub.Support.Runs

/-!
# All operations, one at a time

The operations of customers and staff on one database.  `ManagementCommit`
lists what an operation of the staff can commit when it runs alone, as
`BookingCommit` does for bookings, and `run` executes any operations one after
another.
-/

namespace BarberHub

open HalfOpen KeyedTable ReadCommitted Program

/-- A request of the people who run a shop. -/
inductive ManagementOp where
  | updateBarber (user : User) (id : Uuid) (payload : BarberUpdate)
  | deactivateBarber (user : User) (id : Uuid)
  | updateService (user : User) (id : Uuid) (payload : ServiceUpdate)
  | deactivateService (user : User) (id : Uuid)
  | updateShop (user : User) (id : Uuid) (payload : BarbershopUpdate)
  | deactivateShop (user : User) (id : Uuid)
  | replaceWorkingHours (user : User) (barberId : Uuid)
      (items : List WorkingHoursSlot) (newId : ℕ → Uuid)
  | createBreak (user : User) (barberId : Uuid) (payload : BreakCreate)
      (id : Uuid)
  | deleteBreak (user : User) (id : Uuid)
  | createClosure (user : User) (shopId : Uuid) (payload : ClosureCreate)
      (id : Uuid)
  | deleteClosure (user : User) (id : Uuid)

def ManagementOp.program (env : Env) (now : ℤ) : ManagementOp → Request Unit
  | updateBarber user id payload => BarberHub.updateBarber user id payload
  | deactivateBarber user id => BarberHub.deactivateBarber user id now
  | updateService user id payload =>
      BarberHub.updateService env user id payload
  | deactivateService user id => BarberHub.deactivateService env user id now
  | updateShop user id payload => BarberHub.updateShop user id payload
  | deactivateShop user id => BarberHub.deactivateShop user id now
  | replaceWorkingHours user barberId items newId =>
      BarberHub.replaceWorkingHours user barberId items newId
  | createBreak user barberId payload id =>
      BarberHub.createBreak user barberId payload id
  | deleteBreak user id => BarberHub.deleteBreak user id
  | createClosure user shopId payload id =>
      BarberHub.createClosure env user shopId payload id
  | deleteClosure user id => BarberHub.deleteClosure user id

/-- No active appointment from `now` on satisfies the condition. -/
def Database.NoneUpcoming (db : Database) (now : ℤ)
    (concerns : Appointment → Bool) : Prop :=
  ∀ a ∈ db.appointments, concerns a = true → now ≤ a.startTime →
    a.status.blocksSlot = false

instance (db : Database) (now : ℤ) (concerns : Appointment → Bool) :
    Decidable (db.NoneUpcoming now concerns) :=
  inferInstanceAs (Decidable (∀ a ∈ _, _ → _ → _))

/-- What an operation of the staff that runs alone at `now` can commit. -/
inductive ManagementCommit (env : Env) (now : ℤ) (s s' : Database) :
    ManagementOp → Prop where
  | updatedBarber (user : User) (id : Uuid) (payload : BarberUpdate)
      (barber : Barber) (hrow : s.barber? id = some barber)
      (hflush : flushBarber id (payload.changes barber) s = .ok s') :
      ManagementCommit env now s s' (.updateBarber user id payload)
  | deactivatedBarber (user : User) (id : Uuid) (u : BarberUpdate)
      (hnone : s.NoneUpcoming now fun a => a.barberId = id)
      (hflush : flushBarber id u s = .ok s') :
      ManagementCommit env now s s' (.deactivateBarber user id)
  | updatedService (user : User) (id : Uuid) (payload : ServiceUpdate)
      (service : Service) (hrow : s.service? id = some service)
      (hflush : flushService env id (payload.changes service) s = .ok s') :
      ManagementCommit env now s s' (.updateService user id payload)
  | deactivatedService (user : User) (id : Uuid) (u : ServiceUpdate)
      (hnone : s.NoneUpcoming now fun a => a.serviceId = id)
      (hflush : flushService env id u s = .ok s') :
      ManagementCommit env now s s' (.deactivateService user id)
  | updatedShop (user : User) (id : Uuid) (payload : BarbershopUpdate)
      (shop : Barbershop) (hrow : s.barbershop? id = some shop)
      (hflush : flushShop id (payload.changes shop) s = .ok s') :
      ManagementCommit env now s s' (.updateShop user id payload)
  | deactivatedShop (user : User) (id : Uuid) (shop : Barbershop)
      (hrow : s.barbershop? id = some shop)
      (hnone : s.NoneUpcoming now fun a => s.AtShop id a)
      (hflush : flushShop id (BarbershopUpdate.changes
        { isActive := some (some false) } shop) s = .ok s') :
      ManagementCommit env now s s' (.deactivateShop user id)
  | replacedHours (user : User) (barberId : Uuid)
      (items : List WorkingHoursSlot) (newId : ℕ → Uuid)
      (deleted : List Uuid) (rows : List WorkingHours)
      (hflush : flushWorkingHours deleted rows s = .ok s') :
      ManagementCommit env now s s'
        (.replaceWorkingHours user barberId items newId)
  | createdBreak (user : User) (barberId : Uuid) (payload : BreakCreate)
      (id : Uuid)
      (hnone : s.clashes payload.startDatetime payload.endDatetime
        (·.barberId = barberId) = [])
      (hinsert : insertBreak (payload.row barberId id) s = .ok s') :
      ManagementCommit env now s s' (.createBreak user barberId payload id)
  | deletedBreak (user : User) (id : Uuid)
      (hdelete : deleteBreakRow id s = .ok s') :
      ManagementCommit env now s s' (.deleteBreak user id)
  | createdClosure (user : User) (shopId : Uuid) (payload : ClosureCreate)
      (id : Uuid) (shop : Barbershop)
      (hrow : s.barbershop? shopId = some shop)
      (hnone : s.clashes (payload.start (env.shopTimezone shop))
        (payload.stop (env.shopTimezone shop)) (s.AtShop shop.id) = [])
      (hinsert : insertClosure (payload.row shop.id id) s = .ok s') :
      ManagementCommit env now s s' (.createClosure user shopId payload id)
  | deletedClosure (user : User) (id : Uuid)
      (hdelete : deleteClosureRow id s = .ok s') :
      ManagementCommit env now s s' (.deleteClosure user id)

/-- Every operation, run alone, commits at most once, and only what the list
says. -/
theorem managementOp_commits
    (env : Env) (now : ℤ) (op : ManagementOp) (s : Database) :
    (op.program env now).Learns Eq
      (fun t t' => t = s ∧ ManagementCommit env now s t' op)
      (fun _ _ => True) s := by
  cases op with
  | updateBarber user id payload =>
      apply (readOnly_loadBarber id).learns_bind_alone
      intro barber hrun
      have hrow := run_loadBarber_eq_ok hrun
      refine (readOnly_ensureCanManageBarber _ _).learns_bind_alone
        fun _ _ => learns_write_alone fun s' hw => ?_
      exact ⟨rfl, .updatedBarber user id payload barber hrow
        (key_of_lookup hrow ▸ hw)⟩
  | deactivateBarber user id =>
      apply (readOnly_loadBarber id).learns_bind_alone
      intro barber hrun
      obtain rfl := key_of_lookup (run_loadBarber_eq_ok hrun)
      apply (readOnly_getShopOr404 _ _).learns_bind_alone
      intro shop _
      apply (readOnly_ensureCanManageShop _ _).learns_bind_alone
      intro _ _
      refine (readOnly_refuseUpcoming _ _ _).learns_bind_alone
        fun _ hnone => learns_write_alone fun s' hw => ?_
      exact ⟨rfl, .deactivatedBarber user barber.id _
        (run_refuseUpcoming_eq_ok hnone) hw⟩
  | updateService user id payload =>
      apply (readOnly_getManageableService user id).learns_bind_alone
      intro service hrun
      have hrow := run_getManageableService_eq_ok hrun
      apply learns_commitOrConflict
      intro t s' hst hw
      subst hst
      exact ⟨rfl, .updatedService user id payload service hrow
        (key_of_lookup hrow ▸ hw)⟩
  | deactivateService user id =>
      apply (readOnly_getManageableService user id).learns_bind_alone
      intro service hrun
      obtain rfl := key_of_lookup (run_getManageableService_eq_ok hrun)
      refine (readOnly_refuseUpcoming _ _ _).learns_bind_alone
        fun _ hnone => learns_write_alone fun s' hw => ?_
      exact ⟨rfl, .deactivatedService user service.id _
        (run_refuseUpcoming_eq_ok hnone) hw⟩
  | updateShop user id payload =>
      apply (readOnly_getShopOr404 _ _).learns_bind_alone
      intro shop hrun
      have hrow := (run_getShopOr404_eq_ok_iff.mp hrun).1
      refine (readOnly_ensureCanManageShop _ _).learns_bind_alone
        fun _ _ => learns_write_alone fun s' hw => ?_
      exact ⟨rfl, .updatedShop user id payload shop hrow
        (key_of_lookup hrow ▸ hw)⟩
  | deactivateShop user id =>
      apply (readOnly_getShopOr404 _ _).learns_bind_alone
      intro shop hrun
      have hrow := (run_getShopOr404_eq_ok_iff.mp hrun).1
      apply (readOnly_ensureCanManageShop _ _).learns_bind_alone
      intro _ _
      refine (readOnly_refuseUpcoming _ _ _).learns_bind_alone
        fun _ hnone => learns_write_alone fun s' hw => ?_
      exact ⟨rfl, .deactivatedShop user id shop hrow
        (run_refuseUpcoming_eq_ok hnone) (key_of_lookup hrow ▸ hw)⟩
  | replaceWorkingHours user barberId items newId =>
      apply (readOnly_loadBarber barberId).learns_bind_alone
      intro barber _
      apply (readOnly_ensureCanManageBarber _ _).learns_bind_alone
      intro _ _
      refine (readOnly_query _).learns_bind_alone
        fun deleted _ => learns_write_alone fun s' hw => ?_
      exact ⟨rfl, .replacedHours user barberId items newId deleted _ hw⟩
  | createBreak user barberId payload id =>
      apply learns_createBreak isRely_eq
      intro t u s' hst htu hnone hw
      subst hst htu
      exact ⟨rfl, .createdBreak user barberId payload id hnone hw⟩
  | deleteBreak user id =>
      apply (readOnly_query _).learns_bind_alone
      intro found hfound
      apply (readOnly_rowOr _ _).learns_bind_alone
      intro row hrow
      apply (readOnly_loadBarber _).learns_bind_alone
      intro barber _
      refine (readOnly_ensureCanManageBarber _ _).learns_bind_alone
        fun _ _ => learns_write_alone fun s' hw => ?_
      obtain rfl := (Except.ok.inj (Prod.mk.inj hfound).1)
      have hid := run_rowOr_eq_ok hrow
      exact ⟨rfl, .deletedBreak user id (key_of_lookup hid ▸ hw)⟩
  | createClosure user shopId payload id =>
      apply learns_createClosure isRely_eq sameDirectory_of_eq
      intro shop t u s' hrow hst htu hnone hw
      subst hst htu
      exact ⟨rfl, .createdClosure user shopId payload id shop hrow hnone hw⟩
  | deleteClosure user id =>
      apply (readOnly_query _).learns_bind_alone
      intro found hfound
      apply (readOnly_rowOr _ _).learns_bind_alone
      intro row hrow
      apply (readOnly_getShopOr404 _ _).learns_bind_alone
      intro shop _
      refine (readOnly_ensureCanManageShop _ _).learns_bind_alone
        fun _ _ => learns_write_alone fun s' hw => ?_
      obtain rfl := (Except.ok.inj (Prod.mk.inj hfound).1)
      have hid := run_rowOr_eq_ok hrow
      exact ⟨rfl, .deletedClosure user id (key_of_lookup hid ▸ hw)⟩

/-- An operation of the staff leaves the database as it was, or with one
commit of the list. -/
theorem managementOp_leaves
    (env : Env) (now : ℤ) (op : ManagementOp) (s : Database) :
    ((op.program env now).run s).2 = s ∨
      ManagementCommit env now s ((op.program env now).run s).2 op := by
  have hstart : (fun t => s = t ∨ ManagementCommit env now s t op) s :=
    Or.inl rfl
  have hrun := Ensures.run isRely_eq (managementOp_commits env now op s) hstart
    fun _ _ _ h => Or.inr h.2
  exact hrun.2.imp_left Eq.symm

/-- The staff leave the appointments as they are. -/
theorem ManagementCommit.appointments
    {env : Env} {now : ℤ} {op : ManagementOp} {s s' : Database}
    (h : ManagementCommit env now s s' op) :
    s'.appointments = s.appointments := by
  cases h with
  | updatedBarber _ _ _ _ _ hflush => rw [(flushBarber_eq_ok hflush).1]
  | deactivatedBarber _ _ _ _ hflush => rw [(flushBarber_eq_ok hflush).1]
  | updatedService _ _ _ _ _ hflush => rw [(flushService_eq_ok hflush).1]
  | deactivatedService _ _ _ _ hflush => rw [(flushService_eq_ok hflush).1]
  | updatedShop _ _ _ _ _ hflush => rw [(flushShop_eq_ok hflush).1]
  | deactivatedShop _ _ _ _ _ hflush => rw [(flushShop_eq_ok hflush).1]
  | replacedHours _ _ _ _ _ _ hflush => rw [flushWorkingHours_eq_ok hflush]
  | createdBreak _ _ _ _ _ hinsert => rw [insertBreak_eq_ok hinsert]
  | deletedBreak _ _ hdelete => rw [← Except.ok.inj hdelete]
  | createdClosure _ _ _ _ _ _ _ hinsert => rw [insertClosure_eq_ok hinsert]
  | deletedClosure _ _ hdelete => rw [← Except.ok.inj hdelete]

/-! ## Runs -/

/-- A request or a task, of customers or of the staff. -/
inductive Operation where
  | booking (op : BookingOp)
  | management (op : ManagementOp)

/-- An operation and the moment it is executed.  The operations on bookings
carry the clock readings they take themselves. -/
structure Executed where
  now : ℤ
  op : Operation

def Executed.program (env : Env) (e : Executed) : Request Unit :=
  match e.op with
  | .booking op => op.program env
  | .management op => op.program env e.now

/-- The database after one operation that nothing runs beside. -/
def step (env : Env) (db : Database) (e : Executed) : Database :=
  ((e.program env).run db).2

/-- The database after operations executed one after another. -/
def run (env : Env) (db : Database) (events : List Executed) : Database :=
  events.foldl (step env) db

/-- What is kept by all that an operation can commit is kept by it. -/
theorem step_keeps
    {env : Env} {e : Executed} {Inv : Database → Prop} {db : Database}
    (hbooking : ∀ s s', Inv s → BookingCommit env s s' → Inv s')
    (hmanagement : ∀ op s', e.op = .management op →
      ManagementCommit env e.now db s' op → Inv s')
    (hdb : Inv db) : Inv (step env db e) := by
  rw [step, Executed.program]
  cases hop : e.op with
  | booking op => exact bookingOp_keeps hbooking op hdb
  | management op =>
      rcases managementOp_leaves env e.now op db with heq | hcommit
      · dsimp only
        rw [heq]
        exact hdb
      · exact hmanagement op _ hop hcommit

end BarberHub
