import BarberHub.Directory.Joining
import BarberHub.Reminders.Sweep
import BarberHub.Reviews.Drift
import BarberHub.Support.Pools
import BarberHub.Support.Unlocked
import BarberHub.System.Operations

/-!
# Everything at once

Every request and every task that writes to the database, and the pool in which
any of them are interleaved statement by statement.  `WorkCommit` lists what one
commit can do to the directory and the appointments, whatever has been committed
since the request began; `Persists` is what no commit takes back: who owns a
shop, whose row a barber is and at which shop, and where a service is sold.
-/

namespace BarberHub

open KeyedTable ReadCommitted Program Pool Fallible Database

/-! ## What stays -/

namespace Database

/-- The shop is stored, with that owner. -/
def OwnedBy (db : Database) (shopId ownerId : Uuid) : Prop :=
  ∃ shop, db.barbershop? shopId = some shop ∧ shop.ownerId = ownerId

/-- The barber is stored, for that account at that shop. -/
def WorksAt (db : Database) (barberId userId shopId : Uuid) : Prop :=
  ∃ barber, db.barber? barberId = some barber ∧ barber.userId = userId ∧
    barber.shopId = shopId

/-- The service is stored, at that shop. -/
def SoldAt (db : Database) (serviceId shopId : Uuid) : Prop :=
  ∃ service, db.service? serviceId = some service ∧ service.shopId = shopId

/-- The barber and the service are of one shop. -/
def AtOneShop (db : Database) (barberId serviceId : Uuid) : Prop :=
  ∃ userId shopId, db.WorksAt barberId userId shopId ∧ db.SoldAt serviceId shopId

/-- The user is an admin, or owns the shop at which the barber works. -/
def ManagedBy (db : Database) (barberId : Uuid) (user : User) : Prop :=
  user.role = .admin ∨
    ∃ userId shopId, db.WorksAt barberId userId shopId ∧ db.OwnedBy shopId user.id

/-- What no commit takes back. -/
structure Persists (s s' : Database) : Prop where
  shops : ∀ shopId ownerId, s.OwnedBy shopId ownerId → s'.OwnedBy shopId ownerId
  barbers : ∀ barberId userId shopId, s.WorksAt barberId userId shopId →
    s'.WorksAt barberId userId shopId
  services : ∀ serviceId shopId, s.SoldAt serviceId shopId →
    s'.SoldAt serviceId shopId

variable {s s' : Database} {barberId serviceId : Uuid} {user : User}

theorem isRely_persists : IsRely Persists where
  refl _ := ⟨fun _ _ h => h, fun _ _ _ h => h, fun _ _ h => h⟩
  trans h h' :=
    ⟨fun _ _ hs => h'.shops _ _ (h.shops _ _ hs),
      fun _ _ _ hs => h'.barbers _ _ _ (h.barbers _ _ _ hs),
      fun _ _ hs => h'.services _ _ (h.services _ _ hs)⟩

theorem AtOneShop.stable
    (h : s.AtOneShop barberId serviceId) (hs : s.Persists s') :
    s'.AtOneShop barberId serviceId := by
  obtain ⟨userId, shopId, hworks, hsold⟩ := h
  exact ⟨userId, shopId, hs.barbers _ _ _ hworks, hs.services _ _ hsold⟩

theorem ManagedBy.stable
    (h : s.ManagedBy barberId user) (hs : s.Persists s') :
    s'.ManagedBy barberId user := by
  rcases h with hadmin | ⟨userId, shopId, hworks, howns⟩
  · exact Or.inl hadmin
  · exact Or.inr
      ⟨userId, shopId, hs.barbers _ _ _ hworks, hs.shops _ _ howns⟩

/-- The directory, the service lists, the appointments and the queue are as they
were, the ratings of the barbers apart. -/
structure Beside (s s' : Database) : Prop where
  barbershops : s'.barbershops = s.barbershops
  services : s'.services = s.services
  barberServices : s'.barberServices = s.barberServices
  appointments : s'.appointments = s.appointments
  queue : s'.queue = s.queue
  barbers : ∃ f : Barber → Barber,
    (∀ b, (f b).id = b.id ∧ (f b).userId = b.userId ∧ (f b).shopId = b.shopId ∧
      (f b).isActive = b.isActive) ∧ s'.barbers = s.barbers.map f

/-- Nothing but other tables differs. -/
theorem beside_of_eq
    (hshops : s'.barbershops = s.barbershops) (hbarbers : s'.barbers = s.barbers)
    (hservices : s'.services = s.services)
    (hlinks : s'.barberServices = s.barberServices)
    (happointments : s'.appointments = s.appointments)
    (hqueue : s'.queue = s.queue) : s.Beside s' := by
  refine ⟨hshops, hservices, hlinks, happointments, hqueue, id, ?_, ?_⟩
  · intro b
    exact ⟨rfl, rfl, rfl, rfl⟩
  · rw [hbarbers, List.map_id]

theorem isRely_beside : IsRely Beside where
  refl _ := beside_of_eq rfl rfl rfl rfl rfl rfl
  trans h h' := by
    obtain ⟨f, hf, hbarbers⟩ := h.barbers
    obtain ⟨g, hg, hbarbers'⟩ := h'.barbers
    refine ⟨h'.barbershops.trans h.barbershops, h'.services.trans h.services,
      h'.barberServices.trans h.barberServices,
      h'.appointments.trans h.appointments, h'.queue.trans h.queue, g ∘ f, ?_, ?_⟩
    · intro b
      obtain ⟨hid, huser, hshop, hactive⟩ := hg (f b)
      obtain ⟨hid', huser', hshop', hactive'⟩ := hf b
      exact ⟨hid.trans hid', huser.trans huser', hshop.trans hshop',
        hactive.trans hactive'⟩
    · rw [hbarbers', hbarbers, List.map_map]

theorem Beside.barber?_eq (h : s.Beside s') :
    ∃ f : Barber → Barber, (∀ b, (f b).userId = b.userId ∧
      (f b).shopId = b.shopId ∧ (f b).isActive = b.isActive) ∧
        ∀ id, s'.barber? id = (s.barber? id).map f := by
  obtain ⟨f, hf, hbarbers⟩ := h.barbers
  refine ⟨f, fun b => (hf b).2, ?_⟩
  intro id
  rw [barber?, hbarbers]
  exact lookup_map fun b => (hf b).1

theorem Beside.persists (h : s.Beside s') : s.Persists s' where
  shops shopId ownerId howned := by
    rw [OwnedBy, barbershop?, h.barbershops]
    exact howned
  barbers barberId userId shopId hworks := by
    obtain ⟨f, hf, hlookup⟩ := h.barber?_eq
    obtain ⟨barber, hbarber, huser, hshop⟩ := hworks
    refine ⟨f barber, ?_, (hf barber).1.trans huser, (hf barber).2.1.trans hshop⟩
    rw [hlookup, hbarber]
    rfl
  services serviceId shopId hsold := by
    rw [SoldAt, service?, h.services]
    exact hsold

end Database

/-! ## The works -/

/-- A request or a task that writes to the database.  Requests of the staff
come with the clock reading they take. -/
inductive Work where
  | booking (op : BookingOp)
  | management (op : ManagementOp) (now : ℤ)
  | directory (op : DirectoryOp)
  | account (op : AuthOp)
  | rating (work : RatingWork)
  | reminders (moment : ℤ)

def Work.program (env : Env) : Work → Request Unit
  | booking op => op.program env
  | management op now => op.program env now
  | directory op => op.program env
  | account op => discard (op.transaction env)
  | rating work => discard (work.transaction.unlocked id)
  | reminders moment =>
      discard ((sendAppointmentReminders env moment).unlocked id)

/-- What one commit of a work can do, whatever has been committed since the
work began. -/
inductive WorkCommit (env : Env) (s s' : Database) : Work → Prop where
  /-- A new appointment, with a barber and a service of one shop. -/
  | booked {op : BookingOp} (row : Appointment)
      (hshop : s.AtOneShop row.barberId row.serviceId)
      (hinsert : insertAppointment env row s = .ok s') :
      WorkCommit env s s' (.booking op)
  | rebooked {op : BookingOp} (id : Uuid) (u : AppointmentUpdate)
      (hupdate : updateAppointment env id u s = .ok s') :
      WorkCommit env s s' (.booking op)
  | expired {op : BookingOp} (stale : List Appointment)
      (hupdate : stale.foldlM (fun db a =>
        updateAppointment env a.id (expiry a) db) s = .ok s') :
      WorkCommit env s s' (.booking op)
  /-- A task for the broker. -/
  | notified {op : BookingOp} (task : Event × Uuid)
      (hqueue : s' = { s with queue := s.queue ++ [task] }) :
      WorkCommit env s s' (.booking op)
  /-- The row of a barber, edited by who manages the barber or is the barber. -/
  | updatedBarber (user : User) (id : Uuid) (payload : BarberUpdate) (now : ℤ)
      (loaded : Barber)
      (hmay : s.ManagedBy id user ∨ ∃ shopId, s.WorksAt id user.id shopId)
      (hflush : flushBarber id (payload.changes loaded) s = .ok s') :
      WorkCommit env s s' (.management (.updateBarber user id payload) now)
  | deactivatedBarber (user : User) (id : Uuid) (now : ℤ) (u : BarberUpdate)
      (hmay : s.ManagedBy id user) (hflush : flushBarber id u s = .ok s') :
      WorkCommit env s s' (.management (.deactivateBarber user id) now)
  | editedService {work : Work} (id : Uuid) (u : ServiceUpdate)
      (hflush : flushService env id u s = .ok s') : WorkCommit env s s' work
  | editedShop {work : Work} (id : Uuid) (u : BarbershopUpdate)
      (hflush : flushShop id u s = .ok s') : WorkCommit env s s' work
  /-- The services of a barber, all of them of one shop. -/
  | setServices {work : Work} (barberId : Uuid) (removed added : List Uuid)
      (hshop : ∀ serviceId ∈ added, s.AtOneShop barberId serviceId)
      (hflush : flushBarberServices barberId removed added s = .ok s') :
      WorkCommit env s s' work
  | createdShop {work : Work} (row : Barbershop)
      (hinsert : insertShop row s = .ok s') : WorkCommit env s s' work
  | createdService {work : Work} (row : Service)
      (hinsert : insertService env row s = .ok s') : WorkCommit env s s' work
  | addedBarber {work : Work} (row : Barber) (account : User)
      (hflush : flushNewBarber row account s = .ok s') :
      WorkCommit env s s' work
  | beside {work : Work} (h : s.Beside s') : WorkCommit env s s' work

/-- One commit writes one table, or beside them all.  Only bookings write the
appointments and the queue, and only a new barber's account is written with
another table. -/
inductive TableWrite (env : Env) (s s' : Database) : Work → Prop where
  | appointments {op : BookingOp}
      (hframe : s' = { s with appointments := s'.appointments })
      (hwrite : (∃ row, s.AtOneShop row.barberId row.serviceId ∧
          insertAppointment env row s = .ok s') ∨
        (∃ id u, updateAppointment env id u s = .ok s') ∨
        ∃ stale : List Appointment, stale.foldlM (fun db a =>
          updateAppointment env a.id (expiry a) db) s = .ok s') :
      TableWrite env s s' (.booking op)
  | queue {op : BookingOp} (hframe : s' = { s with queue := s'.queue }) :
      TableWrite env s s' (.booking op)
  | barbers {work : Work}
      (hframe : s' = { s with barbers := s'.barbers, users := s'.users })
      (hwrite : (∃ id u, flushBarber id u s = .ok s') ∨
        ∃ row account, flushNewBarber row account s = .ok s') :
      TableWrite env s s' work
  | services {work : Work} (hframe : s' = { s with services := s'.services })
      (hwrite : (∃ id u, flushService env id u s = .ok s') ∨
        ∃ row, insertService env row s = .ok s') : TableWrite env s s' work
  | barbershops {work : Work}
      (hframe : s' = { s with barbershops := s'.barbershops })
      (hwrite : (∃ id u, flushShop id u s = .ok s') ∨
        ∃ row, insertShop row s = .ok s') : TableWrite env s s' work
  | barberServices {work : Work}
      (hframe : s' = { s with barberServices := s'.barberServices })
      (hwrite : ∃ barberId removed added,
        (∀ serviceId ∈ added, s.AtOneShop barberId serviceId) ∧
          flushBarberServices barberId removed added s = .ok s') :
      TableWrite env s s' work
  | beside {work : Work} (h : s.Beside s') : TableWrite env s s' work

/-! ## What one commit leaves -/

section

variable {env : Env} {s s' : Database} {work : Work}

theorem WorkCommit.tableWrite (h : WorkCommit env s s' work) :
    TableWrite env s s' work := by
  cases h with
  | booked row hshop hinsert =>
      refine .appointments ?_ (Or.inl ⟨row, hshop, hinsert⟩)
      rw [(insertAppointment_eq_ok hinsert).1]
  | rebooked id u hupdate =>
      refine .appointments ?_ (Or.inr (Or.inl ⟨id, u, hupdate⟩))
      rw [updateAppointment_eq_ok hupdate]
  | expired stale hupdate =>
      exact .appointments (expired_frame hupdate) (Or.inr (Or.inr ⟨stale, hupdate⟩))
  | notified task hqueue =>
      apply TableWrite.queue
      rw [hqueue]
  | updatedBarber user id payload now loaded _ hflush =>
      refine .barbers ?_ (Or.inl ⟨id, _, hflush⟩)
      rw [(flushBarber_eq_ok hflush).1]
  | deactivatedBarber user id now u _ hflush =>
      refine .barbers ?_ (Or.inl ⟨id, u, hflush⟩)
      rw [(flushBarber_eq_ok hflush).1]
  | editedService id u hflush =>
      exact .services (flushService_eq_ok hflush).1 (Or.inl ⟨id, u, hflush⟩)
  | editedShop id u hflush =>
      exact .barbershops (flushShop_eq_ok hflush).1 (Or.inl ⟨id, u, hflush⟩)
  | setServices barberId removed added hshop hflush =>
      exact .barberServices (flushBarberServices_eq_ok hflush).1
        ⟨barberId, removed, added, hshop, hflush⟩
  | createdShop row hinsert =>
      refine .barbershops ?_ (Or.inr ⟨row, hinsert⟩)
      rw [insertShop_eq_ok hinsert]
  | createdService row hinsert =>
      refine .services ?_ (Or.inr ⟨row, hinsert⟩)
      rw [(insertService_eq_ok hinsert).1]
  | addedBarber row account hflush =>
      refine .barbers ?_ (Or.inr ⟨row, account, hflush⟩)
      rw [(flushNewBarber_eq_ok hflush).1]
  | beside h => exact .beside h

/-- The row with a key after an accepted UPDATE of a table. -/
theorem lookup_updateRow_of_some
    {α : Type} {key : α → Uuid} {id : Uuid} {apply : α → Except Raised α}
    {constraints : α → Except Raised Unit} {rows rows' : List α}
    (hkey : ∀ r r', apply r = .ok r' → key r' = key r)
    (h : updateRow key id apply constraints rows = .ok rows')
    {k : Uuid} {r : α} (hr : lookup key rows k = some r) :
    ∃ r', lookup key rows' k = some r' ∧ (r' = r ∨ apply r = .ok r') := by
  obtain ⟨row, new, hrow, hnew, -, rfl⟩ := updateRow_eq_ok h
  have hid : key new = id := (hkey _ _ hnew).trans (key_of_lookup hrow)
  by_cases hk : k = id
  · subst hk
    rw [hr] at hrow
    obtain rfl := Option.some.inj hrow
    refine ⟨new, ?_, Or.inr hnew⟩
    rw [lookup_updateAt_self fun _ _ => hid, hr, Option.map_some]
  · refine ⟨r, ?_, Or.inl rfl⟩
    rwa [lookup_updateAt_of_ne hk fun _ _ => hid]

theorem barber?_flushBarber
    {id : Uuid} {u : BarberUpdate} (h : flushBarber id u s = .ok s')
    {k : Uuid} {row : Barber} (hrow : s.barber? k = some row) :
    ∃ row', s'.barber? k = some row' ∧ (row' = row ∨ u.apply row = .ok row') := by
  rw [flushBarber] at h
  split at h
  · obtain rfl := Except.ok.inj h
    exact ⟨row, hrow, Or.inl rfl⟩
  · simp only [bind_eq_ok_iff] at h
    obtain ⟨_, -, barbers, hrows, h⟩ := h
    obtain rfl := Except.ok.inj h
    exact lookup_updateRow_of_some
      (fun _ _ happly => (BarberUpdate.apply_eq_ok happly).1) hrows hrow

theorem service?_flushService
    {id : Uuid} {u : ServiceUpdate} (h : flushService env id u s = .ok s')
    {k : Uuid} {row : Service} (hrow : s.service? k = some row) :
    ∃ row', s'.service? k = some row' ∧
      (row' = row ∨ u.apply row = .ok row') := by
  rw [flushService] at h
  split at h
  · obtain rfl := Except.ok.inj h
    exact ⟨row, hrow, Or.inl rfl⟩
  · simp only [bind_eq_ok_iff] at h
    obtain ⟨_, -, services, hrows, h⟩ := h
    obtain rfl := Except.ok.inj h
    exact lookup_updateRow_of_some
      (fun _ _ happly => (ServiceUpdate.apply_eq_ok happly).1) hrows hrow

theorem barbershop?_flushShop
    {id : Uuid} {u : BarbershopUpdate} (h : flushShop id u s = .ok s')
    {k : Uuid} {row : Barbershop} (hrow : s.barbershop? k = some row) :
    ∃ row', s'.barbershop? k = some row' ∧
      (row' = row ∨ u.apply row = .ok row') := by
  rw [flushShop] at h
  split at h
  · obtain rfl := Except.ok.inj h
    exact ⟨row, hrow, Or.inl rfl⟩
  · simp only [bind_eq_ok_iff] at h
    obtain ⟨_, -, barbershops, hrows, h⟩ := h
    obtain rfl := Except.ok.inj h
    exact lookup_updateRow_of_some
      (fun _ _ happly => (BarbershopUpdate.apply_eq_ok happly).1) hrows hrow

/-- Nobody's row moves to another shop or account. -/
theorem Database.persists_of_barbers
    (hshops : s'.barbershops = s.barbershops)
    (hservices : s'.services = s.services)
    (hbarbers : ∀ k row, s.barber? k = some row → ∃ row', s'.barber? k = some row' ∧
      row'.userId = row.userId ∧ row'.shopId = row.shopId) : s.Persists s' where
  shops shopId ownerId howned := by
    rw [OwnedBy, barbershop?, hshops]
    exact howned
  barbers barberId userId shopId hworks := by
    obtain ⟨row, hrow, huser, hshop⟩ := hworks
    obtain ⟨row', hrow', huser', hshop'⟩ := hbarbers _ _ hrow
    exact ⟨row', hrow', huser'.trans huser, hshop'.trans hshop⟩
  services serviceId shopId hsold := by
    rw [SoldAt, service?, hservices]
    exact hsold

theorem Database.persists_of_eq
    (hshops : s'.barbershops = s.barbershops) (hbarbers : s'.barbers = s.barbers)
    (hservices : s'.services = s.services) : s.Persists s' := by
  refine persists_of_barbers hshops hservices ?_
  intro k row hrow
  refine ⟨row, ?_, rfl, rfl⟩
  rwa [barber?, hbarbers]

theorem Database.persists_of_flushBarber
    {id : Uuid} {u : BarberUpdate} (h : flushBarber id u s = .ok s') :
    s.Persists s' := by
  have hframe := (flushBarber_eq_ok h).1
  refine persists_of_barbers (by rw [hframe]) (by rw [hframe]) ?_
  intro k row hrow
  obtain ⟨row', hrow', rfl | happly⟩ := barber?_flushBarber h hrow
  · exact ⟨row', hrow', rfl, rfl⟩
  · obtain ⟨-, huser, hshop, -⟩ := BarberUpdate.apply_eq_ok happly
    exact ⟨row', hrow', huser, hshop⟩

/-- No commit moves a barber or a service to another shop, or a shop to another
owner. -/
theorem WorkCommit.persists (h : WorkCommit env s s' work) : s.Persists s' := by
  cases h.tableWrite with
  | appointments hframe _ | queue hframe | barberServices hframe _ =>
      rw [hframe]
      exact Database.persists_of_eq rfl rfl rfl
  | barbers hframe hwrite =>
      rcases hwrite with ⟨id, u, hflush⟩ | ⟨row, account, hflush⟩
      · exact Database.persists_of_flushBarber hflush
      · refine Database.persists_of_barbers (by rw [hframe]) (by rw [hframe]) ?_
        intro k barber hrow
        refine ⟨barber, ?_, rfl, rfl⟩
        rw [(flushNewBarber_eq_ok hflush).1]
        exact lookup_append_of_some hrow
  | services hframe hwrite =>
      refine ⟨?_, ?_, ?_⟩
      · intro shopId ownerId howned
        rw [hframe]
        exact howned
      · intro barberId userId shopId hworks
        rw [hframe]
        exact hworks
      · rintro serviceId shopId ⟨service, hrow, hshop⟩
        rcases hwrite with ⟨id, u, hflush⟩ | ⟨row, hinsert⟩
        · obtain ⟨row', hrow', rfl | happly⟩ := service?_flushService hflush hrow
          · exact ⟨row', hrow', hshop⟩
          · exact ⟨row', hrow', (ServiceUpdate.apply_eq_ok happly).2.1.trans hshop⟩
        · obtain ⟨rfl, -, -⟩ := insertService_eq_ok hinsert
          exact ⟨service, lookup_append_of_some hrow, hshop⟩
  | barbershops hframe hwrite =>
      refine ⟨?_, ?_, ?_⟩
      · rintro shopId ownerId ⟨shop, hrow, howner⟩
        rcases hwrite with ⟨id, u, hflush⟩ | ⟨row, hinsert⟩
        · obtain ⟨row', hrow', rfl | happly⟩ := barbershop?_flushShop hflush hrow
          · exact ⟨row', hrow', howner⟩
          · exact ⟨row', hrow',
              (BarbershopUpdate.apply_eq_ok happly).2.1.trans howner⟩
        · obtain rfl := insertShop_eq_ok hinsert
          exact ⟨shop, lookup_append_of_some hrow, howner⟩
      · intro barberId userId shopId hworks
        rw [hframe]
        exact hworks
      · intro serviceId shopId hsold
        rw [hframe]
        exact hsold
  | beside h => exact h.persists

/-- What a commit does to the appointments. -/
theorem WorkCommit.appointments_cases (h : WorkCommit env s s' work) :
    s'.appointments = s.appointments ∨
      (∃ row, s.AtOneShop row.barberId row.serviceId ∧
        insertAppointment env row s = .ok s') ∨
      (∃ id u, updateAppointment env id u s = .ok s') ∨
      ∃ stale : List Appointment, stale.foldlM (fun db a =>
        updateAppointment env a.id (expiry a) db) s = .ok s' := by
  cases h.tableWrite with
  | appointments _ hwrite => exact Or.inr hwrite
  | queue hframe | barbers hframe _ | services hframe _ | barbershops hframe _
    | barberServices hframe _ =>
      left
      rw [hframe]
  | beside h => exact Or.inl h.appointments

/-- The rows an UPDATE leaves are the rows there were. -/
theorem continues_of_updateAppointment
    {id : Uuid} {u : AppointmentUpdate}
    (h : updateAppointment env id u s = .ok s') {a' : Appointment}
    (ha' : a' ∈ s'.appointments) : ∃ a ∈ s.appointments, a.Continues a' := by
  obtain rfl := updateAppointment_eq_ok h
  rcases mem_updateAt.mp ha' with ⟨hmem, -⟩ | ⟨a, ha, -, rfl⟩
  · exact ⟨a', hmem, .refl a'⟩
  · exact ⟨a, ha, AppointmentUpdate.continues_apply u a⟩

theorem continues_of_expired
    {stale : List Appointment}
    (h : stale.foldlM (fun db a => updateAppointment env a.id (expiry a) db) s =
      .ok s') {a' : Appointment} (ha' : a' ∈ s'.appointments) :
    ∃ a ∈ s.appointments, a.Continues a' := by
  induction stale generalizing s with
  | nil =>
      obtain rfl := Except.ok.inj h
      exact ⟨a', ha', .refl a'⟩
  | cons b stale ih =>
      rw [List.foldlM_cons, bind_eq_ok_iff] at h
      obtain ⟨t, ht, h⟩ := h
      obtain ⟨c, hc, hlater⟩ := ih h
      obtain ⟨a, ha, hfirst⟩ := continues_of_updateAppointment ht hc
      exact ⟨a, ha, hfirst.trans hlater⟩

theorem appointment_keys_of_expired
    {stale : List Appointment}
    (h : stale.foldlM (fun db a => updateAppointment env a.id (expiry a) db) s =
      .ok s') (hkeys : UniqueKeys Appointment.id s.appointments) :
    UniqueKeys Appointment.id s'.appointments := by
  induction stale generalizing s with
  | nil =>
      obtain rfl := Except.ok.inj h
      exact hkeys
  | cons a stale ih =>
      rw [List.foldlM_cons, bind_eq_ok_iff] at h
      obtain ⟨t, ht, h⟩ := h
      obtain rfl := updateAppointment_eq_ok ht
      exact ih h (hkeys.updateAt fun _ _ _ => rfl)

/-- Every appointment after a commit was there, or its barber and its service
are of one shop. -/
theorem WorkCommit.continues_or_atOneShop
    (h : WorkCommit env s s' work) {a' : Appointment}
    (ha' : a' ∈ s'.appointments) :
    (∃ a ∈ s.appointments, a.Continues a') ∨
      s.AtOneShop a'.barberId a'.serviceId := by
  rcases h.appointments_cases with heq | ⟨row, hshop, hinsert⟩ |
    ⟨id, u, hupdate⟩ | ⟨stale, hupdate⟩
  · rw [heq] at ha'
    exact Or.inl ⟨a', ha', .refl a'⟩
  · obtain ⟨rfl, -, -⟩ := insertAppointment_eq_ok hinsert
    rcases List.mem_append.mp ha' with hmem | hmem
    · exact Or.inl ⟨a', hmem, .refl a'⟩
    · obtain rfl := List.mem_singleton.mp hmem
      exact Or.inr hshop
  · exact Or.inl (continues_of_updateAppointment hupdate ha')
  · exact Or.inl (continues_of_expired hupdate ha')

/-- Only bookings touch the appointments and the queue. -/
theorem WorkCommit.beside_bookings
    (h : WorkCommit env s s' work) (hwork : ∀ op, work ≠ .booking op) :
    s'.appointments = s.appointments ∧ s'.queue = s.queue := by
  cases h.tableWrite with
  | appointments | queue => exact absurd rfl (hwork _)
  | barbers hframe _ | services hframe _ | barbershops hframe _
    | barberServices hframe _ =>
      rw [hframe]
      exact ⟨rfl, rfl⟩
  | beside h => exact ⟨h.appointments, h.queue⟩

/-- What a commit does to the barbers. -/
theorem WorkCommit.barbers_cases (h : WorkCommit env s s' work) :
    s'.barbers = s.barbers ∨ (∃ id u, flushBarber id u s = .ok s') ∨
      (∃ row account, flushNewBarber row account s = .ok s') ∨ s.Beside s' := by
  cases h.tableWrite with
  | barbers _ hwrite =>
      rcases hwrite with hedited | hadded
      · exact Or.inr (Or.inl hedited)
      · exact Or.inr (Or.inr (Or.inl hadded))
  | appointments hframe _ | queue hframe | services hframe _
    | barbershops hframe _ | barberServices hframe _ =>
      left
      rw [hframe]
  | beside h => exact Or.inr (Or.inr (Or.inr h))

/-- What a commit does to the services. -/
theorem WorkCommit.services_cases (h : WorkCommit env s s' work) :
    s'.services = s.services ∨ (∃ id u, flushService env id u s = .ok s') ∨
      ∃ row, insertService env row s = .ok s' := by
  cases h.tableWrite with
  | services _ hwrite => exact Or.inr hwrite
  | appointments hframe _ | queue hframe | barbers hframe _
    | barbershops hframe _ | barberServices hframe _ =>
      left
      rw [hframe]
  | beside h => exact Or.inl h.services

/-- A commit keeps the links between barbers and services, or sets those of a
barber to services of the barber's shop. -/
theorem WorkCommit.links_cases (h : WorkCommit env s s' work) :
    s'.barberServices = s.barberServices ∨
      ∃ barberId removed added,
        (∀ serviceId ∈ added, s.AtOneShop barberId serviceId) ∧
          flushBarberServices barberId removed added s = .ok s' := by
  cases h.tableWrite with
  | barberServices _ hwrite => exact Or.inr hwrite
  | appointments hframe _ | queue hframe | barbers hframe _ | services hframe _
    | barbershops hframe _ =>
      left
      rw [hframe]
  | beside h => exact Or.inl h.barberServices

/-- Whose row a barber is, and where. -/
def Barber.place (barber : Barber) : Uuid × Uuid × Uuid :=
  (barber.id, barber.userId, barber.shopId)

/-- An edit of a barber moves no row. -/
theorem map_place_flushBarber
    {id : Uuid} {u : BarberUpdate} (hkeys : UniqueKeys Barber.id s.barbers)
    (h : flushBarber id u s = .ok s') :
    s'.barbers.map Barber.place = s.barbers.map Barber.place := by
  rw [flushBarber] at h
  split at h
  · rw [← Except.ok.inj h]
  simp only [bind_eq_ok_iff] at h
  obtain ⟨_, -, barbers, hrows, h⟩ := h
  obtain rfl := Except.ok.inj h
  obtain ⟨row, new, hrow, hnew, -, rfl⟩ := updateRow_eq_ok hrows
  apply map_updateAt
  intro old hold hid
  have hsame : lookup Barber.id s.barbers id = some old :=
    hkeys.lookup_eq_some_iff.mpr ⟨hold, hid⟩
  obtain rfl := Option.some.inj (hrow.symm.trans hsame)
  obtain ⟨hid', huser, hshop, -⟩ := BarberUpdate.apply_eq_ok hnew
  rw [Barber.place, Barber.place, hid', huser, hshop]

/-- What the places of the barbers determine. -/
theorem uniqueKeys_of_map_place
    {κ : Type} (key : Uuid × Uuid × Uuid → κ)
    (h : s'.barbers.map Barber.place = s.barbers.map Barber.place)
    (hs : UniqueKeys (fun b : Barber => key b.place) s.barbers) :
    UniqueKeys (fun b : Barber => key b.place) s'.barbers := by
  have hmap : ∀ t : Database, t.barbers.map (fun b : Barber => key b.place) =
      (t.barbers.map Barber.place).map key := by
    intro t
    rw [List.map_map]
    rfl
  rw [UniqueKeys, hmap, h, ← hmap]
  exact hs

/-- A commit leaves the barbers where they are, or adds one. -/
theorem WorkCommit.places
    (h : WorkCommit env s s' work) (hkeys : UniqueKeys Barber.id s.barbers) :
    s'.barbers.map Barber.place = s.barbers.map Barber.place ∨
      ∃ row, s'.barbers = s.barbers ++ [row] ∧
        (∀ other ∈ s.barbers, other.id ≠ row.id) ∧
        ∀ other ∈ s.barbers,
          (other.userId, other.shopId) ≠ (row.userId, row.shopId) := by
  rcases h.barbers_cases with heq | ⟨id, u, hflush⟩ | ⟨row, account, hflush⟩ |
    hbeside
  · left
    rw [heq]
  · exact Or.inl (map_place_flushBarber hkeys hflush)
  · obtain ⟨hframe, hfresh, hnew⟩ := flushNewBarber_eq_ok hflush
    refine Or.inr ⟨row, by rw [hframe], hfresh, ?_⟩
    intro other hother hsame
    exact hnew other hother (Prod.mk.inj hsame)
  · left
    obtain ⟨f, hf, hbarbers⟩ := hbeside.barbers
    rw [hbarbers, List.map_map]
    apply List.map_congr_left
    intro b _
    obtain ⟨hid, huser, hshop, -⟩ := hf b
    rw [Function.comp_apply, Barber.place, hid, huser, hshop]
    rfl

theorem WorkCommit.barber_keys
    (h : WorkCommit env s s' work) (hkeys : UniqueKeys Barber.id s.barbers) :
    UniqueKeys Barber.id s'.barbers := by
  rcases h.places hkeys with hsame | ⟨row, hbarbers, hfresh, -⟩
  · exact uniqueKeys_of_map_place Prod.fst hsame hkeys
  · rw [hbarbers]
    exact hkeys.append_singleton hfresh

theorem WorkCommit.barber_rows
    (h : WorkCommit env s s' work) (hkeys : UniqueKeys Barber.id s.barbers)
    (hrows : UniqueKeys (fun b : Barber => (b.userId, b.shopId)) s.barbers) :
    UniqueKeys (fun b : Barber => (b.userId, b.shopId)) s'.barbers := by
  rcases h.places hkeys with hsame | ⟨row, hbarbers, -, hnew⟩
  · exact uniqueKeys_of_map_place Prod.snd hsame hrows
  · rw [hbarbers]
    exact hrows.append_singleton hnew

theorem WorkCommit.appointment_keys
    (h : WorkCommit env s s' work)
    (hkeys : UniqueKeys Appointment.id s.appointments) :
    UniqueKeys Appointment.id s'.appointments := by
  rcases h.appointments_cases with heq | ⟨row, -, hinsert⟩ | ⟨id, u, hupdate⟩ |
    ⟨stale, hupdate⟩
  · rw [heq]
    exact hkeys
  · obtain ⟨rfl, hfresh, -⟩ := insertAppointment_eq_ok hinsert
    exact hkeys.append_singleton hfresh
  · obtain rfl := updateAppointment_eq_ok hupdate
    exact hkeys.updateAt fun _ _ _ => rfl
  · exact appointment_keys_of_expired hupdate hkeys

/-! ## Appointments and their barbers -/

/-- Keys are unique, and the barber of every appointment is stored. -/
structure Database.Joined (db : Database) : Prop where
  appointments : UniqueKeys Appointment.id db.appointments
  barbers : UniqueKeys Barber.id db.barbers
  stored : ∀ a ∈ db.appointments, ∃ userId shopId,
    db.WorksAt a.barberId userId shopId

theorem Database.Valid.joined (h : s.Valid) : s.Joined where
  appointments := h.keys.appointments
  barbers := h.keys.barbers
  stored a ha := by
    obtain ⟨barber, hbarber⟩ :=
      Option.isSome_iff_exists.mp (h.references.appointments a ha).2.1
    exact ⟨barber.userId, barber.shopId, barber, hbarber, rfl, rfl⟩

theorem WorkCommit.joined (h : WorkCommit env s s' work) (hs : s.Joined) :
    s'.Joined where
  appointments := h.appointment_keys hs.appointments
  barbers := h.barber_keys hs.barbers
  stored a ha := by
    rcases h.continues_or_atOneShop ha with ⟨b, hb, hcontinues⟩ |
      ⟨userId, shopId, hworks, -⟩
    · obtain ⟨userId, shopId, hworks⟩ := hs.stored b hb
      rw [hcontinues.barber_eq]
      exact ⟨userId, shopId, h.persists.barbers _ _ _ hworks⟩
    · exact ⟨userId, shopId, h.persists.barbers _ _ _ hworks⟩

theorem Database.atShop_iff {shopId : Uuid} {a : Appointment} :
    s.AtShop shopId a = true ↔ ∃ userId, s.WorksAt a.barberId userId shopId := by
  rw [AtShop, Option.any_eq_true]
  constructor
  · rintro ⟨barber, hrow, hshop⟩
    exact ⟨barber.userId, barber, hrow, rfl, by simpa using hshop⟩
  · rintro ⟨userId, barber, hrow, -, hshop⟩
    exact ⟨barber, hrow, by simpa using hshop⟩

/-- The shop of an appointment stays the same. -/
theorem Database.Persists.atShop_eq
    (hpersists : s.Persists s') (hs : s.Joined) {a : Appointment}
    (ha : a ∈ s.appointments) (shopId : Uuid) :
    s'.AtShop shopId a = s.AtShop shopId a := by
  rw [Bool.eq_iff_iff, atShop_iff, atShop_iff]
  constructor
  · rintro ⟨userId, barber, hrow, huser, hshop⟩
    obtain ⟨userId', shopId', hworks⟩ := hs.stored a ha
    obtain ⟨barber', hrow', huser', hshop'⟩ := hpersists.barbers _ _ _ hworks
    obtain rfl := Option.some.inj (hrow.symm.trans hrow')
    rw [← hshop, hshop']
    exact ⟨userId', hworks⟩
  · rintro ⟨userId, hworks⟩
    exact ⟨userId, hpersists.barbers _ _ _ hworks⟩

end

end BarberHub
