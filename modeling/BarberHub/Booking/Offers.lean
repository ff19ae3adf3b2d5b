import BarberHub.Booking.Operations

/-!
# What the API offers is what it accepts

The availability endpoint and `create_appointment`, each run with nothing
committed in between.  A request whose start is shown for the local day it
falls on is accepted exactly when the end can be written on the clock of the
start, and then the row it commits is the one that was offered; the schema has
nothing to refuse.  Nothing else is accepted.
-/

namespace BarberHub

open HalfOpen KeyedTable ReadCommitted Program

/-- The endpoint, asked at `now` for the shop-local day of the start, shows a
slot that starts then. -/
def Database.Shows (env : Env) (db : Database) (barberId serviceId : Uuid)
    (start now : ℤ) : Prop :=
  ∃ barber shop offer, db.barber? barberId = some barber ∧
    db.barbershop? barber.shopId = some shop ∧
    (availableSlots env barberId (localDate (env.shopTimezone shop) start)
      serviceId now none false).run db = (.ok offer, db) ∧
    offer.Offers start

/-- The row holds what the request asked for, at the service's present length
and price. -/
structure Appointment.Fulfils (row : Appointment) (customer : User)
    (payload : AppointmentCreate) (service : Service) : Prop where
  customer_eq : row.customerId = customer.id
  barber_eq : row.barberId = payload.barberId
  service_eq : row.serviceId = payload.serviceId
  start_eq : row.startTime = payload.startTime.instant
  stop_eq : row.endTime = payload.startTime.instant + service.duration
  price_eq : row.totalPrice = service.price
  active : row.status.blocksSlot = true

/-- The end, `start_time + timedelta(minutes=service.duration_minutes)`, stays
in the calendar on the clock that `start_time` is written on. -/
def AppointmentCreate.Fits (payload : AppointmentCreate) (db : Database) :
    Prop :=
  ∀ service, db.service? payload.serviceId = some service →
    Representable (payload.startTime.wall + service.duration)

/-- The request is answered, and commits exactly one new row, the one asked
for. -/
def Database.Books (env : Env) (db : Database) (customer : User)
    (payload : AppointmentCreate) (now : ℤ) (id : Uuid) (createdAt : ℤ) :
    Prop :=
  ∃ service row queue answer,
    db.service? payload.serviceId = some service ∧
    row.Fulfils customer payload service ∧
    (createAppointment env customer payload now id createdAt).run db =
      (.ok answer, { db with
        appointments := db.appointments ++ [row]
        queue := queue })

/-- The booking of a slot that is shown lies inside the calendar. -/
theorem Answers.representable
    {env : Env} {db : Database} {barberId : Uuid} {day : ℤ} {serviceId : Uuid}
    {now : ℤ} {exclude : Option Uuid} {ignoreAppointments : Bool}
    {offer : AvailabilityRead} {barber : Barber} {shop : Barbershop}
    {service : Service} {start : ℤ}
    (h : Answers env db barberId day serviceId now exclude ignoreAppointments
      offer barber shop service) (hshown : offer.Offers start) :
    Representable start ∧ Representable (start + service.duration) ∧
      Representable ((env.shopTimezone shop).toWall start) := by
  have hbookable := (h.starts_iff start).mp hshown
  obtain ⟨slot, hslot, rfl⟩ := hshown
  obtain ⟨window, hwindow⟩ := h.bounds
  obtain ⟨-, hlow, hhigh, -, -⟩ := localDayBounds_eq_ok_iff.mp hwindow
  obtain ⟨hfirst, hlast⟩ := hbookable.within
  have hpositive := hbookable.positive
  have hmin := hlow.1
  have hmax := hhigh.2
  exact ⟨⟨by omega, by omega⟩, ⟨by omega, by omega⟩, h.readable slot hslot⟩

/-- A new appointment holds its slot, confirmed or not. -/
theorem newAppointment_blocksSlot
    (customer : User) (barber : Barber) (shop : Option Barbershop)
    (service : Service) (start stop : ℤ) (id : Uuid) (createdAt : ℤ) :
    (newAppointment customer barber shop service start stop id
      createdAt).status.blocksSlot = true := by
  dsimp only [newAppointment]
  split <;> rfl

/-! ## The statements of the request -/

theorem run_assertOnOffer_eq_ok_iff
    {env : Env} {barber : Barber} {service : Service} {start : AwareDatetime}
    {now : ℤ} {exclude : Option Uuid} {db db' : Database} :
    (assertOnOffer env barber service start now exclude).run db =
        (.ok (), db') ↔
      db' = db ∧ ∃ shop offer, db.barbershop? barber.shopId = some shop ∧
        Representable start.instant ∧
        Representable ((env.shopTimezone shop).toWall start.instant) ∧
        (availableSlots env barber.id
          (localDate (env.shopTimezone shop) start.instant) service.id now
          exclude false).run db = (.ok offer, db) ∧
        offer.Offers start.instant := by
  unfold assertOnOffer toLocal
  rw [query_bind, run_read, run_rowOr_bind_eq_ok_iff]
  constructor
  · rintro ⟨shop, hshop, h⟩
    rw [run_ofExcept_bind_eq_ok_iff] at h
    obtain ⟨_, h₁, h⟩ := h
    obtain ⟨hstart, rfl⟩ := representable_eq_ok_iff.mp h₁
    rw [run_ofExcept_bind_eq_ok_iff] at h
    obtain ⟨_, h₂, h⟩ := h
    obtain ⟨hwall, rfl⟩ := representable_eq_ok_iff.mp h₂
    dsimp only at h
    rw [run_bind_eq_ok_iff] at h
    obtain ⟨offer, t, hoffer, h⟩ := h
    obtain ⟨rfl, -⟩ := run_availableSlots_eq_ok_iff.mp hoffer
    split at h
    next hshown =>
      obtain ⟨-, rfl⟩ := Prod.mk.inj h
      exact ⟨rfl, shop, offer, hshop, hstart, hwall, hoffer, hshown⟩
    next hmissing =>
      rw [run_bind_eq_ok_iff] at h
      obtain ⟨ifEmpty, u, -, h⟩ := h
      split at h
      · simp at h
      · simp at h
  · rintro ⟨rfl, shop, offer, hshop, hstart, hwall, hoffer, hshown⟩
    refine ⟨shop, hshop, run_ofExcept_bind_eq_ok_iff.mpr
      ⟨start.instant, representable_of hstart, run_ofExcept_bind_eq_ok_iff.mpr
        ⟨_, representable_of hwall, ?_⟩⟩⟩
    refine run_bind_eq_ok_iff.mpr ⟨offer, db', hoffer, ?_⟩
    rw [if_pos hshown]
    rfl

theorem run_commitOrSlotTaken_eq_ok_iff
    {w : Database → Except Raised Database} {db db' : Database} :
    (commitOrSlotTaken w).run db = (.ok (), db') ↔ w db = .ok db' := by
  rw [commitOrSlotTaken_eq, write, ← orSlotTaken_eq_ok_iff]
  rcases hw : orSlotTaken w db with e | t
  · rw [run_commit_error hw]
    simp
  · rw [run_commit_ok hw]
    simp

/-- A request alone, statement by statement. -/
theorem run_createTransaction_eq_ok_iff
    {env : Env} {customer : User} {payload : AppointmentCreate} {now : ℤ}
    {id : Uuid} {createdAt : ℤ} {db db' : Database} :
    (createTransaction env customer payload now id createdAt).run db =
        (.ok (), db') ↔
      ∃ barber service,
        db.Resolves payload.barberId payload.serviceId barber service ∧
        Representable (payload.startTime.wall + service.duration) ∧
        (assertOnOffer env barber service payload.startTime now none).run db =
          (.ok (), db) ∧
        Representable (payload.startTime.instant + service.duration) ∧
        insertAppointment env (newAppointment customer barber
          (db.barbershop? barber.shopId) service payload.startTime.instant
          (payload.startTime.instant + service.duration) id createdAt) db =
            .ok db' := by
  rw [createTransaction]
  rw [run_bind_eq_ok_iff]
  constructor
  · rintro ⟨⟨barber, service⟩, t, hresolve, h⟩
    obtain ⟨hresolves, rfl⟩ := run_resolveBarberAndService_eq_ok_iff.mp hresolve
    dsimp only at h
    rw [query_bind, run_read] at h
    rw [run_ofExcept_bind_eq_ok_iff] at h
    obtain ⟨stop, hadd, h⟩ := h
    obtain ⟨hfits, hstop⟩ := AwareDatetime.add_eq_ok hadd
    rw [run_bind_eq_ok_iff] at h
    obtain ⟨_, u, hoffer, h⟩ := h
    obtain ⟨rfl, -⟩ := run_assertOnOffer_eq_ok_iff.mp hoffer
    rw [run_ofExcept_bind_eq_ok_iff] at h
    obtain ⟨_, h₁, h⟩ := h
    obtain ⟨-, rfl⟩ := bindParam_eq_ok_iff.mp h₁
    rw [run_ofExcept_bind_eq_ok_iff] at h
    obtain ⟨_, h₂, h⟩ := h
    obtain ⟨hend, rfl⟩ := bindParam_eq_ok_iff.mp h₂
    rw [hstop] at hend h
    exact ⟨barber, service, hresolves, hfits, hoffer, hend,
      run_commitOrSlotTaken_eq_ok_iff.mp h⟩
  · rintro ⟨barber, service, hresolves, hfits, hoffer, hend, hinsert⟩
    obtain ⟨stop, hadd, hstop⟩ := AwareDatetime.add_of hfits
    obtain ⟨-, _, _, -, hstart, -⟩ := run_assertOnOffer_eq_ok_iff.mp hoffer
    refine ⟨(barber, service), db,
      run_resolveBarberAndService_eq_ok_iff.mpr ⟨hresolves, rfl⟩, ?_⟩
    dsimp only
    rw [query_bind, run_read]
    rw [← hstop] at hend hinsert
    refine run_ofExcept_bind_eq_ok_iff.mpr ⟨stop, hadd,
      run_bind_eq_ok_iff.mpr ⟨(), db, hoffer, ?_⟩⟩
    refine run_ofExcept_bind_eq_ok_iff.mpr
      ⟨_, bindParam_eq_ok_iff.mpr ⟨hstart, rfl⟩, ?_⟩
    exact run_ofExcept_bind_eq_ok_iff.mpr
      ⟨_, bindParam_eq_ok_iff.mpr ⟨hend, rfl⟩,
        run_commitOrSlotTaken_eq_ok_iff.mpr hinsert⟩

theorem endsInWrite_createTransaction
    (env : Env) (customer : User) (payload : AppointmentCreate) (now : ℤ)
    (id : Uuid) (createdAt : ℤ) :
    (createTransaction env customer payload now id createdAt).EndsInWrite := by
  rw [createTransaction]
  apply EndsInWrite.after (respects_resolveBarberAndService _ _).readOnly
  rintro ⟨barber, service⟩
  apply EndsInWrite.after (readOnly_query _)
  intro shop
  apply EndsInWrite.after (readOnly_ofExcept _)
  intro stop
  apply EndsInWrite.after (readOnly_assertOnOffer _ _ _ _ _ _)
  intro _
  apply EndsInWrite.after (readOnly_ofExcept _)
  intro startTime
  apply EndsInWrite.after (readOnly_ofExcept _)
  intro endTime
  exact endsInWrite_write _

theorem run_appointmentEvent
    (env : Env) (event : Event) (id : Uuid) (db : Database) :
    ∃ queue, (appointmentEvent env event id).run db =
      (.ok (), { db with queue := queue }) := by
  rw [appointmentEvent]
  split
  · exact ⟨_, rfl⟩
  · exact ⟨db.queue, rfl⟩

/-- A row is loaded with the rows it refers to. -/
theorem run_load_of_rows
    {db : Database} {id : Uuid} {a : Appointment} {customer barberUser : User}
    {barber : Barber} {service : Service}
    (hrow : db.appointment? id = some a)
    (hcustomer : db.user? a.customerId = some customer)
    (hbarber : db.barber? a.barberId = some barber)
    (huser : db.user? barber.userId = some barberUser)
    (hservice : db.service? a.serviceId = some service) :
    (load id).run db = (.ok
      { appointment := a
        customer := some customer
        service := some service
        barber := some barber
        barberUser := some barberUser }, db) := by
  simp [load, rowOr, Database.loadedAppointment?, hrow, hcustomer, hbarber,
    huser, hservice]

/-- The customer of an appointment can read it back. -/
theorem run_getAppointment_own
    {db : Database} {user : User} {id : Uuid} {a : Appointment}
    {customer barberUser : User} {barber : Barber} {service : Service}
    (hrow : db.appointment? id = some a) (hown : a.customerId = user.id)
    (hcustomer : db.user? a.customerId = some customer)
    (hbarber : db.barber? a.barberId = some barber)
    (huser : db.user? barber.userId = some barberUser)
    (hservice : db.service? a.serviceId = some service) :
    ∃ answer, (getAppointment user id).run db = (.ok answer, db) := by
  have hload := run_load_of_rows hrow hcustomer hbarber huser hservice
  have hview : (mayView user
      { appointment := a
        customer := some customer
        service := some service
        barber := some barber
        barberUser := some barberUser }).run db = (.ok true, db) := by
    simp [mayView, hown]
  exact ⟨_, run_bind_eq_ok_iff.mpr ⟨_, db, hload,
    run_bind_eq_ok_iff.mpr ⟨true, db, hview,
      run_require_bind_eq_ok_iff.mpr ⟨rfl, rfl⟩⟩⟩⟩

/-! ## Accepted and shown -/

section

variable {env : Env} {db : Database} {customer : User}
  {payload : AppointmentCreate} {now : ℤ} {id : Uuid} {createdAt : ℤ}

/-- The answer of the endpoint, evaluated. -/
theorem shows_of_any
    {barberId serviceId : Uuid} {start : ℤ} {barber : Barber}
    {shop : Barbershop} (hbarber : db.barber? barberId = some barber)
    (hshop : db.barbershop? barber.shopId = some shop)
    (h : ((availableSlots env barberId
      (localDate (env.shopTimezone shop) start) serviceId now none
      false).run db).1.toOption.any (fun offer => offer.Offers start) = true) :
    db.Shows env barberId serviceId start now := by
  obtain ⟨offer, hoffer, hshown⟩ := exists_offer_of_any h
  exact ⟨barber, shop, offer, hbarber, hshop, hoffer, of_decide_eq_true hshown⟩

/-- Only a start that is shown is committed. -/
theorem shows_of_run {db' : Database}
    (h : (createTransaction env customer payload now id createdAt).run db =
      (.ok (), db')) :
    db.Shows env payload.barberId payload.serviceId payload.startTime.instant
      now := by
  obtain ⟨barber, service, hresolves, -, hcheck, -⟩ :=
    run_createTransaction_eq_ok_iff.mp h
  obtain ⟨-, shop, offer, hshop, -, -, hoffer, hshown⟩ :=
    run_assertOnOffer_eq_ok_iff.mp hcheck
  rw [hresolves.barber_id, hresolves.service_id] at hoffer
  exact ⟨barber, shop, offer, hresolves.barber_eq, hshop, hoffer, hshown⟩

/-- Only a booking whose end can be written is committed. -/
theorem fits_of_run {db' : Database}
    (h : (createTransaction env customer payload now id createdAt).run db =
      (.ok (), db')) : payload.Fits db := by
  obtain ⟨barber, service, hresolves, hfits, -⟩ :=
    run_createTransaction_eq_ok_iff.mp h
  intro service' hservice
  obtain rfl := Option.some.inj (hservice.symm.trans hresolves.service_eq)
  exact hfits

/-- The row of a start that is shown violates no constraint. -/
theorem insertAppointment_of_shown
    (hvalid : db.Valid) (hcustomer : (db.user? customer.id).isSome)
    (hfresh : ∀ a ∈ db.appointments, a.id ≠ id)
    {barber : Barber} {service : Service}
    (hresolves : db.Resolves payload.barberId payload.serviceId barber service)
    (hoffer : db.OnOffer env barber service payload.startTime.instant now none)
    (shop : Option Barbershop) (createdAt : ℤ) :
    insertAppointment env (newAppointment customer barber shop service
        payload.startTime.instant (payload.startTime.instant + service.duration)
        id createdAt) db = .ok { db with
      appointments := db.appointments ++ [newAppointment customer barber shop
        service payload.startTime.instant
        (payload.startTime.instant + service.duration) id createdAt] } := by
  have hservice := hvalid.checks.services service
    (mem_of_lookup hresolves.service_eq)
  refine insertAppointment_of_free ⟨?_, hservice.2.2⟩ hfresh ?_ hcustomer ?_ ?_
  · obtain ⟨shop, -, hbookable⟩ := hoffer
    have := hbookable.positive
    change payload.startTime.instant <
      payload.startTime.instant + service.duration
    omega
  · intro _ other hother
    exact hoffer.not_conflicts rfl rfl rfl hother
      (hvalid.checks.appointments other hother).1 (by simp)
  · change (db.barber? barber.id).isSome
    rw [hresolves.barber_self]
    rfl
  · change (db.service? service.id).isSome
    rw [hresolves.service_self]
    rfl

/-- A start that passes the check is booked, and answered. -/
theorem books_of_onOffer
    (payload : AppointmentCreate) (createdAt : ℤ)
    (hvalid : db.Valid) (hcustomer : (db.user? customer.id).isSome)
    (hfresh : ∀ a ∈ db.appointments, a.id ≠ id)
    {barber : Barber} {service : Service}
    (hresolves : db.Resolves payload.barberId payload.serviceId barber service)
    (hoffer : db.OnOffer env barber service payload.startTime.instant now none)
    (hfits : Representable (payload.startTime.wall + service.duration))
    (hstop : Representable (payload.startTime.instant + service.duration))
    (hcheck : (assertOnOffer env barber service payload.startTime now
      none).run db = (.ok (), db)) :
    db.Books env customer payload now id createdAt := by
  have htransaction := run_createTransaction_eq_ok_iff.mpr
    ⟨barber, service, hresolves, hfits, hcheck, hstop,
      insertAppointment_of_shown hvalid hcustomer hfresh hresolves hoffer
        (db.barbershop? barber.shopId) createdAt⟩
  generalize hrow : newAppointment customer barber (db.barbershop? barber.shopId)
    service payload.startTime.instant
    (payload.startTime.instant + service.duration) id createdAt = row
    at htransaction
  obtain ⟨queue, hevent⟩ := run_appointmentEvent env .created id
    { db with appointments := db.appointments ++ [row] }
  obtain ⟨reader, hreader⟩ := Option.isSome_iff_exists.mp hcustomer
  obtain ⟨barberUser, huser⟩ := Option.isSome_iff_exists.mp
    (hvalid.references.barbers barber (mem_of_lookup hresolves.barber_eq)).1
  have hid : ∀ a ∈ db.appointments, a.id ≠ row.id := by
    rw [← hrow]
    exact hfresh
  have hread : lookup Appointment.id (db.appointments ++ [row]) id =
      some row := by
    refine (hvalid.keys.appointments.append_singleton hid).lookup_eq_some_iff.mpr
      ⟨List.mem_append_right _ (List.mem_singleton_self row), ?_⟩
    rw [← hrow]
    rfl
  obtain ⟨answer, hanswer⟩ : ∃ answer, (getAppointment customer id).run
      { db with
        appointments := db.appointments ++ [row]
        queue := queue } = (.ok answer, { db with
        appointments := db.appointments ++ [row]
        queue := queue }) := by
    subst hrow
    exact run_getAppointment_own hread rfl hreader hresolves.barber_self huser
      hresolves.service_self
  refine ⟨service, row, queue, answer, hresolves.service_eq, ?_, ?_⟩
  · subst hrow
    exact ⟨rfl, hresolves.barber_id, hresolves.service_id, rfl, rfl, rfl,
      newAppointment_blocksSlot _ _ _ _ _ _ _ _⟩
  · rw [createAppointment]
    rw [run_bind_of_ok htransaction, run_bind_of_ok hevent]
    exact hanswer

/-- A start that is shown is booked, if the end can be written. -/
theorem books_of_shows
    (hvalid : db.Valid) (hcustomer : (db.user? customer.id).isSome)
    (hfresh : ∀ a ∈ db.appointments, a.id ≠ id)
    (hfits : payload.Fits db)
    (h : db.Shows env payload.barberId payload.serviceId
      payload.startTime.instant now) :
    db.Books env customer payload now id createdAt := by
  obtain ⟨barber, shop, offer, hbarber, hshop, hoffer, hshown⟩ := h
  obtain ⟨barber', shop', service, hans⟩ := answers_of_run hoffer
  have hsells := hans.sells
  obtain ⟨rfl, rfl⟩ := hsells.shop_unique hbarber hshop
  have hresolves : db.Resolves payload.barberId payload.serviceId barber
      service :=
    ⟨hsells.barber_eq, hsells.barber_active, hsells.service_eq,
      hsells.service_active, hsells.same_shop, hsells.performs⟩
  have hbookable := (hans.starts_iff payload.startTime.instant).mp
    hshown
  obtain ⟨hrep, hstop, hwall⟩ := hans.representable hshown
  have honoffer : db.OnOffer env barber service payload.startTime.instant now
      none := by
    refine ⟨shop, ?_, ?_⟩
    · rw [hresolves.barber_id, hresolves.service_id]
      exact hsells
    · rw [hresolves.barber_id]
      exact hbookable
  have hcheck : (assertOnOffer env barber service payload.startTime now
      none).run db = (.ok (), db) := by
    refine run_assertOnOffer_eq_ok_iff.mpr ⟨rfl, shop, offer, hsells.shop_eq,
      hrep, hwall, ?_, hshown⟩
    rw [hresolves.barber_id, hresolves.service_id]
    exact hoffer
  exact books_of_onOffer payload createdAt hvalid hcustomer hfresh hresolves
    honoffer (hfits service hresolves.service_eq) hstop hcheck

/-- What a request does when its start is not shown. -/
theorem unchanged_of_not_shows
    (h : ¬ db.Shows env payload.barberId payload.serviceId
      payload.startTime.instant now) :
    ((createAppointment env customer payload now id createdAt).run db).2 =
      db := by
  rw [createAppointment]
  rcases hrun : (createTransaction env customer payload now id createdAt).run
    db with ⟨e | _, t⟩
  · rw [run_bind_of_error hrun]
    exact (endsInWrite_createTransaction _ _ _ _ _ _).rollsBack _ _ _ hrun
  · exact absurd (shows_of_run hrun) h

theorem run_createTransaction_of_books
    (h : db.Books env customer payload now id createdAt) :
    ∃ db', (createTransaction env customer payload now id createdAt).run db =
      (.ok (), db') := by
  obtain ⟨_, _, _, _, -, -, hrun⟩ := h
  rw [createAppointment] at hrun
  obtain ⟨_, t, htransaction, -⟩ := run_bind_eq_ok_iff.mp hrun
  exact ⟨t, htransaction⟩

/-- What is booked was shown, and its end could be written. -/
theorem books_iff
    (hvalid : db.Valid) (hcustomer : (db.user? customer.id).isSome)
    (hfresh : ∀ a ∈ db.appointments, a.id ≠ id) :
    db.Books env customer payload now id createdAt ↔
      db.Shows env payload.barberId payload.serviceId payload.startTime.instant
        now ∧ payload.Fits db := by
  constructor
  · intro hbooks
    obtain ⟨db', hrun⟩ := run_createTransaction_of_books hbooks
    exact ⟨shows_of_run hrun, fits_of_run hrun⟩
  · rintro ⟨hshows, hfits⟩
    exact books_of_shows hvalid hcustomer hfresh hfits hshows

/-- The end of a start that is shown can be written in UTC. -/
theorem fits_of_shows_utc
    (hutc : payload.startTime.offset = 0)
    (h : db.Shows env payload.barberId payload.serviceId
      payload.startTime.instant now) : payload.Fits db := by
  intro service hservice
  obtain ⟨_, _, _, -, -, hoffer, hshown⟩ := h
  obtain ⟨_, _, service', hans⟩ := answers_of_run hoffer
  obtain rfl := Option.some.inj (hservice.symm.trans hans.sells.service_eq)
  have hstop := (hans.representable hshown).2.1
  rwa [AwareDatetime.instant, hutc, Int.sub_zero] at hstop

/-- Whatever day a slot is shown for, it is shown for the day it falls on. -/
theorem shows_of_slot
    (hzone : ∀ tz, env.Knows tz → DatesMatchBounds tz)
    {barberId serviceId : Uuid} {day : ℤ} {offer : AvailabilityRead}
    (h : (availableSlots env barberId day serviceId now none false).run db =
      (.ok offer, db)) {slot : SlotRead} (hslot : slot ∈ offer.slots) :
    db.Shows env barberId serviceId slot.start now := by
  obtain ⟨barber, shop, service, hans⟩ := answers_of_run h
  have hbookable := (hans.starts_iff slot.start).mp ⟨slot, hslot, rfl⟩
  have hpositive := hbookable.positive
  obtain ⟨window, hwindow⟩ := hans.bounds
  have hday : localDate (env.shopTimezone shop) slot.start = day := by
    rw [← hzone _ (env.knows_shopTimezone shop) day window hwindow]
    obtain ⟨-, -, -, hstart, hstop⟩ := localDayBounds_eq_ok_iff.mp hwindow
    rw [Interval.mem_def, hstart, hstop]
    exact hbookable.in_day slot.start le_rfl (by omega)
  refine ⟨barber, shop, offer, hans.sells.barber_eq, hans.sells.shop_eq, ?_,
    slot, hslot, rfl⟩
  rw [hday]
  exact h

end

/-- What the API offers is what it accepts, exactly as far as the end of the
booking can be written on the clock that the start is written on. -/
theorem books_iff_shows
    (env : Env) (db : Database) (customer : User) (now : ℤ) (id : Uuid)
    (createdAt : ℤ) (hvalid : db.Valid)
    (hcustomer : (db.user? customer.id).isSome)
    (hfresh : ∀ a ∈ db.appointments, a.id ≠ id)
    (hzone : ∀ tz, env.Knows tz → DatesMatchBounds tz) :
    (∀ payload : AppointmentCreate,
      ((db.Books env customer payload now id createdAt ↔
          db.Shows env payload.barberId payload.serviceId
            payload.startTime.instant now) ↔
        (db.Shows env payload.barberId payload.serviceId
          payload.startTime.instant now → payload.Fits db)) ∧
      (¬ db.Shows env payload.barberId payload.serviceId
          payload.startTime.instant now →
        ((createAppointment env customer payload now id createdAt).run db).2 =
          db)) ∧
    ∀ barberId serviceId day offer,
      (availableSlots env barberId day serviceId now none false).run db =
        (.ok offer, db) →
      ∀ slot ∈ offer.slots, ∀ start : AwareDatetime,
        start.instant = slot.start →
        (db.Books env customer ⟨barberId, serviceId, start⟩ now id createdAt ↔
          AppointmentCreate.Fits ⟨barberId, serviceId, start⟩ db) ∧
        (start.offset = 0 →
          AppointmentCreate.Fits ⟨barberId, serviceId, start⟩ db) := by
  have hbooks : ∀ payload : AppointmentCreate,
      db.Books env customer payload now id createdAt ↔
        db.Shows env payload.barberId payload.serviceId
          payload.startTime.instant now ∧ payload.Fits db :=
    fun _ => books_iff hvalid hcustomer hfresh
  refine ⟨fun payload => ⟨?_, unchanged_of_not_shows⟩, ?_⟩
  · rw [hbooks]
    constructor
    · exact fun h hshows => (h.mpr hshows).2
    · exact fun h => ⟨And.left, fun hshows => ⟨hshows, h hshows⟩⟩
  · intro barberId serviceId day offer h slot hslot start hstart
    have hshows := shows_of_slot hzone h hslot
    rw [← hstart] at hshows
    refine ⟨?_, fun hutc => fits_of_shows_utc hutc hshows⟩
    rw [hbooks]
    exact and_iff_right hshows

/-- At eight, the nine o'clock slot of the sample shop is shown and booked. -/
theorem books_iff_shows_nine :
    Sample.db.Books Sample.env Sample.customer
      ⟨20, 30, Sample.start 9 0⟩ (Sample.clock 8 0) 50 (Sample.clock 8 0) := by
  have hbarber : Sample.db.barber? 20 = some Sample.barber := rfl
  have hshop : Sample.db.barbershop? 10 = some Sample.shop := rfl
  have hshows : Sample.db.Shows Sample.env 20 30 (Sample.clock 9 0)
      (Sample.clock 8 0) := shows_of_any hbarber hshop (by decide +kernel)
  refine (((books_iff_shows Sample.env Sample.db Sample.customer
    (Sample.clock 8 0) 50 (Sample.clock 8 0) Sample.db_valid (by decide)
    (by decide) fun tz htz => ?_).1 _).1.mpr ?_).mpr hshows
  · rw [Sample.eq_of_knows htz]
    exact datesMatchBounds_fixed _ _
  · intro _ service hservice
    obtain rfl := Option.some.inj hservice
    decide

/-- Half past eleven at night on 9999-12-31, twelve and a half hours ahead of
UTC. -/
def Sample.lastHalfHour : AwareDatetime where
  wall := combine dateMax (Sample.timeOfDay 23 30)
  offset := minutes 750
  readable := by decide
  ahead_lt := by decide
  behind_lt := by decide

/-- In a shop twelve hours behind UTC eleven at night on 9999-12-30 is on offer,
and refused when it is written as the last half hour of 9999-12-31 of another
clock. -/
theorem not_books_iff_shows_lastHalfHour :
    Sample.lateDb.Valid ∧ (∀ tz, Sample.lateEnv.Knows tz →
        DatesMatchBounds tz) ∧
      Sample.lateDb.Shows Sample.lateEnv 20 30 Sample.lastHalfHour.instant
        (Sample.clock 8 0) ∧
      ((createAppointment Sample.lateEnv Sample.customer
        ⟨20, 30, Sample.lastHalfHour⟩ (Sample.clock 8 0) 50
        (Sample.clock 8 0)).run Sample.lateDb).1 = .error .overflowError ∧
      ¬ Sample.lateDb.Books Sample.lateEnv Sample.customer
        ⟨20, 30, Sample.lastHalfHour⟩ (Sample.clock 8 0) 50
        (Sample.clock 8 0) := by
  refine ⟨by decide +kernel, fun tz htz => ?_, ?_, by rfl, ?_⟩
  · rw [Sample.eq_of_knows_late htz]
    exact datesMatchBounds_fixed _ _
  · have hbarber : Sample.lateDb.barber? 20 = some Sample.barber := rfl
    have hshop : Sample.lateDb.barbershop? 10 = some Sample.lateShop := rfl
    exact shows_of_any hbarber hshop (by decide +kernel)
  · intro hbooks
    obtain ⟨db', hrun⟩ := run_createTransaction_of_books hbooks
    have hfits := fits_of_run hrun Sample.haircut rfl
    exact absurd hfits (by decide)

end BarberHub
