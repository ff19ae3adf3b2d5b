import BarberHub.Booking.Authority

/-!
# Moving an appointment

`reschedule_appointment` keeps the row and leaves it out of the busy time it
checks the new start against.  This module compares it with cancelling the
appointment and booking the same barber and service anew.
-/

namespace BarberHub

open HalfOpen KeyedTable ReadCommitted Program

/-- The database with the appointment given status CANCELLED. -/
def Database.withCancelled (db : Database) (id : Uuid) : Database :=
  { db with
    appointments := updateAt Appointment.id id
      (fun a => { a with status := .cancelled }) db.appointments }

/-- The barber's times that are taken. -/
def Database.occupied (db : Database) : Set (Uuid × ℤ × ℤ) :=
  {x | ∃ a ∈ db.appointments, a.status.blocksSlot = true ∧
    x = (a.barberId, a.startTime, a.endTime)}

/-- Exceptions of one class. -/
def Raised.SameClass (e e' : Raised) : Prop :=
  e.cls = e'.cls ∧ (e.cls = none → e = e')

/-- The user may move the appointment at `now`: the staff, or its customer
before the cutoff. -/
def Database.MayMove (env : Env) (db : Database) (user : User)
    (a : Appointment) (now : ℤ) : Prop :=
  db.StaffFor user a ∨ a.customerId = user.id ∧
    Representable
      (a.startTime - minutes env.settings.appointmentChangeCutoffMinutes) ∧
    now < a.startTime - minutes env.settings.appointmentChangeCutoffMinutes

/-! ## The same offer -/

section

variable {env : Env} {db : Database} {id : Uuid}

theorem sameDirectory_withCancelled (db : Database) (id : Uuid) :
    db.SameDirectory (db.withCancelled id) :=
  ⟨rfl, rfl, rfl, rfl, rfl, rfl⟩

/-- Leaving an appointment out of the query is as good as cancelling it. -/
theorem appointmentsIn_withCancelled
    (db : Database) (id : Uuid) (barberId : Uuid) (window : Interval) :
    (db.withCancelled id).appointmentsIn barberId window none =
      db.appointmentsIn barberId window (some id) := by
  rw [Database.appointmentsIn, Database.appointmentsIn, Database.withCancelled]
  dsimp only
  induction db.appointments with
  | nil => rfl
  | cons a rows ih =>
      rw [updateAt] at ih ⊢
      rw [List.map_cons]
      by_cases hid : a.id = id
      · rw [if_pos hid, List.filter_cons_of_neg, List.filter_cons_of_neg]
        · exact ih
        · simp [hid]
        · simp [AppointmentStatus.blocksSlot]
      · rw [if_neg hid]
        by_cases hin : a.barberId = barberId ∧ a.status.blocksSlot = true ∧
            a.startTime < window.stop ∧ window.start < a.endTime
        · rw [List.filter_cons_of_pos, List.filter_cons_of_pos, ih]
          · simp [hin, Ne.symm hid]
          · simp [hin]
        · rw [List.filter_cons_of_neg, List.filter_cons_of_neg, ih]
          · simp only [decide_eq_true_eq]
            exact fun h => hin ⟨h.1, h.2.1, h.2.2.1, h.2.2.2.1⟩
          · simp only [decide_eq_true_eq]
            exact fun h => hin ⟨h.1, h.2.1, h.2.2.1, h.2.2.2.1⟩

theorem answer_taken_withCancelled
    (db : Database) (id : Uuid) (barberId : Uuid) (window : Interval)
    (ignoreAppointments : Bool) :
    ((taken barberId window (some id) ignoreAppointments).run db).1 =
      ((taken barberId window none ignoreAppointments).run
        (db.withCancelled id)).1 := by
  cases ignoreAppointments with
  | true => rfl
  | false =>
      change ((appointments barberId window (some id)).run db).1 =
        ((appointments barberId window none).run (db.withCancelled id)).1
      rw [appointments, appointments, query_bind, query_bind, run_read, run_read,
        appointmentsIn_withCancelled]
      rfl

theorem answer_availableSlots_withCancelled
    (env : Env) (db : Database) (id : Uuid) (barberId : Uuid) (day : ℤ)
    (serviceId : Uuid) (now : ℤ) (ignoreAppointments : Bool) :
    ((availableSlots env barberId day serviceId now (some id)
      ignoreAppointments).run db).1 =
      ((availableSlots env barberId day serviceId now none
        ignoreAppointments).run (db.withCancelled id)).1 := by
  have hdir := sameDirectory_withCancelled db id
  have hload := respects_loadAndValidate barberId serviceId
  rw [availableSlots_eq, availableSlots_eq]
  refine hload.readOnly.answer_bind_congr hload.readOnly (hload.run_eq hdir) ?_
  rintro ⟨barber, shop, service⟩
  dsimp only
  rw [slotsOnDay, slotsOnDay]
  refine (readOnly_ofExcept _).answer_bind_congr (readOnly_ofExcept _) rfl ?_
  intro window
  refine (readOnly_query _).answer_bind_congr (readOnly_query _) rfl ?_
  intro closed
  split
  · rfl
  rw [slotsOnOpenDay, slotsOnOpenDay]
  have hshifts := respects_shiftsFor barberId day (env.shopTimezone shop)
  refine hshifts.readOnly.answer_bind_congr hshifts.readOnly
    (hshifts.run_eq hdir) ?_
  intro shifts
  split
  · rfl
  rw [slotsOnWorkingDay, slotsOnWorkingDay]
  refine (readOnly_taken _ _ _ _).answer_bind_congr (readOnly_taken _ _ _ _)
    (answer_taken_withCancelled db id _ _ _) ?_
  intro taken
  refine (readOnly_breaks _ _).answer_bind_congr (readOnly_breaks _ _) rfl ?_
  intro blocked
  exact (readOnly_ofExcept _).answer_bind_congr (readOnly_ofExcept _) rfl
    fun slots => rfl

/-- The check of a move is the check of a booking made after the appointment
was cancelled. -/
theorem answer_assertOnOffer_withCancelled
    (env : Env) (db : Database) (id : Uuid) (barber : Barber)
    (service : Service) (start : AwareDatetime) (now : ℤ) :
    ((assertOnOffer env barber service start now (some id)).run db).1 =
      ((assertOnOffer env barber service start now none).run
        (db.withCancelled id)).1 := by
  rw [assertOnOffer, assertOnOffer]
  refine (readOnly_query _).answer_bind_congr (readOnly_query _) rfl ?_
  intro found
  refine (readOnly_rowOr _ _).answer_bind_congr (readOnly_rowOr _ _) ?_ ?_
  · cases found <;> rfl
  intro shop
  refine (readOnly_ofExcept _).answer_bind_congr (readOnly_ofExcept _) rfl ?_
  intro instant
  refine (readOnly_ofExcept _).answer_bind_congr (readOnly_ofExcept _) rfl ?_
  intro localStart
  refine (readOnly_availableSlots _ _ _ _ _ _ _).answer_bind_congr
    (readOnly_availableSlots _ _ _ _ _ _ _)
    (answer_availableSlots_withCancelled env db id _ _ _ _ _) ?_
  intro offer
  split
  · rfl
  -- without appointments there is nothing to leave out
  have hignored : ∀ (exclude : Option Uuid),
      availableSlots env barber.id (dateOf localStart) service.id now exclude
        true = availableSlots env barber.id (dateOf localStart) service.id now
          none true := fun _ => rfl
  refine (readOnly_availableSlots _ _ _ _ _ _ _).answer_bind_congr
    (readOnly_availableSlots _ _ _ _ _ _ _) ?_ ?_
  · rw [← hignored (some id)]
    exact answer_availableSlots_withCancelled env db id _ _ _ _ true
  · intro ifEmpty
    split <;> rfl

/-! ## The steps before the offer is checked -/

/-- Whether the caller is staff, for a stored barber. -/
theorem run_isStaffFor
    (user : User) {loaded : LoadedAppointment}
    (hbarber : loaded.barber = db.barber? loaded.appointment.barberId)
    (hstored : (db.barber? loaded.appointment.barberId).isSome) :
    ∃ isStaff, (isStaffFor user loaded).run db = (.ok isStaff, db) ∧
      (isStaff = true ↔ db.StaffFor user loaded.appointment) := by
  obtain ⟨barber, hrow⟩ := Option.isSome_iff_exists.mp hstored
  rw [isStaffFor, hbarber, hrow]
  by_cases hadmin : user.role = .admin
  · rw [if_pos hadmin]
    exact ⟨true, rfl, by simp [Database.StaffFor, hadmin]⟩
  rw [if_neg hadmin]
  by_cases hself : barber.userId = user.id
  · refine ⟨true, ?_, ?_⟩
    · simp [rowOr, hself]
    · simp [Database.StaffFor, hrow, hself]
  · refine ⟨(db.barbershop? barber.shopId).any fun shop =>
      shop.ownerId = user.id, ?_, ?_⟩
    · simp [rowOr, hself]
    · simp [Database.StaffFor, hadmin, hrow, hself, Option.any_eq_true]

/-- An appointment is loaded with all that belongs to it. -/
theorem run_load
    (hrefs : db.ReferencesHold) {a : Appointment}
    (hrow : db.appointment? id = some a) :
    ∃ loaded, (load id).run db = (.ok loaded, db) ∧ loaded.appointment = a ∧
      loaded.barber = db.barber? a.barberId ∧
      (db.barber? a.barberId).isSome ∧
      ∃ answer, loaded.toRead = .ok answer := by
  have hstored := mem_of_lookup hrow
  refine ⟨db.eager a, ?_, rfl, rfl, (hrefs.appointments a hstored).2.1,
    exists_toRead_eager hrefs hstored⟩
  rw [load, query_bind, run_read, Database.loadedAppointment?_eq, hrow]
  rfl

theorem run_loadForAction
    (hrefs : db.ReferencesHold) (user : User) {a : Appointment}
    (hrow : db.appointment? id = some a)
    (hinvolved : a.customerId = user.id ∨ db.StaffFor user a) :
    ∃ loaded isStaff, (loadForAction user id).run db =
        (.ok (loaded, isStaff), db) ∧ loaded.appointment = a ∧
      (isStaff = true ↔ db.StaffFor user a) := by
  obtain ⟨loaded, hload, rfl, hbarber, hstored, -⟩ := run_load hrefs hrow
  obtain ⟨isStaff, hrun, hstaff⟩ := run_isStaffFor user hbarber hstored
  refine ⟨loaded, isStaff, ?_, rfl, hstaff⟩
  rw [loadForAction, run_bind_of_ok hload, run_bind_of_ok hrun]
  exact run_require_bind_eq_ok_iff.mpr
    ⟨hinvolved.symm.imp_left hstaff.mpr, rfl⟩

/-- The people of an appointment can read it. -/
theorem run_getAppointment
    (hrefs : db.ReferencesHold) (user : User) {a : Appointment}
    (hrow : db.appointment? id = some a)
    (hinvolved : a.customerId = user.id ∨ db.StaffFor user a) :
    ∃ answer, (getAppointment user id).run db = (.ok answer, db) := by
  obtain ⟨loaded, hload, rfl, hbarber, hstored, answer, hread⟩ :=
    run_load hrefs hrow
  obtain ⟨isStaff, hrun, hstaff⟩ := run_isStaffFor user hbarber hstored
  have hview : (mayView user loaded).run db = (.ok true, db) := by
    rw [mayView]
    by_cases hown : loaded.appointment.customerId = user.id
    · rw [if_pos hown]
      rfl
    · rw [if_neg hown, hrun, hstaff.mpr (hinvolved.resolve_left hown)]
  refine ⟨answer, ?_⟩
  rw [getAppointment, run_bind_of_ok hload, run_bind_of_ok hview]
  refine run_require_bind_eq_ok_iff.mpr ⟨rfl, ?_⟩
  rw [hread]
  rfl

/-- `reschedule_appointment` once the caller and the status are checked. -/
def moveTo (env : Env) (a : Appointment) (newStart : AwareDatetime)
    (now : ℤ) : Request Unit := do
  let (barber, service) ← resolveBarberAndService a.barberId a.serviceId
  assertOnOffer env barber service newStart now (some a.id)
  let newEnd ← ofExcept (newStart.add service.duration)
  let startTime ← ofExcept (bindParam newStart.instant)
  let endTime ← ofExcept (bindParam newEnd.instant)
  commitOrSlotTaken (updateAppointment env a.id (.ofChange a
    { a with startTime := startTime, endTime := endTime }))

theorem run_rescheduleTransaction
    (hvalid : db.Valid) {a : Appointment} {user : User} {now : ℤ}
    (newStart : AwareDatetime) (hrow : db.appointment? a.id = some a)
    (hactive : a.status.blocksSlot = true) (hmay : db.MayMove env user a now) :
    (rescheduleTransaction env user a.id newStart now).run db =
      (moveTo env a newStart now).run db := by
  obtain ⟨loaded, isStaff, hload, rfl, hstaff⟩ :=
    run_loadForAction hvalid.references user hrow (by
      rcases hmay with hstaff | ⟨hown, -, -⟩
      · exact Or.inr hstaff
      · exact Or.inl hown)
  have hstatus : (requireStatus loaded.appointment (·.blocksSlot)
      "cannot be rescheduled").run db = (.ok (), db) := by
    rw [requireStatus, require, if_pos hactive]
    rfl
  have hcutoff : (assertWithinCutoff env loaded.appointment now isStaff).run
      db = (.ok (), db) := by
    rw [assertWithinCutoff]
    by_cases hs : isStaff = true
    · rw [if_pos hs]
      rfl
    · obtain ⟨-, hrep, hbefore⟩ :=
        hmay.resolve_left fun h => hs (hstaff.mpr h)
      rw [if_neg hs, representable_of hrep, ofExcept_ok_bind, require,
        if_pos hbefore]
      rfl
  rw [rescheduleTransaction]
  rw [run_bind_of_ok hload]
  dsimp only
  rw [run_bind_of_ok hstatus, run_bind_of_ok hcutoff]
  rfl

/-! ## What is left -/

/-- An UPDATE that changes no reference of an appointment. -/
theorem Database.ReferencesHold.updateAt
    (h : db.ReferencesHold) (id : Uuid) {f : Appointment → Appointment}
    (hf : ∀ a, (f a).id = a.id ∧ (f a).customerId = a.customerId ∧
      (f a).barberId = a.barberId ∧ (f a).serviceId = a.serviceId)
    (queue : List (Event × Uuid)) :
    ({ db with
        appointments := KeyedTable.updateAt Appointment.id id f db.appointments
        queue := queue } : Database).ReferencesHold := by
  have hkept : ∀ id', (lookup Appointment.id (KeyedTable.updateAt
      Appointment.id id f db.appointments) id').isSome =
        (db.appointment? id').isSome := fun _ =>
    isSome_lookup_updateAt fun r hr => (hf r).1.trans hr
  refine { h with
    appointments := fun a ha => ?_
    reviews := fun r hr => ?_
    appointmentReminders := fun r hr => ?_ }
  · rcases mem_updateAt.mp ha with ⟨ha, -⟩ | ⟨old, hold, -, rfl⟩
    · exact h.appointments a ha
    · obtain ⟨-, hcustomer, hbarber, hservice⟩ := hf old
      rw [hcustomer, hbarber, hservice]
      exact h.appointments old hold
  · obtain ⟨hcustomer, hbarber, happointment⟩ := h.reviews r hr
    exact ⟨hcustomer, hbarber, (hkept _).trans happointment⟩
  · exact (hkept _).trans (h.appointmentReminders r hr)

/-- Cancelling an appointment breaks no constraint. -/
theorem Database.Valid.withCancelled (h : db.Valid) (id : Uuid) :
    (db.withCancelled id).Valid := by
  have hrows : ∀ a ∈ (db.withCancelled id).appointments, a ∈ db.appointments ∨
      ∃ old ∈ db.appointments, a = { old with status := .cancelled } := by
    intro a ha
    rcases mem_updateAt.mp ha with ⟨ha, -⟩ | ⟨old, hold, -, rfl⟩
    · exact Or.inl ha
    · exact Or.inr ⟨old, hold, rfl⟩
  have hclear : ∀ {a b : Appointment}, a.status = .cancelled →
      ¬ a.Conflicts b := by
    rintro a b ha ⟨-, hactive, -⟩
    simp [ha, AppointmentStatus.blocksSlot] at hactive
  refine { h with
    keys := ?_
    references := ?_
    checks := ?_
    noDoubleBooking := ?_ }
  · exact { h.keys with
      appointments := h.keys.appointments.updateAt fun _ _ _ => rfl }
  · exact h.references.updateAt id
      (f := fun a => { a with status := .cancelled })
      (fun _ => ⟨rfl, rfl, rfl, rfl⟩) db.queue
  · refine { h.checks with appointments := fun a ha => ?_ }
    rcases hrows a ha with ha | ⟨old, hold, rfl⟩
    · exact h.checks.appointments a ha
    · exact h.checks.appointments old hold
  · intro a ha b hb hne
    rcases hrows a ha with ha | ⟨old, -, rfl⟩
    · rcases hrows b hb with hb | ⟨old, -, rfl⟩
      · exact h.noDoubleBooking a ha b hb hne
      · rw [Appointment.conflicts_comm]
        exact hclear rfl
    · exact hclear rfl

/-- The UPDATE of a move to a start on offer is accepted. -/
theorem exists_moved
    (hvalid : db.Valid) {a : Appointment} {barber : Barber}
    {service : Service} {newStart now : ℤ}
    (hrow : db.appointment? a.id = some a)
    (hres : db.Resolves a.barberId a.serviceId barber service)
    (hoffer : db.OnOffer env barber service newStart now (some a.id))
    {u : AppointmentUpdate}
    (hu : u = .ofChange a
      { a with startTime := newStart, endTime := newStart + service.duration }) :
    updateAppointment env a.id u db = .ok { db with
        appointments := updateAt Appointment.id a.id u.apply db.appointments } ∧
      (u.apply a).startTime = newStart ∧
      (u.apply a).endTime = newStart + service.duration ∧
      (u.apply a).status = a.status := by
  have hstart : (u.apply a).startTime = newStart := by
    rw [hu, AppointmentUpdate.startTime_apply_ofChange]
  have hstop : (u.apply a).endTime = newStart + service.duration := by
    rw [hu, AppointmentUpdate.endTime_apply_ofChange]
  have hstatus : (u.apply a).status = a.status := by
    rw [hu, AppointmentUpdate.status_apply_ofChange]
  have hold := hvalid.checks.appointments a (mem_of_lookup hrow)
  have hpositive : 0 < service.duration := by
    obtain ⟨shop, -, hbookable⟩ := hoffer
    exact hbookable.positive
  have hchecked : (u.apply a).Checked := by
    refine ⟨?_, hold.2⟩
    rw [hstart, hstop]
    exact lt_add_of_pos_right _ hpositive
  have hfree := hoffer.harmless (fun other hother =>
    (hvalid.checks.appointments other hother).1) hrow hres.barber_id.symm hstart
      hstop
  refine ⟨?_, hstart, hstop, hstatus⟩
  rcases updateAppointment_cases env hrow hchecked (by
      simp [hu, AppointmentUpdate.ofChange, changedTo]) with
    ⟨db', hok⟩ | ⟨-, other, hother, hne, hin⟩
  · rw [hok, updateAppointment_eq_ok hok]
  · exact absurd hin (hfree a hrow other hother hne)

/-- Moved, or cancelled and booked anew, the same times are taken. -/
theorem occupied_moved
    (hvalid : db.Valid) {a : Appointment} (u : AppointmentUpdate)
    (row : Appointment) (queue queue' : List (Event × Uuid))
    (hrow : db.appointment? a.id = some a)
    (hactive : a.status.blocksSlot = true)
    (hstatus : (u.apply a).status = a.status)
    (hnew : row.status.blocksSlot = true) (hbarber : row.barberId = a.barberId)
    (hstart : row.startTime = (u.apply a).startTime)
    (hstop : row.endTime = (u.apply a).endTime) :
    ({ db with
        appointments := updateAt Appointment.id a.id u.apply db.appointments
        queue := queue } : Database).occupied =
      ({ db.withCancelled a.id with
        appointments := (db.withCancelled a.id).appointments ++ [row]
        queue := queue' } : Database).occupied := by
  have hmem := mem_of_lookup hrow
  ext x
  constructor
  · rintro ⟨b, hb, hbactive, rfl⟩
    rcases mem_updateAt.mp hb with ⟨hb, hid⟩ | ⟨old, hold, hid, rfl⟩
    · exact ⟨b, List.mem_append_left _
        (mem_updateAt.mpr (Or.inl ⟨hb, hid⟩)), hbactive, rfl⟩
    · obtain rfl := hvalid.keys.appointments.eq_of_mem hold hmem hid
      refine ⟨row, List.mem_append_right _ (List.mem_singleton_self row), hnew,
        ?_⟩
      rw [hbarber, hstart, hstop]
      rfl
  · rintro ⟨b, hb, hbactive, rfl⟩
    rcases List.mem_append.mp hb with hb | hb
    · rcases mem_updateAt.mp hb with ⟨hb, hid⟩ | ⟨old, hold, hid, rfl⟩
      · exact ⟨b, mem_updateAt.mpr (Or.inl ⟨hb, hid⟩), hbactive, rfl⟩
      · simp [AppointmentStatus.blocksSlot] at hbactive
    · obtain rfl := List.mem_singleton.mp hb
      refine ⟨u.apply a, mem_updateAt.mpr (Or.inr ⟨a, hmem, rfl, rfl⟩), ?_, ?_⟩
      · rw [hstatus]
        exact hactive
      · rw [hbarber, hstart, hstop]
        rfl

/-! ## The comparison -/

/-- Moving the appointment does what cancelling it and booking its barber and
service for the new start would do. -/
structure MovesAsRebooked (env : Env) (db : Database) (user : User)
    (a : Appointment) (newStart : AwareDatetime) (now : ℤ) (customer : User)
    (newId : Uuid) (createdAt : ℤ) : Prop where
  refused : ∀ e,
    ((rescheduleAppointment env user a.id newStart now).run db).1 = .error e →
    ∃ e', ((createAppointment env customer ⟨a.barberId, a.serviceId, newStart⟩
        now newId createdAt).run (db.withCancelled a.id)).1 = .error e' ∧
      e.SameClass e'
  moved : ∀ answer db',
    (rescheduleAppointment env user a.id newStart now).run db =
      (.ok answer, db') →
    ∃ answer' db'', (createAppointment env customer
        ⟨a.barberId, a.serviceId, newStart⟩ now newId createdAt).run
          (db.withCancelled a.id) = (.ok answer', db'') ∧
      db'.occupied = db''.occupied ∧
      ∃ a', db'.appointment? a.id = some a' ∧ a.Continues a' ∧
        a'.status = a.status

section

variable {user customer : User} {a : Appointment} {newStart : AwareDatetime}
  {now : ℤ} {newId : Uuid} {createdAt : ℤ}

/-- Both refused with one error. -/
theorem MovesAsRebooked.of_errors
    {e : Raised}
    (hmove : ((rescheduleAppointment env user a.id newStart now).run db).1 =
      .error e)
    (hcreate : ((createAppointment env customer
      ⟨a.barberId, a.serviceId, newStart⟩ now newId createdAt).run
        (db.withCancelled a.id)).1 = .error e) :
    MovesAsRebooked env db user a newStart now customer newId createdAt where
  refused e' h := by
    obtain rfl := Except.error.inj (hmove.symm.trans h)
    exact ⟨e, hcreate, rfl, fun _ => rfl⟩
  moved answer db' h := by
    rw [h] at hmove
    simp at hmove

/-- What the check lets pass ends in the calendar, as an instant. -/
theorem representable_of_check
    {barber : Barber} {service : Service} {start : AwareDatetime}
    {exclude : Option Uuid} (hservice : db.service? service.id = some service)
    (hcheck : (assertOnOffer env barber service start now exclude).run db =
      (.ok (), db)) :
    Representable start.instant ∧
      Representable (start.instant + service.duration) := by
  obtain ⟨-, _, _, -, hstart, -, hoffer, hshown⟩ :=
    run_assertOnOffer_eq_ok_iff.mp hcheck
  obtain ⟨_, _, service', hans⟩ := answers_of_run hoffer
  obtain rfl := Option.some.inj (hservice.symm.trans hans.sells.service_eq)
  exact ⟨hstart, (hans.representable hshown).2.1⟩

/-- A move to a start that is on offer. -/
theorem MovesAsRebooked.of_offer
    (hvalid : db.Valid) (hrow : db.appointment? a.id = some a)
    (hactive : a.status.blocksSlot = true) (hmay : db.MayMove env user a now)
    (hcustomer : (db.user? customer.id).isSome)
    (hfresh : ∀ other ∈ db.appointments, other.id ≠ newId)
    {barber : Barber} {service : Service}
    (hres : db.Resolves a.barberId a.serviceId barber service)
    (hfits : Representable (newStart.wall + service.duration))
    (hcheck : (assertOnOffer env barber service newStart now (some a.id)).run
      db = (.ok (), db)) :
    MovesAsRebooked env db user a newStart now customer newId createdAt := by
  have hinvolved : a.customerId = user.id ∨ db.StaffFor user a :=
    hmay.symm.imp_left And.left
  -- the move
  obtain ⟨hoffer, -⟩ := onOffer_of_run hres.barber_self hres.service_self hcheck
  obtain ⟨hupdate, hstart, hend, hstatus⟩ :=
    exists_moved hvalid hrow hres hoffer rfl
  obtain ⟨hfirst, hlast⟩ := representable_of_check hres.service_self hcheck
  obtain ⟨newEnd, hadd, hinstant⟩ := AwareDatetime.add_of hfits
  generalize hu : AppointmentUpdate.ofChange a
    { a with
      startTime := newStart.instant
      endTime := newStart.instant + service.duration } = u
    at hupdate hstart hend hstatus
  generalize hmoved : ({ db with
    appointments := updateAt Appointment.id a.id u.apply db.appointments } :
      Database) = moved at hupdate
  have htransaction : (rescheduleTransaction env user a.id newStart now).run
      db = (.ok (), moved) := by
    rw [run_rescheduleTransaction hvalid newStart hrow hactive hmay, moveTo]
    rw [run_bind_of_ok (run_resolveBarberAndService_eq_ok_iff.mpr ⟨hres, rfl⟩)]
    dsimp only
    rw [run_bind_of_ok hcheck, hadd, ofExcept_ok_bind,
      bindParam_eq_ok_iff.mpr ⟨hfirst, rfl⟩, ofExcept_ok_bind, hinstant,
      bindParam_eq_ok_iff.mpr ⟨hlast, rfl⟩, ofExcept_ok_bind, hu]
    exact run_commitOrSlotTaken_eq_ok_iff.mpr hupdate
  obtain ⟨queue, hevent⟩ := run_appointmentEvent env .rescheduled a.id moved
  have hrow' : ({ moved with queue := queue } : Database).appointment? a.id =
      some (u.apply a) := by
    subst hmoved
    have hlookup := appointment?_updateAt db a.id u
    rw [hrow] at hlookup
    exact hlookup
  -- the booking made after a cancellation
  have hdir := sameDirectory_withCancelled db a.id
  have hvalid' := hvalid.withCancelled a.id
  have hres' := hres.of_sameDirectory hdir
  have hcheck' : (assertOnOffer env barber service newStart now none).run
      (db.withCancelled a.id) = (.ok (), db.withCancelled a.id) := by
    refine Prod.ext ?_ ((readOnly_assertOnOffer _ _ _ _ _ _).run_state _)
    rw [← answer_assertOnOffer_withCancelled, hcheck]
  obtain ⟨hoffer', -⟩ :=
    onOffer_of_run hres'.barber_self hres'.service_self hcheck'
  have hfresh' : ∀ other ∈ (db.withCancelled a.id).appointments,
      other.id ≠ newId := by
    intro other hother
    rcases mem_updateAt.mp hother with ⟨hother, -⟩ | ⟨old, hold, -, rfl⟩
    · exact hfresh other hother
    · exact hfresh old hold
  obtain ⟨service', row, queue', answer', hservice', hfulfils, hbooks⟩ :=
    books_of_onOffer ⟨a.barberId, a.serviceId, newStart⟩ createdAt hvalid'
      hcustomer hfresh' hres' hoffer' hfits hlast hcheck'
  obtain rfl := Option.some.inj (hservice'.symm.trans hres'.service_eq)
  have hoccupied := occupied_moved hvalid u row queue queue' hrow hactive
    hstatus hfulfils.active hfulfils.barber_eq
    (hfulfils.start_eq.trans hstart.symm) (hfulfils.stop_eq.trans hend.symm)
  refine ⟨?_, fun answer db' h => ⟨answer', _, hbooks, ?_⟩⟩
  · intro e h
    have hrefs : ({ moved with queue := queue } : Database).ReferencesHold := by
      subst hmoved
      exact hvalid.references.updateAt a.id (f := u.apply)
        (fun _ => ⟨rfl, rfl, rfl, rfl⟩) _
    obtain ⟨answer, hanswer⟩ := run_getAppointment hrefs user hrow'
      (by subst hmoved; exact hinvolved)
    rw [rescheduleAppointment, run_bind_of_ok htransaction,
      run_bind_of_ok hevent, hanswer] at h
    simp at h
  · rw [rescheduleAppointment, run_bind_of_ok htransaction,
      run_bind_of_ok hevent] at h
    obtain rfl := (readOnly_getAppointment user a.id).eq_of_run h
    refine ⟨?_, u.apply a, hrow', AppointmentUpdate.continues_apply u a, hstatus⟩
    subst hmoved
    exact hoccupied

/-- The request ends with the error that the booking after a cancellation
raises, if it raises one when the end is computed. -/
theorem run_createAppointment_of_not_fits
    {barber : Barber} {service : Service}
    (hres : db.Resolves a.barberId a.serviceId barber service)
    (hfits : ¬ Representable (newStart.wall + service.duration)) :
    ((createAppointment env customer ⟨a.barberId, a.serviceId, newStart⟩ now
      newId createdAt).run (db.withCancelled a.id)).1 =
        .error .overflowError := by
  have hdir := sameDirectory_withCancelled db a.id
  have hcreate : (createTransaction env customer
      ⟨a.barberId, a.serviceId, newStart⟩ now newId createdAt).run
        (db.withCancelled a.id) =
          (.error .overflowError, db.withCancelled a.id) := by
    rw [createTransaction]
    rw [run_bind_of_ok (run_resolveBarberAndService_eq_ok_iff.mpr
      ⟨hres.of_sameDirectory hdir, rfl⟩)]
    dsimp only
    rw [query_bind, run_read, AwareDatetime.add_of_not hfits]
    rfl
  rw [createAppointment, run_bind_of_error hcreate]

/-- The two requests of the comparison, once barber and service are found. -/
theorem run_rescheduleAppointment_of_check
    (hvalid : db.Valid) (hrow : db.appointment? a.id = some a)
    (hactive : a.status.blocksSlot = true) (hmay : db.MayMove env user a now)
    {barber : Barber} {service : Service}
    (hres : db.Resolves a.barberId a.serviceId barber service) {e : Raised}
    (hcheck : (assertOnOffer env barber service newStart now
      (some a.id)).run db = (.error e, db)) :
    ((rescheduleAppointment env user a.id newStart now).run db).1 =
      .error e := by
  have htransaction := run_rescheduleTransaction hvalid newStart hrow hactive
    hmay
  rw [moveTo, run_bind_of_ok
    (run_resolveBarberAndService_eq_ok_iff.mpr ⟨hres, rfl⟩)] at htransaction
  dsimp only at htransaction
  rw [run_bind_of_error hcheck] at htransaction
  rw [rescheduleAppointment, run_bind_of_error htransaction]

/-- A move to a start that is not on offer. -/
theorem MovesAsRebooked.of_refused
    (hvalid : db.Valid) (hrow : db.appointment? a.id = some a)
    (hactive : a.status.blocksSlot = true) (hmay : db.MayMove env user a now)
    {barber : Barber} {service : Service}
    (hres : db.Resolves a.barberId a.serviceId barber service)
    (hfits : Representable (newStart.wall + service.duration)) {e : Raised}
    (hcheck : (assertOnOffer env barber service newStart now
      (some a.id)).run db = (.error e, db)) :
    MovesAsRebooked env db user a newStart now customer newId createdAt := by
  have hdir := sameDirectory_withCancelled db a.id
  refine .of_errors (e := e) (run_rescheduleAppointment_of_check hvalid hrow
    hactive hmay hres hcheck) ?_
  have hcheck' : (assertOnOffer env barber service newStart now none).run
      (db.withCancelled a.id) = (.error e, db.withCancelled a.id) := by
    refine Prod.ext ?_ ((readOnly_assertOnOffer _ _ _ _ _ _).run_state _)
    rw [← answer_assertOnOffer_withCancelled, hcheck]
  obtain ⟨newEnd, hadd, -⟩ := AwareDatetime.add_of hfits
  have hcreate : (createTransaction env customer
      ⟨a.barberId, a.serviceId, newStart⟩ now newId createdAt).run
        (db.withCancelled a.id) = (.error e, db.withCancelled a.id) := by
    rw [createTransaction]
    rw [run_bind_of_ok (run_resolveBarberAndService_eq_ok_iff.mpr
      ⟨hres.of_sameDirectory hdir, rfl⟩)]
    dsimp only
    rw [query_bind, run_read, hadd, ofExcept_ok_bind, run_bind_of_error hcheck']
  rw [createAppointment, run_bind_of_error hcreate]

/-- A move whose barber or service cannot be booked any more. -/
theorem MovesAsRebooked.of_unresolved
    (hvalid : db.Valid) (hrow : db.appointment? a.id = some a)
    (hactive : a.status.blocksSlot = true) (hmay : db.MayMove env user a now)
    {e : Raised}
    (hrun : (resolveBarberAndService a.barberId a.serviceId).run db =
      (.error e, db)) :
    MovesAsRebooked env db user a newStart now customer newId createdAt := by
  have hdir := sameDirectory_withCancelled db a.id
  have hresolve := respects_resolveBarberAndService a.barberId a.serviceId
  have hrun' : (resolveBarberAndService a.barberId a.serviceId).run
      (db.withCancelled a.id) = (.error e, db.withCancelled a.id) := by
    refine Prod.ext ?_ (hresolve.readOnly.run_state _)
    rw [← hresolve.run_eq hdir, hrun]
  have htransaction := run_rescheduleTransaction hvalid newStart hrow hactive
    hmay
  rw [moveTo, run_bind_of_error hrun] at htransaction
  refine .of_errors (e := e) ?_ ?_
  · rw [rescheduleAppointment, run_bind_of_error htransaction]
  · rw [createAppointment, createTransaction]
    rw [run_bind_of_error (run_bind_of_error hrun')]

/-- When the end cannot be written, the booking raises `OverflowError`, and the
move does what its check says first. -/
theorem movesAsRebooked_iff_of_not_fits
    (hvalid : db.Valid) (hrow : db.appointment? a.id = some a)
    (hactive : a.status.blocksSlot = true) (hmay : db.MayMove env user a now)
    {barber : Barber} {service : Service}
    (hres : db.Resolves a.barberId a.serviceId barber service)
    (hfits : ¬ Representable (newStart.wall + service.duration)) :
    MovesAsRebooked env db user a newStart now customer newId createdAt ↔
      ((assertOnOffer env barber service newStart now
          (some a.id)).run db).1 = .ok () ∨
        ((assertOnOffer env barber service newStart now
          (some a.id)).run db).1 = .error .overflowError := by
  have hcreate : ((createAppointment env customer
      ⟨a.barberId, a.serviceId, newStart⟩ now newId createdAt).run
        (db.withCancelled a.id)).1 = .error .overflowError :=
    run_createAppointment_of_not_fits hres hfits
  rcases hcheck : (assertOnOffer env barber service newStart now
    (some a.id)).run db with ⟨e | _, t⟩
  · obtain rfl := (readOnly_assertOnOffer _ _ _ _ _ _).eq_of_run hcheck
    have hmove := run_rescheduleAppointment_of_check hvalid hrow hactive hmay
      hres hcheck
    constructor
    · intro h
      obtain ⟨e', he', hclass, hsame⟩ := h.refused e hmove
      obtain rfl := Except.error.inj (hcreate.symm.trans he')
      exact Or.inr (congrArg Except.error (hsame hclass))
    · rintro (hok | herror)
      · simp at hok
      · obtain rfl := Except.error.inj herror
        exact .of_errors hmove hcreate
  · obtain rfl := (readOnly_assertOnOffer _ _ _ _ _ _).eq_of_run hcheck
    refine iff_of_true (.of_errors ?_ hcreate) (Or.inl rfl)
    have htransaction := run_rescheduleTransaction hvalid newStart hrow hactive
      hmay
    rw [moveTo, run_bind_of_ok
      (run_resolveBarberAndService_eq_ok_iff.mpr ⟨hres, rfl⟩)] at htransaction
    dsimp only at htransaction
    rw [run_bind_of_ok hcheck, AwareDatetime.add_of_not hfits] at htransaction
    rw [rescheduleAppointment]
    exact congrArg Prod.fst (run_bind_of_error htransaction)

end

end

/-- Rescheduling is cancelling and booking anew, for every start from which the
end of the service can be written on the clock of the start.  From any other
start it is so only where the move raises `OverflowError`, too. -/
theorem moves_as_rebooked
    (env : Env) (db : Database) (user customer : User) (a : Appointment)
    (newStart : AwareDatetime) (now : ℤ) (newId : Uuid) (createdAt : ℤ)
    (hvalid : db.Valid) (hrow : db.appointment? a.id = some a)
    (hactive : a.status.blocksSlot = true) (hmay : db.MayMove env user a now)
    (hcustomer : (db.user? customer.id).isSome)
    (hfresh : ∀ other ∈ db.appointments, other.id ≠ newId) :
    ((∀ barber service, db.Resolves a.barberId a.serviceId barber service →
        Representable (newStart.wall + service.duration)) →
      MovesAsRebooked env db user a newStart now customer newId createdAt) ∧
    ∀ barber service, db.Resolves a.barberId a.serviceId barber service →
      ¬ Representable (newStart.wall + service.duration) →
      (MovesAsRebooked env db user a newStart now customer newId createdAt ↔
        ((assertOnOffer env barber service newStart now
            (some a.id)).run db).1 = .ok () ∨
          ((assertOnOffer env barber service newStart now
            (some a.id)).run db).1 = .error .overflowError) := by
  refine ⟨fun hfits => ?_, fun barber service hres hnot =>
    movesAsRebooked_iff_of_not_fits hvalid hrow hactive hmay hres hnot⟩
  rcases hrun : (resolveBarberAndService a.barberId a.serviceId).run db with
    ⟨e | ⟨barber, service⟩, t⟩
  · obtain rfl :=
      (respects_resolveBarberAndService _ _).readOnly.eq_of_run hrun
    exact .of_unresolved hvalid hrow hactive hmay hrun
  obtain ⟨hres, rfl⟩ := run_resolveBarberAndService_eq_ok_iff.mp hrun
  have hend := hfits barber service hres
  rcases hcheck : (assertOnOffer env barber service newStart now
    (some a.id)).run t with ⟨e | _, u⟩
  · obtain rfl := (readOnly_assertOnOffer _ _ _ _ _ _).eq_of_run hcheck
    exact .of_refused hvalid hrow hactive hmay hres hend hcheck
  · obtain rfl := (readOnly_assertOnOffer _ _ _ _ _ _).eq_of_run hcheck
    exact .of_offer hvalid hrow hactive hmay hcustomer hfresh hres hend hcheck

/-! ## Examples -/

/-- The sample booking, moved within its own half hour and the next. -/
theorem moves_as_rebooked_quarter :
    MovesAsRebooked Sample.env Sample.bookedDb Sample.customer
      (Sample.booking 40 (Sample.clock 9 0) (Sample.clock 9 30) .confirmed)
      (Sample.start 9 15) (Sample.clock 6 0) Sample.customer 41
      (Sample.clock 6 0) := by
  refine (moves_as_rebooked _ _ _ _ _ _ _ _ _ Sample.bookedDb_valid rfl rfl
    (Or.inr ⟨rfl, by decide, by decide⟩) (by decide) (by decide)).1 ?_
  intro barber service hres
  obtain rfl := Option.some.inj hres.service_eq
  decide

/-- The late shop with a booking from ten to half past ten at night. -/
def lateBookedDb : Database :=
  { Sample.lateDb with
    appointments := [Sample.booking 40
      (combine dateMax (Sample.timeOfDay 10 0))
      (combine dateMax (Sample.timeOfDay 10 30)) .confirmed] }

/-- Twenty to midnight on 9999-12-31, twelve and a half hours ahead of UTC. -/
def lastMinutes : AwareDatetime :=
  { Sample.lastHalfHour with
    wall := combine dateMax (Sample.timeOfDay 23 40)
    readable := by decide }

/-- At the end of the calendar a move is refused for its start, which is off the
grid, where a booking fails in computing its end. -/
theorem not_moves_as_rebooked :
    lateBookedDb.Valid ∧
      ¬ MovesAsRebooked Sample.lateEnv lateBookedDb Sample.customer
        (Sample.booking 40 (combine dateMax (Sample.timeOfDay 10 0))
          (combine dateMax (Sample.timeOfDay 10 30)) .confirmed)
        lastMinutes (Sample.clock 6 0) Sample.customer 41
        (Sample.clock 6 0) := by
  have hvalid : lateBookedDb.Valid := by decide +kernel
  refine ⟨hvalid, fun h => ?_⟩
  -- the check of the move says that the start is not offered
  have hcheck : ((assertOnOffer Sample.lateEnv Sample.barber Sample.haircut
        lastMinutes (Sample.clock 6 0) (some 40)).run lateBookedDb).1 ≠
          .ok () ∧
      ((assertOnOffer Sample.lateEnv Sample.barber Sample.haircut lastMinutes
        (Sample.clock 6 0) (some 40)).run lateBookedDb).1 ≠
          .error .overflowError := by
    decide +kernel
  have hres : lateBookedDb.Resolves 20 30 Sample.barber Sample.haircut :=
    ⟨rfl, rfl, rfl, rfl, rfl, by decide⟩
  have hmoves := (movesAsRebooked_iff_of_not_fits hvalid rfl rfl
    (Or.inr ⟨rfl, by decide, by decide⟩) hres (by decide)).mp h
  exact hmoves.elim hcheck.1 hcheck.2

end BarberHub
