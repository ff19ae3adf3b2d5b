import BarberHub.Booking.Operations

/-!
# One booking at a time

The calendar of a barber without the `no_double_booking` constraint.  As long
as every operation completes before the next one begins, the checks of the
application keep the active appointments of each barber apart, and the
constraint never refuses anything: it is there for concurrent requests only.
-/

namespace BarberHub

open HalfOpen KeyedTable ReadCommitted Program

/-- The same world, with the constraint dropped. -/
def Env.withoutExclusion (env : Env) : Env :=
  { env with noDoubleBooking := false }

/-- One step of a sequential run: a booking operation, or an edit that
replaces every other table. -/
inductive CalendarEvent where
  | op (operation : BookingOp)
  | edit (tables : Database)

/-- The state an event leaves. -/
def CalendarEvent.apply (env : Env) (db : Database) :
    CalendarEvent → Database
  | .op operation => ((operation.program env).run db).2
  | .edit tables => { tables with appointments := db.appointments }

/-- The state a sequence of events leaves. -/
def calendarRun (env : Env) (db : Database) (events : List CalendarEvent) :
    Database :=
  events.foldl (CalendarEvent.apply env) db

/-! ## The invariant -/

/-- The appointments have distinct keys, are nonempty spans, and no two active
ones occupy the same barber at the same time. -/
structure Database.Calendar (db : Database) : Prop where
  keys : UniqueKeys Appointment.id db.appointments
  ordered : ∀ a ∈ db.appointments, a.startTime < a.endTime
  disjoint : db.NoDoubleBooking

theorem Database.Valid.calendar {db : Database} (h : db.Valid) :
    db.Calendar where
  keys := h.keys.appointments
  ordered a ha := (h.checks.appointments a ha).1
  disjoint := h.noDoubleBooking

/-- The UPDATE does not move its row into another one. -/
def Database.Harmless (db : Database) (id : Uuid) (u : AppointmentUpdate) :
    Prop :=
  ∀ row, db.appointment? id = some row →
    ∀ other ∈ db.appointments, other.id ≠ id → ¬ (u.apply row).Conflicts other

namespace Database.Calendar

variable {db db' : Database}

theorem of_appointments_eq
    (h : db.Calendar) (heq : db'.appointments = db.appointments) :
    db'.Calendar where
  keys := by rw [heq]; exact h.keys
  ordered := by rw [heq]; exact h.ordered
  disjoint := by
    rw [NoDoubleBooking]
    rw [heq]
    exact h.disjoint

theorem pairwise (h : db.Calendar) :
    db.appointments.Pairwise fun a b => ¬ a.Conflicts b := by
  have hids : db.appointments.Pairwise fun a b => a.id ≠ b.id :=
    List.pairwise_map.mp h.keys
  exact hids.imp_of_mem fun ha hb hne => h.disjoint _ ha _ hb hne

/-- A new row that conflicts with none keeps the calendar. -/
theorem insert
    {env : Env} {row : Appointment} (h : db.Calendar)
    (hfree : ∀ other ∈ db.appointments, ¬ row.Conflicts other)
    (hinsert : insertAppointment env row db = .ok db') : db'.Calendar := by
  obtain ⟨rfl, hfresh, -⟩ := insertAppointment_eq_ok hinsert
  have hchecked := checked_of_insertAppointment hinsert
  refine ⟨h.keys.append_singleton hfresh, ?_, ?_⟩
  · intro a ha
    rcases List.mem_append.mp ha with ha | ha
    · exact h.ordered a ha
    · obtain rfl := List.mem_singleton.mp ha
      exact hchecked.1
  · intro a ha b hb hne
    rcases List.mem_append.mp ha with hold | ha
    · rcases List.mem_append.mp hb with hb | hb
      · exact h.disjoint a hold b hb hne
      · obtain rfl := List.mem_singleton.mp hb
        rw [Appointment.conflicts_comm]
        exact hfree a hold
    · obtain rfl := List.mem_singleton.mp ha
      rcases List.mem_append.mp hb with hb | hb
      · exact hfree b hb
      · obtain rfl := List.mem_singleton.mp hb
        exact absurd rfl hne

/-- An UPDATE that moves its row into none keeps the calendar. -/
theorem update
    {env : Env} {id : Uuid} {u : AppointmentUpdate} (h : db.Calendar)
    (hfree : db.Harmless id u)
    (hupdate : updateAppointment env id u db = .ok db') : db'.Calendar := by
  obtain rfl := updateAppointment_eq_ok hupdate
  have hrow : ∀ row ∈ db.appointments, row.id = id →
      db.appointment? id = some row := fun row hmem hid =>
    h.keys.lookup_eq_some_iff.mpr ⟨hmem, hid⟩
  refine ⟨h.keys.updateAt fun _ _ _ => rfl, ?_, ?_⟩
  · intro a ha
    rcases mem_updateAt.mp ha with ⟨ha, -⟩ | ⟨old, hold, hid, rfl⟩
    · exact h.ordered a ha
    · rcases checked_of_updateAppointment hupdate (hrow old hold hid) with
        rfl | hchecked
      · exact h.ordered old hold
      · exact hchecked.1
  · intro a ha b hb hne
    rcases mem_updateAt.mp ha with ⟨ha, hida⟩ | ⟨old, hold, hid, rfl⟩
    · rcases mem_updateAt.mp hb with ⟨hb, -⟩ | ⟨old, hold, hid, rfl⟩
      · exact h.disjoint a ha b hb hne
      · rw [Appointment.conflicts_comm]
        exact hfree old (hrow old hold hid) a ha hida
    · rcases mem_updateAt.mp hb with ⟨hb, hidb⟩ | ⟨old', hold', hid', rfl⟩
      · exact hfree old (hrow old hold hid) b hb hidb
      · exact absurd (hid.trans hid'.symm) hne

end Database.Calendar

/-! ## Why the commits are harmless -/

/-- An appointment moved to a start on offer for it. -/
theorem Database.OnOffer.harmless
    {env : Env} {db : Database} {barber : Barber} {service : Service}
    {start now : ℤ} {a : Appointment} {u : AppointmentUpdate}
    (h : db.OnOffer env barber service start now (some a.id))
    (hordered : ∀ other ∈ db.appointments, other.startTime < other.endTime)
    (hrow : db.appointment? a.id = some a) (hbarber : a.barberId = barber.id)
    (hstart : (u.apply a).startTime = start)
    (hstop : (u.apply a).endTime = start + service.duration) :
    db.Harmless a.id u := by
  intro row hrow' other hother hne
  obtain rfl := Option.some.inj (hrow.symm.trans hrow')
  refine h.not_conflicts hbarber hstart hstop hother (hordered other hother) ?_
  simpa using hne.symm

/-- An active appointment whose times are left alone. -/
theorem harmless_of_settled
    {db : Database} (h : db.Calendar) {a : Appointment}
    {u : AppointmentUpdate} (hrow : db.appointment? a.id = some a)
    (hactive : a.status.blocksSlot = true)
    (hstart : u.startTime = none) (hstop : u.endTime = none) :
    db.Harmless a.id u := by
  rintro row hrow' other hother hne ⟨hbarber, -, hother', hoverlap⟩
  obtain rfl := Option.some.inj (hrow.symm.trans hrow')
  refine h.disjoint a (mem_of_lookup hrow) other hother hne.symm
    ⟨hbarber, hactive, hother', ?_⟩
  simpa [AppointmentUpdate.apply, hstart, hstop] using hoverlap

/-- An appointment given a status that occupies no time. -/
theorem harmless_of_released
    (db : Database) (id : Uuid) {u : AppointmentUpdate}
    {status : AppointmentStatus} (hstatus : u.status = some status)
    (hreleased : status.blocksSlot = false) : db.Harmless id u := by
  rintro row - other - - ⟨-, hactive, -⟩
  simp [AppointmentUpdate.apply, hstatus, hreleased] at hactive

theorem expiry_status {a : Appointment} (h : a.status = .pending) :
    (expiry a).status = some .cancelled := by
  simp [expiry, AppointmentUpdate.ofChange, changedTo, h]

theorem harmless_expiry
    (db : Database) (id : Uuid) {a : Appointment} (h : a.status = .pending) :
    db.Harmless id (expiry a) :=
  harmless_of_released db id (expiry_status h) rfl

/-! ## One commit and whole runs -/

theorem calendar_expired
    {env : Env} {stale : List Appointment} {s s' : Database}
    (hpending : ∀ a ∈ stale, a.status = .pending) (h : s.Calendar)
    (hupdate : stale.foldlM (fun db a =>
      updateAppointment env a.id (expiry a) db) s = .ok s') : s'.Calendar := by
  induction stale generalizing s with
  | nil =>
      obtain rfl := Except.ok.inj hupdate
      exact h
  | cons a stale ih =>
      rw [List.foldlM_cons, Fallible.bind_eq_ok_iff] at hupdate
      obtain ⟨t, ht, hupdate⟩ := hupdate
      have ha := harmless_expiry s a.id (hpending a List.mem_cons_self)
      exact ih (fun b hb => hpending b (List.mem_cons_of_mem _ hb))
        (h.update ha ht) hupdate

/-- Every commit of an operation that runs alone keeps the calendar. -/
theorem BookingCommit.calendar
    {env : Env} {s s' : Database} (h : s.Calendar)
    (hcommit : BookingCommit env s s') : s'.Calendar := by
  cases hcommit with
  | created row barber service now hresolves hstop hoffer hinsert =>
      refine h.insert ?_ hinsert
      intro other hother
      exact hoffer.not_conflicts hresolves.barber_id.symm rfl hstop hother
        (h.ordered other hother) (by simp)
  | moved a u barber service start now hrow _ hresolves hoffer hstart hstop _
      hupdate =>
      exact h.update (hoffer.harmless h.ordered hrow hresolves.barber_id.symm
        hstart hstop) hupdate
  | settled a u hrow hactive hstart hstop hupdate =>
      exact h.update (harmless_of_settled h hrow hactive hstart hstop) hupdate
  | expired stale hstale hupdate =>
      exact calendar_expired (fun a ha => (hstale a ha).2) h hupdate
  | notified task hqueue =>
      subst hqueue
      exact h.of_appointments_eq rfl

theorem CalendarEvent.apply_calendar
    {env : Env} {db : Database} (h : db.Calendar) (event : CalendarEvent) :
    (event.apply env db).Calendar := by
  cases event with
  | op operation =>
      exact bookingOp_keeps (fun _ _ => BookingCommit.calendar) operation h
  | edit tables => exact h.of_appointments_eq rfl

theorem calendarRun_calendar
    {env : Env} {db : Database} (h : db.Calendar)
    (events : List CalendarEvent) : (calendarRun env db events).Calendar :=
  List.foldlRecOn events _ h fun _ h event _ => event.apply_calendar h

/-! ## The constraint has nothing to refuse -/

theorem insertAppointment_withoutExclusion
    {env : Env} {row : Appointment} {db : Database}
    (hfree : ∀ other ∈ db.appointments, ¬ row.Conflicts other) :
    insertAppointment env row db =
      insertAppointment env.withoutExclusion row db := by
  have hnone : ¬ ∃ other ∈ db.appointments, row.Conflicts other := by
    rintro ⟨other, hother, hconflict⟩
    exact hfree other hother hconflict
  simp [insertAppointment, hnone]

theorem updateAppointment_withoutExclusion
    {env : Env} {id : Uuid} {u : AppointmentUpdate} {db : Database}
    (hfree : db.Harmless id u) :
    updateAppointment env id u db =
      updateAppointment env.withoutExclusion id u db := by
  unfold updateAppointment
  cases hrow : db.appointment? id with
  | none => rfl
  | some row =>
      have hnone : ¬ ∃ other ∈ db.appointments,
          other.id ≠ id ∧ (u.apply row).Conflicts other := by
        rintro ⟨other, hother, hne, hconflict⟩
        exact hfree row hrow other hother hne hconflict
      simp [hnone]

theorem run_commitOrSlotTaken_congr
    {w w' : Database → Except Raised Database} {s : Database}
    (h : w s = w' s) :
    (commitOrSlotTaken w).run s = (commitOrSlotTaken w').run s :=
  run_write_congr (by simp only [h])

/-- What follows a transaction does not depend on the constraint. -/
theorem run_followUp_withoutExclusion
    {env : Env} {s : Database} {on off : Request Unit} (event : Event)
    (user : User) (id : Uuid) (h : on.run s = off.run s) :
    (discard (do
      on
      appointmentEvent env event id
      getAppointment user id)).run s =
    (discard (do
      off
      appointmentEvent env.withoutExclusion event id
      getAppointment user id)).run s := by
  unfold discard
  rw [run_bind, run_bind, run_bind, run_bind, h]
  rfl

section

variable {env : Env} {s : Database}

theorem run_createTransaction_withoutExclusion
    (hs : s.Calendar) (customer : User) (payload : AppointmentCreate) (now : ℤ)
    (id : Uuid) (createdAt : ℤ) :
    (createTransaction env customer payload now id createdAt).run s =
      (createTransaction env.withoutExclusion customer payload now id
        createdAt).run s := by
  rw [createTransaction]
  apply (respects_resolveBarberAndService _ _).readOnly.run_bind_congr
  rintro ⟨barber, service⟩ h
  have hres := (run_resolveBarberAndService_eq_ok_iff.mp h).1
  apply (readOnly_query _).run_bind_congr
  intro shop _
  apply (readOnly_ofExcept _).run_bind_congr
  intro stop h
  have hstop := (AwareDatetime.add_eq_ok (run_ofExcept_eq_ok_iff.mp h).1).2
  apply (readOnly_assertOnOffer _ _ _ _ _ _).run_bind_congr
  intro _ h
  have hoffer := (onOffer_of_run hres.barber_self hres.service_self h).1
  apply (readOnly_ofExcept _).run_bind_congr
  intro startTime h
  obtain rfl := bindParam_eq_ok (run_ofExcept_eq_ok_iff.mp h).1
  apply (readOnly_ofExcept _).run_bind_congr
  intro endTime h
  obtain rfl := bindParam_eq_ok (run_ofExcept_eq_ok_iff.mp h).1
  refine run_commitOrSlotTaken_congr (insertAppointment_withoutExclusion ?_)
  intro other hother
  exact hoffer.not_conflicts rfl rfl hstop hother (hs.ordered other hother)
    (by simp)

/-- What follows the loading of a row knows the row. -/
theorem run_loadForAction_bind_congr
    {user : User} {id : Uuid} {α : Type}
    {f g : LoadedAppointment × Bool → Request α}
    (h : ∀ loaded isStaff, s.appointment? id = some loaded.appointment →
      (f (loaded, isStaff)).run s = (g (loaded, isStaff)).run s) :
    (loadForAction user id >>= f).run s = (loadForAction user id >>= g).run s := by
  apply (readOnly_loadForAction user id).run_bind_congr
  rintro ⟨loaded, isStaff⟩ hrun
  exact h loaded isStaff (appointment?_of_run_loadForAction hrun).2

theorem run_rescheduleTransaction_withoutExclusion
    (hs : s.Calendar) (user : User) (id : Uuid) (newStart : AwareDatetime)
    (now : ℤ) :
    (rescheduleTransaction env user id newStart now).run s =
      (rescheduleTransaction env.withoutExclusion user id newStart
        now).run s := by
  rw [rescheduleTransaction]
  apply run_loadForAction_bind_congr
  intro loaded isStaff hrow
  obtain rfl := key_of_lookup hrow
  apply (readOnly_requireStatus _ _ _).run_bind_congr
  intro _ _
  apply (readOnly_assertWithinCutoff env _ now isStaff).run_bind_congr
  intro _ _
  apply (respects_resolveBarberAndService _ _).readOnly.run_bind_congr
  rintro ⟨barber, service⟩ h
  have hres := (run_resolveBarberAndService_eq_ok_iff.mp h).1
  apply (readOnly_assertOnOffer _ _ _ _ _ _).run_bind_congr
  intro _ h
  have hoffer := (onOffer_of_run hres.barber_self hres.service_self h).1
  apply (readOnly_ofExcept _).run_bind_congr
  intro newEnd h
  have hend := (AwareDatetime.add_eq_ok (run_ofExcept_eq_ok_iff.mp h).1).2
  apply (readOnly_ofExcept _).run_bind_congr
  intro startTime h
  obtain rfl := bindParam_eq_ok (run_ofExcept_eq_ok_iff.mp h).1
  apply (readOnly_ofExcept _).run_bind_congr
  intro endTime h
  obtain rfl := bindParam_eq_ok (run_ofExcept_eq_ok_iff.mp h).1
  refine run_commitOrSlotTaken_congr (updateAppointment_withoutExclusion ?_)
  exact hoffer.harmless hs.ordered hrow hres.barber_id.symm
    (changedTo_getD loaded.appointment.startTime newStart.instant)
    ((changedTo_getD loaded.appointment.endTime _).trans hend)

theorem run_cancelTransaction_withoutExclusion
    (hs : s.Calendar) (user : User) (id : Uuid) (reason : Option String)
    (now : ℤ) :
    (cancelTransaction env user id reason now).run s =
      (cancelTransaction env.withoutExclusion user id reason now).run s := by
  rw [cancelTransaction]
  apply run_loadForAction_bind_congr
  intro loaded isStaff hrow
  obtain rfl := key_of_lookup hrow
  apply (readOnly_requireStatus _ _ _).run_bind_congr
  intro _ h
  have hactive := (allowed_of_run_requireStatus h).2
  apply (readOnly_assertWithinCutoff env _ now isStaff).run_bind_congr
  intro _ _
  refine run_write_congr (updateAppointment_withoutExclusion ?_)
  exact harmless_of_settled hs hrow hactive (if_pos rfl) (if_pos rfl)

theorem run_confirmTransaction_withoutExclusion
    (hs : s.Calendar) (user : User) (id : Uuid) :
    (confirmTransaction env user id).run s =
      (confirmTransaction env.withoutExclusion user id).run s := by
  rw [confirmTransaction]
  apply run_loadForAction_bind_congr
  intro loaded isStaff hrow
  obtain rfl := key_of_lookup hrow
  apply (readOnly_require _ _).run_bind_congr
  intro _ _
  apply (readOnly_requireStatus _ _ _).run_bind_congr
  intro _ h
  have hpending := (allowed_of_run_requireStatus h).2
  have hactive : loaded.appointment.status.blocksSlot = true := by
    rw [of_decide_eq_true hpending]
    rfl
  refine run_write_congr (updateAppointment_withoutExclusion ?_)
  exact harmless_of_settled hs hrow hactive (if_pos rfl) (if_pos rfl)

theorem run_closeOutTransaction_withoutExclusion
    (hs : s.Calendar) (user : User) (id : Uuid) (target : AppointmentStatus)
    (now : ℤ) :
    (closeOutTransaction env user id target now).run s =
      (closeOutTransaction env.withoutExclusion user id target now).run s := by
  rw [closeOutTransaction]
  apply run_loadForAction_bind_congr
  intro loaded isStaff hrow
  obtain rfl := key_of_lookup hrow
  apply (readOnly_require _ _).run_bind_congr
  intro _ _
  apply (readOnly_requireStatus _ _ _).run_bind_congr
  intro _ h
  have hactive := (allowed_of_run_requireStatus h).2
  apply (readOnly_require _ _).run_bind_congr
  intro _ _
  refine run_write_congr (updateAppointment_withoutExclusion ?_)
  exact harmless_of_settled hs hrow hactive (if_pos rfl) (if_pos rfl)

theorem run_closeOut_withoutExclusion
    (hs : s.Calendar) (user : User) (id : Uuid) (target : AppointmentStatus)
    (now : ℤ) :
    (discard (closeOut env user id target now)).run s =
      (discard (closeOut env.withoutExclusion user id target now)).run s := by
  unfold discard closeOut
  rw [run_bind, run_bind, run_bind, run_bind,
    run_closeOutTransaction_withoutExclusion hs user id target now]

/-- The UPDATEs of one expiry run, one after the other. -/
theorem expired_withoutExclusion
    {stale : List Appointment} (hs : s.Calendar)
    (hpending : ∀ a ∈ stale, a.status = .pending) :
    stale.foldlM (fun db a => updateAppointment env a.id (expiry a) db) s =
      stale.foldlM (fun db a =>
        updateAppointment env.withoutExclusion a.id (expiry a) db) s := by
  induction stale generalizing s with
  | nil => rfl
  | cons a stale ih =>
      have ha := harmless_expiry s a.id (hpending a List.mem_cons_self)
      rw [List.foldlM_cons, List.foldlM_cons,
        ← updateAppointment_withoutExclusion ha]
      cases hupdate : updateAppointment env a.id (expiry a) s with
      | error e => rfl
      | ok t =>
          exact ih (hs.update ha hupdate)
            fun b hb => hpending b (List.mem_cons_of_mem _ hb)

theorem run_expired_withoutExclusion
    {stale : List Appointment} (hs : s.Calendar)
    (hpending : ∀ a ∈ stale, a.status = .pending) :
    (write fun db => stale.foldlM (fun db a =>
        updateAppointment env a.id (expiry a) db) db : Request Unit).run s =
      (write fun db => stale.foldlM (fun db a =>
        updateAppointment env.withoutExclusion a.id (expiry a) db) db).run s :=
  run_write_congr (expired_withoutExclusion hs hpending)

theorem run_expireStalePending_withoutExclusion (hs : s.Calendar) (now : ℤ) :
    (expireStalePending env now).run s =
      (expireStalePending env.withoutExclusion now).run s := by
  rw [expireStalePending]
  apply (readOnly_ofExcept _).run_bind_congr
  intro cutoff _
  rw [query_bind, query_bind, run_read, run_read, run_bind, run_bind]
  have hpending : ∀ a ∈ s.stalePending cutoff, a.status = .pending := by
    intro a ha
    exact (Database.mem_stalePending.mp ha).2.1
  rw [run_expired_withoutExclusion hs hpending]

/-- A booking operation does the same with and without the constraint. -/
theorem bookingOp_withoutExclusion (hs : s.Calendar) (op : BookingOp) :
    (op.program env).run s = (op.program env.withoutExclusion).run s := by
  cases op with
  | create customer payload now id createdAt =>
      exact run_followUp_withoutExclusion .created customer id
        (run_createTransaction_withoutExclusion hs customer payload now id
          createdAt)
  | reschedule user id newStart now =>
      exact run_followUp_withoutExclusion .rescheduled user id
        (run_rescheduleTransaction_withoutExclusion hs user id newStart now)
  | cancel user id reason now =>
      exact run_followUp_withoutExclusion .cancelled user id
        (run_cancelTransaction_withoutExclusion hs user id reason now)
  | confirm user id =>
      exact run_followUp_withoutExclusion .created user id
        (run_confirmTransaction_withoutExclusion hs user id)
  | complete user id now =>
      exact run_closeOut_withoutExclusion hs user id .completed now
  | noShow user id now =>
      exact run_closeOut_withoutExclusion hs user id .noShow now
  | expire now =>
      change (discard (expireStalePending env now)).run s =
        (discard (expireStalePending env.withoutExclusion now)).run s
      unfold discard
      rw [run_bind, run_bind, run_expireStalePending_withoutExclusion hs now]

end

/-- Run one at a time from an empty table, with edits of everything else in
between, the operations keep the active appointments of each barber apart, and
the constraint changes nothing of what the next operation does. -/
theorem sequential_bookings_disjoint
    (env : Env) (tables : Database) (events : List CalendarEvent) :
    (calendarRun env { tables with appointments := [] }
        events).appointments.Pairwise (fun a b => ¬ a.Conflicts b) ∧
      ∀ op : BookingOp,
        (op.program env).run
            (calendarRun env { tables with appointments := [] } events) =
          (op.program env.withoutExclusion).run
            (calendarRun env { tables with appointments := [] } events) := by
  have hempty : ({ tables with appointments := [] } : Database).Calendar :=
    ⟨List.nodup_nil, by simp, by simp [Database.NoDoubleBooking]⟩
  have hrun : (calendarRun env _ events).Calendar :=
    calendarRun_calendar hempty events
  exact ⟨hrun.pairwise, bookingOp_withoutExclusion hrun⟩

end BarberHub
