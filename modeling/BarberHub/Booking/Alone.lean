import BarberHub.Booking.Authority

/-!
# A booking operation, run alone

Run with nobody else, an operation either is refused and changes nothing, or it
makes one commit and hands at most one task to the broker.  `BookingDone` says
what that commit does to the appointments: a row is added, a row is turned into
another, or the stale rows are cancelled.
-/

namespace BarberHub

open KeyedTable ReadCommitted Program

namespace BookingOp

/-- The operation answers: it has made its commit. -/
def Accepted (env : Env) (op : BookingOp) (s : Database) : Prop :=
  ((op.transaction env).run s).1 = .ok ()

instance (env : Env) (op : BookingOp) (s : Database) :
    Decidable (op.Accepted env s) :=
  inferInstanceAs (Decidable (_ = _))

/-- The task an operation hands to the broker after its commit. -/
def task? : BookingOp → Option (Event × Uuid)
  | create _ _ _ id _ => some (.created, id)
  | reschedule _ id _ _ => some (.rescheduled, id)
  | cancel _ id _ _ => some (.cancelled, id)
  | confirm _ id => some (.created, id)
  | complete _ _ _ | noShow _ _ _ | expire _ => none

/-- What an accepted request turns an appointment into. -/
inductive Turns (s : Database) (a : Appointment) : BookingOp → Appointment → Prop
  | moved (user : User) (newStart : AwareDatetime) (now stop : ℤ)
      (hinvolved : a.customerId = user.id ∨ s.StaffFor user a)
      (hactive : a.status.blocksSlot = true) :
      Turns s a (.reschedule user a.id newStart now)
        { a with startTime := newStart.instant, endTime := stop }
  | cancelled (user : User) (reason : Option String) (now : ℤ)
      (hactive : a.status.blocksSlot = true) :
      Turns s a (.cancel user a.id reason now)
        { a with
          status := .cancelled
          cancelledById := some user.id
          cancellationReason := reason }
  | confirmed (user : User) (hstaff : s.StaffFor user a)
      (hpending : a.status = .pending) :
      Turns s a (.confirm user a.id) { a with status := .confirmed }
  | completed (user : User) (now : ℤ)
      (hactive : a.status.blocksSlot = true) (hstarted : a.startTime ≤ now) :
      Turns s a (.complete user a.id now) { a with status := .completed }
  | missed (user : User) (now : ℤ)
      (hactive : a.status.blocksSlot = true) (hstarted : a.startTime ≤ now) :
      Turns s a (.noShow user a.id now) { a with status := .noShow }

end BookingOp

/-- The database once a task has been handed to the broker, if it is there. -/
def Database.told (env : Env) (db : Database) :
    Option (Event × Uuid) → Database
  | some task =>
      if env.settings.notificationsEnabled && env.brokerUp then
        { db with queue := db.queue ++ [task] }
      else db
  | none => db

/-- What an operation that runs alone has done when it has made its commit. -/
inductive BookingDone (env : Env) (s s' : Database) : BookingOp → Prop where
  | created (customer : User) (payload : AppointmentCreate) (now : ℤ)
      (id : Uuid) (createdAt : ℤ) (barber : Barber) (shop : Barbershop)
      (service : Service)
      (hresolves : s.Resolves payload.barberId payload.serviceId barber service)
      (hshop : s.barbershop? barber.shopId = some shop)
      (hinsert : insertAppointment env (newAppointment customer barber (some shop)
        service payload.startTime.instant
        (payload.startTime.instant + service.duration) id createdAt) s =
          .ok s') :
      BookingDone env s s' (.create customer payload now id createdAt)
  | turned {op : BookingOp} (a a' : Appointment)
      (hrow : s.appointment? a.id = some a) (hturns : op.Turns s a a')
      (hupdate : updateAppointment env a.id (.ofChange a a') s = .ok s') :
      BookingDone env s s' op
  | expired (now : ℤ)
      (hupdate : (s.stalePending (now - minutes 30)).foldlM (fun db a =>
        updateAppointment env a.id (expiry a) db) s = .ok s') :
      BookingDone env s s' (.expire now)

section

variable {env : Env} {op : BookingOp} {s s' : Database}

theorem BookingOp.Turns.continues {a a' : Appointment} (h : op.Turns s a a') :
    a.Continues a' := by
  cases h <;> exact ⟨rfl, rfl, rfl, rfl, rfl, rfl⟩

/-- The row a request has turned. -/
theorem appointment?_turned
    {a a' : Appointment} (hrow : s.appointment? a.id = some a)
    (hturns : op.Turns s a a')
    (hupdate : updateAppointment env a.id (.ofChange a a') s = .ok s') :
    s'.appointment? a.id = some a' := by
  rw [updateAppointment_eq_ok hupdate, appointment?_updateAt, hrow,
    Option.map_some, AppointmentUpdate.apply_ofChange hturns.continues]

/-- The other rows. -/
theorem appointment?_turned_of_ne
    {a a' : Appointment}
    (hupdate : updateAppointment env a.id (.ofChange a a') s = .ok s')
    {id : Uuid} (hid : id ≠ a.id) : s'.appointment? id = s.appointment? id := by
  rw [updateAppointment_eq_ok hupdate, appointment?_updateAt_of_ne _ _ hid]

/-- The row a request has added. -/
theorem appointment?_created
    {row : Appointment} (hinsert : insertAppointment env row s = .ok s') :
    s.appointment? row.id = none ∧ s'.appointment? row.id = some row := by
  obtain ⟨rfl, hfresh, -⟩ := insertAppointment_eq_ok hinsert
  have hnone : lookup Appointment.id s.appointments row.id = none :=
    lookup_eq_none_iff.mpr hfresh
  exact ⟨hnone, lookup_append_singleton hnone⟩

theorem appointment?_created_of_ne
    {row : Appointment} (hinsert : insertAppointment env row s = .ok s')
    {id : Uuid} (hid : id ≠ row.id) : s'.appointment? id = s.appointment? id := by
  obtain ⟨rfl, -, -⟩ := insertAppointment_eq_ok hinsert
  rw [Database.appointment?, Database.appointment?, lookup, lookup,
    List.find?_append]
  have hnone : [row].find? (fun r => decide (r.id = id)) = none := by
    simp [hid.symm]
  rw [hnone, Option.or_none]

/-- The commit of a booking touches no other table. -/
theorem BookingDone.frame (h : BookingDone env s s' op) :
    s' = { s with appointments := s'.appointments } := by
  cases h with
  | created customer payload now id createdAt barber shop service _ _ hinsert =>
      obtain ⟨rfl, -, -⟩ := insertAppointment_eq_ok hinsert
      rfl
  | turned a a' _ _ hupdate =>
      obtain rfl := updateAppointment_eq_ok hupdate
      rfl
  | expired now hupdate => exact expired_frame hupdate

/-! ## The transactions end in their write -/

theorem endsInWrite_closeOutTransaction
    (user : User) (id : Uuid) (target : AppointmentStatus) (now : ℤ) :
    (closeOutTransaction env user id target now).EndsInWrite := by
  rw [closeOutTransaction]
  apply EndsInWrite.after (readOnly_loadForAction user id)
  rintro ⟨loaded, isStaff⟩
  apply EndsInWrite.after (readOnly_require _ _)
  intro _
  apply EndsInWrite.after (readOnly_requireStatus _ _ _)
  intro _
  apply EndsInWrite.after (readOnly_require _ _)
  intro _
  exact endsInWrite_write _

theorem endsInWrite_transaction (env : Env) (op : BookingOp) :
    (op.transaction env).EndsInWrite := by
  cases op with
  | create customer payload now id createdAt =>
      exact endsInWrite_createTransaction env customer payload now id createdAt
  | reschedule user id newStart now =>
      apply EndsInWrite.after (readOnly_loadForAction user id)
      rintro ⟨loaded, isStaff⟩
      apply EndsInWrite.after (readOnly_requireStatus _ _ _)
      intro _
      apply EndsInWrite.after (readOnly_assertWithinCutoff _ _ _ _)
      intro _
      apply EndsInWrite.after (respects_resolveBarberAndService _ _).readOnly
      rintro ⟨barber, service⟩
      apply EndsInWrite.after (readOnly_assertOnOffer _ _ _ _ _ _)
      intro _
      apply EndsInWrite.after (readOnly_ofExcept _)
      intro stop
      apply EndsInWrite.after (readOnly_ofExcept _)
      intro startTime
      apply EndsInWrite.after (readOnly_ofExcept _)
      intro endTime
      exact endsInWrite_write _
  | cancel user id reason now =>
      apply EndsInWrite.after (readOnly_loadForAction user id)
      rintro ⟨loaded, isStaff⟩
      apply EndsInWrite.after (readOnly_requireStatus _ _ _)
      intro _
      apply EndsInWrite.after (readOnly_assertWithinCutoff _ _ _ _)
      intro _
      exact endsInWrite_write _
  | confirm user id =>
      apply EndsInWrite.after (readOnly_loadForAction user id)
      rintro ⟨loaded, isStaff⟩
      apply EndsInWrite.after (readOnly_require _ _)
      intro _
      apply EndsInWrite.after (readOnly_requireStatus _ _ _)
      intro _
      exact endsInWrite_write _
  | complete user id now =>
      exact endsInWrite_closeOutTransaction user id .completed now
  | noShow user id now => exact endsInWrite_closeOutTransaction user id .noShow now
  | expire now =>
      rw [BookingOp.transaction, discard, expireStalePending]
      cases representable (now - minutes 30) with
      | ok cutoff => exact fun _ => rfl
      | error e => exact ⟨e, rfl⟩

/-! ## What is done -/

/-- Every accepted write of a request does one of the things on the list. -/
theorem BookingWrite.done
    {w : Database → Except Raised Database} (hop : ∀ now, op ≠ .expire now)
    (hwrite : BookingWrite env Eq s op w s) (h : w s = .ok s') :
    BookingDone env s s' op := by
  cases hwrite with
  | created customer payload now id createdAt barber service hres hoffer =>
      obtain ⟨shop, hsells, -⟩ := sawOffer_eq hoffer
      rw [hsells.shop_eq] at h
      exact .created customer payload now id createdAt barber shop service hres
        hsells.shop_eq (orSlotTaken_eq_ok_iff.mp h)
  | moved user id newStart now a isStaff barber service t hst htu hrow hentitled
      hactive hintime hres hoffer =>
      subst hst
      obtain rfl := key_of_lookup hrow
      exact .turned a _ hrow
        (.moved user newStart now _ hentitled.involved hactive)
        (orSlotTaken_eq_ok_iff.mp h)
  | cancelled user id reason now a isStaff hsaw hentitled hactive hintime =>
      obtain ⟨-, hrow⟩ := saw_eq_iff.mp hsaw
      obtain rfl := key_of_lookup hrow
      exact .turned a _ hrow (.cancelled user reason now hactive) h
  | confirmed user id a hsaw hentitled hpending =>
      obtain ⟨-, hrow⟩ := saw_eq_iff.mp hsaw
      obtain rfl := key_of_lookup hrow
      exact .turned a _ hrow
        (.confirmed user (hentitled.staffFor rfl) hpending) h
  | closedOut user id target now a hclosed hsaw hentitled hactive hstarted =>
      obtain ⟨-, hrow⟩ := saw_eq_iff.mp hsaw
      obtain rfl := key_of_lookup hrow
      rcases hclosed with ⟨rfl, rfl⟩ | ⟨rfl, rfl⟩
      · exact .turned a _ hrow (.completed user now hactive hstarted) h
      · exact .turned a _ hrow (.missed user now hactive hstarted) h
  | expired now stale t hst htu hstale => exact absurd rfl (hop now)

/-- The transaction is refused, or it has done what the list says. -/
theorem transaction_alone (env : Env) (op : BookingOp) (s : Database) :
    (∃ e, (op.transaction env).run s = (.error e, s)) ∨
      ∃ s', BookingDone env s s' op ∧
        (op.transaction env).run s = (.ok (), s') := by
  by_cases hop : ∃ now, op = .expire now
  · obtain ⟨now, rfl⟩ := hop
    rw [BookingOp.transaction, discard, expireStalePending, representable]
    split
    · rcases run_commit_cases (fun db => (s.stalePending (now - minutes 30)).foldlM
        (fun db a => updateAppointment env a.id (expiry a) db) db)
        (done (.ok ())) s with ⟨e, -, hrun⟩ | ⟨s', hupdate, hrun⟩
      · exact Or.inl ⟨e, hrun⟩
      · exact Or.inr ⟨s', .expired now hupdate, hrun⟩
    · exact Or.inl ⟨.overflowError, rfl⟩
  · have hnot : ∀ now, op ≠ .expire now := fun now heq => hop ⟨now, heq⟩
    rcases (endsInWrite_transaction env op).run_cases
      (atCommits_transaction isRely_eq sameDirectory_of_eq env op s) with
      herror | ⟨w, s', hwrite, hw, hrun⟩
    · exact Or.inl herror
    · exact Or.inr ⟨s', hwrite.done hnot hw, hrun⟩

theorem run_discard_state {α : Type} (p : Request α) (s : Database) :
    ((discard p).run s).2 = (p.run s).2 := by
  rw [discard, run_bind]
  rcases p.run s with ⟨e | a, t⟩ <;> rfl

theorem run_appointmentEvent_told
    (env : Env) (event : Event) (id : Uuid) (s : Database) :
    (appointmentEvent env event id).run s =
      (.ok (), s.told env (some (event, id))) := by
  rw [appointmentEvent, Database.told]
  split <;> rfl

/-- What a request does after its commit. -/
theorem run_followUp_state
    {p : Request Unit} {s s' : Database} (event : Event) (user : User)
    (id : Uuid) (h : p.run s = (.ok (), s')) :
    ((discard (do
      p
      appointmentEvent env event id
      getAppointment user id)).run s).2 = s'.told env (some (event, id)) := by
  rw [run_discard_state, run_bind_of_ok h,
    run_bind_of_ok (run_appointmentEvent_told env event id s')]
  exact (readOnly_getAppointment user id).run_state _

theorem run_closeOut_state
    {user : User} {id : Uuid} {target : AppointmentStatus} {now : ℤ}
    (h : (closeOutTransaction env user id target now).run s = (.ok (), s')) :
    ((discard (closeOut env user id target now)).run s).2 = s' := by
  rw [run_discard_state, closeOut, run_bind_of_ok h]
  exact (readOnly_getAppointment user id).run_state _

/-- What an operation does after its commit. -/
theorem run_program_of_accepted
    (h : (op.transaction env).run s = (.ok (), s')) :
    ((op.program env).run s).2 = s'.told env op.task? := by
  cases op with
  | create customer payload now id createdAt =>
      exact run_followUp_state .created customer id h
  | reschedule user id newStart now =>
      exact run_followUp_state .rescheduled user id h
  | cancel user id reason now => exact run_followUp_state .cancelled user id h
  | confirm user id => exact run_followUp_state .created user id h
  | complete user id now => exact run_closeOut_state h
  | noShow user id now => exact run_closeOut_state h
  | expire now =>
      rw [BookingOp.transaction] at h
      rw [BookingOp.program, h]
      rfl

/-- A refused operation changes nothing. -/
theorem run_program_of_refused {e : Raised}
    (h : (op.transaction env).run s = (.error e, s)) :
    ((op.program env).run s).2 = s := by
  cases op with
  | create customer payload now id createdAt =>
      rw [BookingOp.program, run_discard_state, createAppointment]
      exact congrArg Prod.snd (run_bind_of_error h)
  | reschedule user id newStart now =>
      rw [BookingOp.program, run_discard_state, rescheduleAppointment]
      exact congrArg Prod.snd (run_bind_of_error h)
  | cancel user id reason now =>
      rw [BookingOp.program, run_discard_state, cancelAppointment]
      exact congrArg Prod.snd (run_bind_of_error h)
  | confirm user id =>
      rw [BookingOp.program, run_discard_state, confirmAppointment]
      exact congrArg Prod.snd (run_bind_of_error h)
  | complete user id now =>
      rw [BookingOp.program, run_discard_state, completeAppointment, closeOut]
      exact congrArg Prod.snd (run_bind_of_error h)
  | noShow user id now =>
      rw [BookingOp.program, run_discard_state, markNoShow, closeOut]
      exact congrArg Prod.snd (run_bind_of_error h)
  | expire now => exact congrArg Prod.snd h

/-- Run alone, an operation is refused and changes nothing, or it does what the
list says and hands its task to the broker. -/
theorem bookingOp_alone (env : Env) (op : BookingOp) (s : Database) :
    (¬ op.Accepted env s ∧ ((op.program env).run s).2 = s) ∨
      op.Accepted env s ∧ ∃ s', BookingDone env s s' op ∧
        ((op.program env).run s).2 = s'.told env op.task? := by
  rcases transaction_alone env op s with ⟨e, hrun⟩ | ⟨s', hdone, hrun⟩
  · refine Or.inl ⟨?_, run_program_of_refused hrun⟩
    rw [BookingOp.Accepted, hrun]
    simp
  · refine Or.inr ⟨?_, s', hdone, run_program_of_accepted hrun⟩
    rw [BookingOp.Accepted, hrun]

end

/-! ## After the task has been handed over -/

section

variable {env : Env} {s : Database} {task : Option (Event × Uuid)}

/-- A task is handed over beside the tables. -/
theorem Database.told_eq (env : Env) (s : Database) (task : Option (Event × Uuid)) :
    s.told env task = { s with queue := (s.told env task).queue } := by
  cases task with
  | none => rfl
  | some task =>
      rw [told]
      split <;> rfl

theorem Database.told_queue
    (henabled : env.settings.notificationsEnabled = true)
    (hbroker : env.brokerUp = true) :
    (s.told env task).queue = s.queue ++ task.toList := by
  cases task with
  | none => exact (List.append_nil _).symm
  | some task =>
      rw [told, henabled, hbroker]
      rfl

@[simp] theorem Database.told_appointment? (id : Uuid) :
    (s.told env task).appointment? id = s.appointment? id := by
  rw [told_eq]
  rfl

end

end BarberHub
