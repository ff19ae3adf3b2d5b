import BarberHub.System.Sequential

/-!
# The mails tell the truth

A task queued for an appointment becomes a mail that says what has happened to
it: that it is confirmed, that it was cancelled, or that it has moved.  The
tasks are queued by hand next to the writes.  In a run of works one after
another they match the histories of the appointments one for one, as long as
nobody books at a shop that vets its bookings, no booking expires, and nobody
moves an appointment to the time it already has.
-/

namespace BarberHub

open KeyedTable ReadCommitted Program Runs

/-! ## Histories and tasks -/

/-- The appointment has the status, and had it not before. -/
def Enters (status : AppointmentStatus) (before after : Option Appointment) :
    Bool :=
  after.any (·.status = status) && !before.any (·.status = status)

/-- The appointment starts at another time. -/
def Moves (before after : Option Appointment) : Bool :=
  before.any fun a => after.any fun a' => a.startTime ≠ a'.startTime

/-- The tasks that the change of an appointment calls for. -/
def tasksFor (id : Uuid) (before after : Option Appointment) :
    List (Event × Uuid) :=
  (if Enters .confirmed before after then [(.created, id)] else []) ++
    (if Enters .cancelled before after then [(.cancelled, id)] else []) ++
    if Moves before after then [(.rescheduled, id)] else []

/-- The tasks in the queue for an appointment. -/
def Database.tasks (db : Database) (id : Uuid) : List (Event × Uuid) :=
  db.queue.filter fun task => task.2 = id

/-- In every step of the run, the tasks queued for an appointment are those its
change calls for. -/
def MailsTrue (env : Env) (db : Database) (works : List Work) : Prop :=
  ∀ first work, first ++ [work] <+: works → ∀ id,
    (workRun env db (first ++ [work])).tasks id =
      (workRun env db first).tasks id ++
        tasksFor id ((workRun env db first).appointment? id)
          ((workRun env db (first ++ [work])).appointment? id)

/-- The operation does not book at a shop that vets its bookings, finds no
booking to expire, and moves no appointment to the time it has. -/
def BookingOp.Announced (s : Database) : BookingOp → Prop
  | .create _ payload _ _ _ =>
      ∀ barber shop, s.barber? payload.barberId = some barber →
        s.barbershop? barber.shopId = some shop →
          shop.requiresConfirmation = false
  | .reschedule _ id newStart _ =>
      ∀ a, s.appointment? id = some a → a.startTime ≠ newStart.instant
  | .expire now => s.stalePending (now - minutes 30) = []
  | _ => True

/-- If the work is a booking that is not refused, it is announced. -/
def Work.Announced (env : Env) (s : Database) (work : Work) : Prop :=
  ∀ op, work = .booking op → op.Accepted env s → op.Announced s

/-! ## One step -/

theorem tasksFor_self (id : Uuid) (row : Option Appointment) :
    tasksFor id row row = [] := by
  cases row with
  | none => rfl
  | some a => simp [tasksFor, Enters, Moves]

/-- A task is for one appointment. -/
theorem filter_task (event : Event) (id id' : Uuid) :
    [(event, id')].filter (fun task : Event × Uuid => task.2 = id) =
      if id' = id then [(event, id)] else [] := by
  by_cases hid : id' = id
  · simp [hid]
  · simp [hid]

section

variable {env : Env} {s s' : Database} {op : BookingOp}

/-- The tasks of one appointment and the tasks queued for it: what a request
that touches only one row has to show about that row. -/
theorem tasks_of_row
    {id id' : Uuid} {event : Event}
    (hother : id ≠ id' → s'.appointment? id = s.appointment? id)
    (hrow : tasksFor id' (s.appointment? id') (s'.appointment? id') =
      [(event, id')]) :
    [(event, id')].filter (fun task : Event × Uuid => task.2 = id) =
      tasksFor id (s.appointment? id) (s'.appointment? id) := by
  rw [filter_task]
  by_cases hid : id' = id
  · subst hid
    rw [if_pos rfl, hrow]
  · rw [if_neg hid, hother (Ne.symm hid), tasksFor_self]

/-- What a request does to the row it has turned is what its task says. -/
theorem tasksFor_turned
    {a a' : Appointment} (hturns : op.Turns s a a')
    (hannounced : op.Announced s)
    (hrow : s.appointment? a.id = some a) :
    tasksFor a.id (some a) (some a') = op.task?.toList := by
  cases hturns with
  | moved user newStart now stop hinvolved hactive =>
      have hmoves := hannounced a hrow
      simp [tasksFor, Enters, Moves, hmoves, BookingOp.task?]
  | cancelled user reason now hactive =>
      have hopen : a.status ≠ .cancelled :=
        AppointmentStatus.ne_of_blocksSlot hactive rfl
      simp [tasksFor, Enters, Moves, hopen, BookingOp.task?]
  | confirmed user hstaff hpending =>
      simp [tasksFor, Enters, Moves, hpending, BookingOp.task?]
  | completed user now hactive hstarted =>
      simp [tasksFor, Enters, Moves, BookingOp.task?]
  | missed user now hactive hstarted =>
      simp [tasksFor, Enters, Moves, BookingOp.task?]

/-- The task of an operation is for the row it turns. -/
theorem BookingOp.Turns.task_id
    {a a' : Appointment} (h : op.Turns s a a') :
    ∀ task ∈ op.task?, task.2 = a.id := by
  cases h <;> simp [BookingOp.task?]

/-- The task of an announced operation is what its commit has done. -/
theorem BookingDone.tasks
    (h : BookingDone env s s' op) (hannounced : op.Announced s)
    (id : Uuid) :
    op.task?.toList.filter (fun task : Event × Uuid => task.2 = id) =
      tasksFor id (s.appointment? id) (s'.appointment? id) := by
  cases h with
  | created customer payload now newId createdAt barber shop service hresolves
      hshop hinsert =>
      have hopen : shop.requiresConfirmation = false :=
        hannounced barber shop hresolves.barber_eq hshop
      obtain ⟨hnone, hsome⟩ := appointment?_created hinsert
      apply tasks_of_row
      · exact fun hid => appointment?_created_of_ne hinsert hid
      · dsimp only [newAppointment] at hnone hsome
        rw [hnone, hsome]
        simp [tasksFor, Enters, Moves, hopen]
  | turned a a' hrow hturns hupdate =>
      have hcalls := tasksFor_turned hturns hannounced hrow
      by_cases hid : id = a.id
      · subst hid
        rw [hrow, appointment?_turned hrow hturns hupdate, hcalls,
          List.filter_eq_self]
        intro task htask
        simpa using hturns.task_id task (Option.mem_toList.mp htask)
      · rw [appointment?_turned_of_ne hupdate hid, tasksFor_self,
          List.filter_eq_nil_iff]
        intro task htask
        have hfor := hturns.task_id task (Option.mem_toList.mp htask)
        simpa [hfor] using Ne.symm hid
  | expired now hupdate =>
      have hnone : s.stalePending (now - minutes 30) = [] := hannounced
      rw [hnone] at hupdate
      obtain rfl := Except.ok.inj hupdate
      rw [tasksFor_self]
      rfl

/-- In an announced step the tasks queued for an appointment are those its
change calls for. -/
theorem workStep_tasks
    (henabled : env.settings.notificationsEnabled = true)
    (hbroker : env.brokerUp = true) {work : Work}
    (hannounced : work.Announced env s) (id : Uuid) :
    (workStep env s work).tasks id = s.tasks id ++
      tasksFor id (s.appointment? id) ((workStep env s work).appointment? id) := by
  rcases work.booking_or_beside with ⟨op, rfl⟩ | hwork
  · rcases bookingOp_alone env op s with
      ⟨-, hrefused⟩ | ⟨haccepted, s', hdone, hstate⟩
    · change workStep env s (.booking op) = s at hrefused
      rw [hrefused, tasksFor_self, List.append_nil]
    · change workStep env s (.booking op) = s'.told env op.task? at hstate
      have hqueue : s'.queue = s.queue := by rw [hdone.frame]
      rw [hstate, Database.told_appointment?,
        ← hdone.tasks (hannounced op rfl haccepted) id, Database.tasks,
        Database.tasks, Database.told_queue henabled hbroker, hqueue,
        List.filter_append]
  · have hqueue : (workStep env s work).queue = s.queue :=
      (workStep_beside_bookings hwork).2
    rw [workStep_appointment? hwork, tasksFor_self, List.append_nil,
      Database.tasks, hqueue]
    rfl

end

/-! ## Whole runs -/

/-- With notifications enabled and the broker up, in every run whose steps are
all announced the tasks queued for each appointment match its history one for
one. -/
theorem mailsTrue_of_announced
    (env : Env) (db : Database) (works : List Work)
    (henabled : env.settings.notificationsEnabled = true)
    (hbroker : env.brokerUp = true)
    (hannounced : Along (workStep env) (Work.Announced env) db works) :
    MailsTrue env db works := by
  intro first work hfirst id
  obtain ⟨-, hwork, -⟩ := along_append_iff.mp (hannounced.of_prefix hfirst)
  rw [workRun_concat]
  exact workStep_tasks henabled hbroker hwork id

/-- A booking that its customer moves. -/
theorem mailsTrue_booked_and_moved :
    MailsTrue Sample.env Sample.db
      [firstBooking, .booking (.reschedule Sample.customer 40 (Sample.start 12 0)
        (Sample.clock 0 0))] := by
  refine mailsTrue_of_announced Sample.env Sample.db _ rfl rfl ⟨?_, ?_, trivial⟩
  · intro op hop _
    obtain rfl := Work.booking.inj hop
    intro barber shop hbarber hshop
    obtain rfl := Option.some.inj hbarber
    obtain rfl := Option.some.inj hshop
    rfl
  · intro op hop _
    obtain rfl := Work.booking.inj hop
    intro a ha
    rw [workStep_firstBooking] at ha
    obtain rfl := Option.some.inj ha
    decide

/-- At a shop that vets its bookings, the customer is told at once that the
booking is confirmed. -/
theorem not_mailsTrue_vetted :
    Sample.env.settings.notificationsEnabled = true ∧ Sample.env.brokerUp = true ∧
      ¬ MailsTrue Sample.env vettedDb [firstBooking] := by
  refine ⟨rfl, rfl, ?_⟩
  intro h
  have htasks := h [] firstBooking (List.prefix_refl _) 40
  revert htasks
  decide +kernel

end BarberHub
