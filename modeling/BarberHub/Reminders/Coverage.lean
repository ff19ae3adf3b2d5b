import BarberHub.Booking.Authority
import BarberHub.Reminders.Once
import BarberHub.Support.Spacing

/-!
# No active appointment slips through the sweep

Bookings and sweeps executed one after another, with the sweeps at most
`REMINDER_WINDOW` apart: an appointment that stays active at one start while the
window of a kind passes over it is reminded by a sweep of that time, unless a
reminder of the kind has been queued for it before.  A reminder that was queued
for the start it had before it was moved counts.
-/

namespace BarberHub

open KeyedTable LockedTransactions Transaction Spacing

/-! ## What a sweep executed alone does -/

namespace Database

variable {db : Database} {key : ReminderKey} {keys : List ReminderKey}

theorem accepts_iff (happointment : (db.appointment? key.1).isSome) :
    db.AcceptsReminder key ↔ ¬ db.Reminded key := by
  refine ⟨not_reminded_of_accepts, fun hnew => ⟨fun r hr heq => ?_, happointment⟩⟩
  exact hnew ⟨r, hr, heq⟩

theorem isSome_appointment? {a : Appointment} (ha : a ∈ db.appointments) :
    (db.appointment? a.id).isSome := by
  rw [Option.isSome_iff_ne_none]
  intro hnone
  exact lookup_eq_none_iff.mp hnone a ha rfl

end Database

section

variable {env : Env} {related : Related} {kind : ReminderKind}

/-- The mails of a loop over `due` that starts from the view `v`: each is for an
appointment that is due, and each of these has one unless it was reminded
before. -/
structure Reminders (kind : ReminderKind) (due : List Appointment)
    (v : Database) (mails : List ReminderMail) : Prop where
  origin : ∀ mail ∈ mails, ∃ a ∈ due, mail.key = (a.id, kind) ∧
    mail.startTime = a.startTime
  complete : ∀ a ∈ due, v.Reminded (a.id, kind) ∨
    ∃ mail ∈ mails, mail.key = (a.id, kind)

/-- The loop, executed alone to its end. -/
theorem runFrom_remindAll
    {due : List Appointment} {queued n : ℕ} {s v : Database}
    (hdue : ∀ a ∈ due, (v.appointment? a.id).isSome)
    (h : ((remindAll env related kind due queued).runFrom s v).answer = .ok n) :
    ∃ mails, Reminders kind due v mails ∧
      (remindAll env related kind due queued).runFrom s v =
        ⟨.ok n, s, Database.addReminders (mails.map ReminderMail.key) v,
          mails⟩ := by
  induction due generalizing queued v with
  | nil =>
      obtain rfl := Except.ok.inj h
      refine ⟨[], ⟨by simp, by simp⟩, ?_⟩
      rw [List.map_nil, Database.addReminders_nil]
      rfl
  | cons a due ih =>
      have hhead := hdue a List.mem_cons_self
      have htail : ∀ b ∈ due, (v.appointment? b.id).isSome :=
        fun b hb => hdue b (List.mem_cons_of_mem _ hb)
      rw [remindAll, claimReminder, insertRow_bind, runFrom_acquire] at h ⊢
      by_cases hreminded : v.Reminded (a.id, kind)
      · have hnot : ¬ v.AcceptsReminder (a.id, kind) :=
          fun haccepts => Database.not_reminded_of_accepts haccepts hreminded
        simp only [hnot, not_false_eq_true, decide_true, Bool.not_true,
          Bool.false_eq_true, if_false] at h ⊢
        obtain ⟨mails, hmails, hrun⟩ := ih htail h
        refine ⟨mails, ⟨?_, ?_⟩, hrun⟩
        · intro mail hmail
          obtain ⟨b, hb, hmail⟩ := hmails.origin mail hmail
          exact ⟨b, List.mem_cons_of_mem _ hb, hmail⟩
        · intro b hb
          rcases List.mem_cons.mp hb with rfl | hb
          · exact Or.inl hreminded
          · exact hmails.complete b hb
      · have haccepts := (Database.accepts_iff hhead).mpr hreminded
        simp only [haccepts, not_true_eq_false, decide_false, Bool.not_false,
          if_true, runFrom_write] at h ⊢
        cases hmail : reminderMail env related kind a with
        | error e =>
            rw [hmail] at h
            simp at h
        | ok mail =>
            rw [hmail] at h
            have hkey := reminderMail_eq_ok hmail
            have hstill : ∀ b ∈ due, ((Database.addReminder (a.id, kind)
                v).appointment? b.id).isSome := htail
            obtain ⟨mails, hmails, hrun⟩ := ih hstill h
            refine ⟨mail :: mails, ⟨?_, ?_⟩, ?_⟩
            · intro m hm
              rcases List.mem_cons.mp hm with rfl | hm
              · exact ⟨a, List.mem_cons_self, hkey⟩
              · obtain ⟨b, hb, hmail⟩ := hmails.origin m hm
                exact ⟨b, List.mem_cons_of_mem _ hb, hmail⟩
            · intro b hb
              rcases List.mem_cons.mp hb with rfl | hb
              · exact Or.inr ⟨mail, List.mem_cons_self, hkey.1⟩
              · rcases hmails.complete b hb with hold | ⟨m, hm, hmkey⟩
                · rcases Database.reminded_addReminder_iff.mp hold with h | h
                  · exact Or.inl h
                  · exact Or.inr ⟨mail, List.mem_cons_self, hkey.1.trans h.symm⟩
                · exact Or.inr ⟨m, List.mem_cons_of_mem _ hm, hmkey⟩
            · simp only [done_ok_bind, emit_bind, runFrom_send, hrun,
                Database.addReminders_addReminder, List.map_cons, hkey.1]

/-- What a completed execution of the sweep over one horizon does. -/
theorem runFrom_remindKind
    {moment : ℤ} {queued n : ℕ} {s v : Database}
    (h : ((remindKind env moment kind queued).runFrom s v).answer = .ok n) :
    ∃ mails,
      Reminders kind (v.dueAppointments (moment + kind.horizon)) v mails ∧
      (remindKind env moment kind queued).runFrom s v =
        ⟨.ok n, s, Database.addReminders (mails.map ReminderMail.key) v,
          mails⟩ := by
  rw [remindKind] at h ⊢
  by_cases htarget : Representable (moment + kind.horizon)
  · rw [representable_of htarget, done_ok_bind] at h ⊢
    by_cases hstop : Representable (moment + kind.horizon + reminderWindow)
    · rw [representable_of hstop, done_ok_bind] at h ⊢
      refine runFrom_remindAll ?_ h
      intro a ha
      exact Database.isSome_appointment? (List.mem_of_mem_filter ha)
    · rw [representable, if_neg hstop] at h
      simp at h
  · rw [representable, if_neg htarget] at h
    simp at h

/-- What a completed sweep does: it queues mails for appointments that are due,
and every one that is due has its mail unless it was reminded before. -/
structure Swept (moment : ℤ) (db : Database) (mails : List ReminderMail) :
    Prop where
  origin : ∀ mail ∈ mails, ∃ kind,
    ∃ a ∈ db.dueAppointments (moment + kind.horizon),
      mail.key = (a.id, kind) ∧ mail.startTime = a.startTime
  complete : ∀ kind, ∀ a ∈ db.dueAppointments (moment + kind.horizon),
    db.Reminded (a.id, kind) ∨ ∃ mail ∈ mails, mail.key = (a.id, kind)

theorem run_sendAppointmentReminders
    {moment : ℤ} {n : ℕ} {db : Database}
    (h : ((sendAppointmentReminders env moment).run db).answer = .ok n) :
    ∃ mails, Swept moment db mails ∧
      ((sendAppointmentReminders env moment).run db).committed =
        Database.addReminders (mails.map ReminderMail.key) db ∧
      ((sendAppointmentReminders env moment).run db).sent = mails := by
  rw [run, sendAppointmentReminders] at h ⊢
  obtain ⟨first, hanswer⟩ := exists_answer_of_bind h
  obtain ⟨day, hday, hrun⟩ := runFrom_remindKind hanswer
  rw [runFrom_bind_of_ok hrun] at h ⊢
  obtain ⟨second, hanswer⟩ := exists_answer_of_bind h
  obtain ⟨hours, hhours, hrun⟩ := runFrom_remindKind hanswer
  rw [runFrom_bind_of_ok hrun]
  refine ⟨day ++ hours, ⟨?_, ?_⟩, ?_, ?_⟩
  · intro mail hmail
    rcases List.mem_append.mp hmail with hmail | hmail
    · exact ⟨_, hday.origin mail hmail⟩
    · exact ⟨_, hhours.origin mail hmail⟩
  · intro kind a ha
    cases kind with
    | dayBefore =>
        apply (hday.complete a ha).imp_right
        rintro ⟨mail, hmail, hkey⟩
        exact ⟨mail, List.mem_append_left _ hmail, hkey⟩
    | hoursBefore =>
        rcases hhours.complete a ha with hold | ⟨mail, hmail, hkey⟩
        · rcases Database.reminded_addReminders_iff.mp hold with hold | hmem
          · exact Or.inl hold
          · -- the claims of the first loop are of the other kind
            obtain ⟨mail, hmail, hkey⟩ := List.mem_map.mp hmem
            obtain ⟨b, -, hb, -⟩ := hday.origin mail hmail
            rw [hb] at hkey
            simp at hkey
        · exact Or.inr ⟨mail, List.mem_append_right _ hmail, hkey⟩
  · change Database.addReminders _ (Database.addReminders _ db) = _
    rw [List.map_append, Database.addReminders_append]
  · change day ++ (hours ++ []) = day ++ hours
    rw [List.append_nil]

end

/-! ## Runs of bookings and sweeps -/

/-- An operation on bookings, or a sweep. -/
inductive SweepOp where
  | booking (op : BookingOp)
  | sweep
  deriving DecidableEq, Repr

/-- What is executed at a moment. -/
structure SweepEvent where
  moment : ℤ
  op : SweepOp
  deriving DecidableEq, Repr

def SweepEvent.sweeps (e : SweepEvent) : Bool :=
  e.op = .sweep

/-- The database, and the reminders queued so far. -/
structure SweepState where
  db : Database
  mails : List ReminderMail

/-- One event that nothing runs beside. -/
def SweepEvent.apply (env : Env) (s : SweepState) (e : SweepEvent) : SweepState :=
  match e.op with
  | .booking op => { s with db := ((op.program env).run s.db).2 }
  | .sweep =>
      let o := (sendAppointmentReminders env e.moment).run s.db
      ⟨o.committed, s.mails ++ o.sent⟩

/-- The events are executed one after another. -/
def sweepRun (env : Env) (s : SweepState) (events : List SweepEvent) : SweepState :=
  events.foldl (SweepEvent.apply env) s

/-- The event is no sweep, or a sweep that runs to its end. -/
def SweepEvent.Completes (env : Env) (s : SweepState) (e : SweepEvent) : Prop :=
  e.op = .sweep →
    ((sendAppointmentReminders env e.moment).run s.db).answer.isOk = true

instance (env : Env) (s : SweepState) (e : SweepEvent) :
    Decidable (e.Completes env s) :=
  inferInstanceAs (Decidable (_ → _))

/-- Every claim stands for a mail that was queued. -/
def SweepState.Logged (s : SweepState) : Prop :=
  ∀ key, s.db.Reminded key → ∃ mail ∈ s.mails, mail.key = key

section

variable {env : Env} {s : SweepState}

theorem SweepEvent.Completes.answer
    {e : SweepEvent} (h : e.Completes env s) (hsweep : e.op = .sweep) :
    ∃ n, ((sendAppointmentReminders env e.moment).run s.db).answer = .ok n := by
  have hok := h hsweep
  cases hanswer : ((sendAppointmentReminders env e.moment).run s.db).answer with
  | ok n => exact ⟨n, rfl⟩
  | error error =>
      rw [hanswer] at hok
      exact nomatch hok

/-- A completed sweep. -/
theorem apply_sweep
    {e : SweepEvent} (hsweep : e.op = .sweep) (h : e.Completes env s) :
    ∃ mails, Swept e.moment s.db mails ∧
      e.apply env s = ⟨Database.addReminders (mails.map ReminderMail.key) s.db,
        s.mails ++ mails⟩ := by
  obtain ⟨n, hanswer⟩ := h.answer hsweep
  obtain ⟨mails, hswept, hcommitted, hsent⟩ :=
    run_sendAppointmentReminders hanswer
  refine ⟨mails, hswept, ?_⟩
  rw [SweepEvent.apply, hsweep]
  dsimp only
  rw [hcommitted, hsent]

/-- Operations on bookings do not touch the claims. -/
theorem reminded_booking_iff
    (op : BookingOp) (db : Database) (key : ReminderKey) :
    ((op.program env).run db).2.Reminded key ↔ db.Reminded key := by
  have hkept : ((op.program env).run db).2.appointmentReminders =
      db.appointmentReminders :=
    @bookingOp_keeps env
      (fun t => t.appointmentReminders = db.appointmentReminders)
      (fun t t' ht hcommit => by rw [hcommit.frame]; exact ht) op db rfl
  rw [Database.Reminded, Database.Reminded, hkept]

theorem SweepState.Logged.apply
    (h : s.Logged) {e : SweepEvent} (hcompletes : e.Completes env s) :
    (e.apply env s).Logged := by
  intro key hkey
  cases hop : e.op with
  | booking op =>
      rw [SweepEvent.apply, hop] at hkey ⊢
      exact h key ((reminded_booking_iff op s.db key).mp hkey)
  | sweep =>
      obtain ⟨mails, -, happly⟩ := apply_sweep hop hcompletes
      rw [happly] at hkey ⊢
      rcases Database.reminded_addReminders_iff.mp hkey with hold | hnew
      · obtain ⟨mail, hmail, rfl⟩ := h key hold
        exact ⟨mail, List.mem_append_left _ hmail, rfl⟩
      · obtain ⟨mail, hmail, rfl⟩ := List.mem_map.mp hnew
        exact ⟨mail, List.mem_append_right _ hmail, rfl⟩

theorem uniqueKeys_apply
    (h : UniqueKeys Appointment.id s.db.appointments) (e : SweepEvent)
    (hcompletes : e.Completes env s) :
    UniqueKeys Appointment.id (e.apply env s).db.appointments := by
  cases hop : e.op with
  | booking op =>
      rw [SweepEvent.apply, hop]
      exact (rulesKept_of_run env op h).keys
  | sweep =>
      obtain ⟨mails, -, happly⟩ := apply_sweep hop hcompletes
      rw [happly]
      exact h

/-- The events come in the order of time, the sweeps run to their ends and follow
each other by at most `REMINDER_WINDOW`, appointments have their keys, and the
claims that are there at the beginning stand for mails. -/
structure SweepHistory (env : Env) (s : SweepState)
    (events : List SweepEvent) : Prop where
  ordered : events.Pairwise fun e e' => e.moment ≤ e'.moment
  spaced : Spaced SweepEvent.moment SweepEvent.sweeps reminderWindow events
  completed : Runs.Along (SweepEvent.apply env) (SweepEvent.Completes env) s
    events
  keys : UniqueKeys Appointment.id s.db.appointments
  logged : s.Logged

/-- In every state of the run that is current at a moment of the interval
`(lo, hi]` the appointment is active and starts at `start`. -/
def ActiveThroughout (env : Env) (s : SweepState) (events : List SweepEvent)
    (id : Uuid) (start lo hi : ℤ) : Prop :=
  ∀ first rest, events = first ++ rest →
    (∃ t, lo < t ∧ t ≤ hi ∧ (∀ e ∈ first, e.moment ≤ t) ∧
      ∀ e ∈ rest, t ≤ e.moment) →
    ∃ a, (sweepRun env s first).db.appointment? id = some a ∧
      a.status.blocksSlot = true ∧ a.startTime = start

/-- A sweep of the interval `(lo, hi]` queues the reminder for that start. -/
def QueuedIn (env : Env) (s : SweepState) (events : List SweepEvent)
    (key : ReminderKey) (start lo hi : ℤ) : Prop :=
  ∃ first e rest, events = first ++ e :: rest ∧ e.op = .sweep ∧
    lo < e.moment ∧ e.moment ≤ hi ∧
    ∃ mail ∈ ((sendAppointmentReminders env e.moment).run
      (sweepRun env s first).db).sent, mail.key = key ∧ mail.startTime = start

/-- A reminder with that key has been queued before the sweeps of an interval
that begins after `lo`. -/
def QueuedBefore (env : Env) (s : SweepState) (events : List SweepEvent)
    (key : ReminderKey) (lo : ℤ) : Prop :=
  ∃ first rest, events = first ++ rest ∧
    (∀ e ∈ first, e.op = .sweep → e.moment ≤ lo) ∧
    ∃ mail ∈ (sweepRun env s first).mails, mail.key = key

theorem sweepRun_append (first rest : List SweepEvent) :
    sweepRun env s (first ++ rest) =
      sweepRun env (sweepRun env s first) rest :=
  List.foldl_append

/-- Mails stay queued. -/
theorem mails_subset_apply (e : SweepEvent) :
    s.mails ⊆ (e.apply env s).mails := by
  rw [SweepEvent.apply]
  split
  · exact fun _ hmail => hmail
  · exact fun _ hmail => List.mem_append_left _ hmail

theorem mails_subset_sweepRun (events : List SweepEvent) :
    s.mails ⊆ (sweepRun env s events).mails := by
  induction events generalizing s with
  | nil => exact fun _ hmail => hmail
  | cons e events ih => exact fun _ hmail => ih (mails_subset_apply e hmail)

theorem QueuedIn.exists_mail
    {events : List SweepEvent} {key : ReminderKey} {start lo hi : ℤ}
    (h : QueuedIn env s events key start lo hi) :
    ∃ mail ∈ (sweepRun env s events).mails,
      mail.key = key ∧ mail.startTime = start := by
  obtain ⟨first, e, rest, rfl, hsweep, -, -, mail, hmail, hkey⟩ := h
  refine ⟨mail, ?_, hkey⟩
  rw [sweepRun_append]
  refine mails_subset_sweepRun (s := e.apply env (sweepRun env s first)) rest ?_
  rw [SweepEvent.apply, hsweep]
  exact List.mem_append_right _ hmail

/-- Up to any point of a history claims stand for mails. -/
theorem SweepHistory.keeps
    {events : List SweepEvent} (h : SweepHistory env s events)
    {first : List SweepEvent} (hfirst : first <+: events) :
    (sweepRun env s first).Logged ∧
      UniqueKeys Appointment.id (sweepRun env s first).db.appointments :=
  @Runs.Along.invariant _ _ _ (SweepEvent.Completes env)
    (fun s => s.Logged ∧ UniqueKeys Appointment.id s.db.appointments)
    (fun _ e hs hcompletes =>
      ⟨hs.1.apply hcompletes, uniqueKeys_apply hs.2 e hcompletes⟩)
    s events h.completed ⟨h.logged, h.keys⟩ first hfirst

/-- A sweep that finds the appointment active and due. -/
theorem reminded_by_sweep
    {e : SweepEvent} (hsweep : e.op = .sweep) (hcompletes : e.Completes env s)
    (hlogged : s.Logged) (hkeys : UniqueKeys Appointment.id s.db.appointments)
    {kind : ReminderKind} {a : Appointment}
    (ha : a ∈ s.db.dueAppointments (e.moment + kind.horizon)) :
    (∃ mail ∈ s.mails, mail.key = (a.id, kind)) ∨
      ∃ mail ∈ ((sendAppointmentReminders env e.moment).run s.db).sent,
        mail.key = (a.id, kind) ∧ mail.startTime = a.startTime := by
  obtain ⟨n, hanswer⟩ := hcompletes.answer hsweep
  obtain ⟨mails, hswept, -, hsent⟩ := run_sendAppointmentReminders hanswer
  rw [hsent]
  rcases hswept.complete kind a ha with hold | ⟨mail, hmail, hkey⟩
  · exact Or.inl (hlogged _ hold)
  · obtain ⟨kind', b, hb, hkey', hstart⟩ := hswept.origin mail hmail
    have hid : b.id = a.id := (Prod.mk.inj (hkey'.symm.trans hkey)).1
    have hba : b = a := hkeys.eq_of_mem (List.mem_of_mem_filter hb)
      (List.mem_of_mem_filter ha) hid
    exact Or.inr ⟨mail, hmail, hkey, hba ▸ hstart⟩

end

/-- An appointment that is active with one start while the window of a kind
passes over it is reminded by a sweep of that time, or a reminder of the kind
had been queued for it before. -/
theorem reminded_in_time
    (env : Env) (s : SweepState) (events : List SweepEvent)
    (hhistory : SweepHistory env s events) (kind : ReminderKind) (id : Uuid)
    (start : ℤ)
    (hbefore : ∃ e ∈ events, e.sweeps = true ∧
      e.moment ≤ start - kind.horizon - reminderWindow)
    (hafter : ∃ e ∈ events, e.sweeps = true ∧
      start - kind.horizon - reminderWindow < e.moment)
    (hactive : ActiveThroughout env s events id start
      (start - kind.horizon - reminderWindow) (start - kind.horizon)) :
    QueuedIn env s events (id, kind) start
        (start - kind.horizon - reminderWindow) (start - kind.horizon) ∨
      QueuedBefore env s events (id, kind)
        (start - kind.horizon - reminderWindow) := by
  obtain ⟨first, e, rest, rfl, hsweeps, hlow, hhigh, hfirst⟩ :=
    exists_first_after hhistory.ordered hhistory.spaced hbefore hafter
  have hsweep : e.op = .sweep := of_decide_eq_true hsweeps
  have hhigh' : e.moment ≤ start - kind.horizon := by omega
  obtain ⟨-, hfuture, hbetween⟩ := List.pairwise_append.mp hhistory.ordered
  obtain ⟨a, hrow, hblocks, rfl⟩ := hactive first (e :: rest) rfl
    ⟨e.moment, hlow, hhigh', fun e' he' => hbetween e' he' e List.mem_cons_self,
      fun e' he' => by
        rcases List.mem_cons.mp he' with rfl | he'
        · exact le_refl _
        · exact (List.pairwise_cons.mp hfuture).1 e' he'⟩
  obtain ⟨hlogged, hkeys⟩ := hhistory.keeps (List.prefix_append first _)
  have hcompletes := (Runs.along_append_iff.mp hhistory.completed).2.1
  have hdue : a ∈ (sweepRun env s first).db.dueAppointments
      (e.moment + kind.horizon) := by
    refine List.mem_filter.mpr ⟨mem_of_lookup hrow, decide_eq_true ?_⟩
    exact ⟨hblocks, by omega, by omega⟩
  rw [← key_of_lookup hrow]
  rcases reminded_by_sweep hsweep hcompletes hlogged hkeys hdue with
    hold | ⟨mail, hmail, hkey, hstart⟩
  · refine Or.inr ⟨first, e :: rest, rfl, ?_, hold⟩
    intro e' he' hop
    exact hfirst e' he' (decide_eq_true hop)
  · exact Or.inl ⟨first, e, rest, rfl, hsweep, hlow, hhigh', mail, hmail, hkey,
      hstart⟩

/-! ## A booking that is moved after its reminder -/

namespace Sample

/-- A time on the Sunday before. -/
def sunday (hour minute : ℕ) : ℤ := clock hour minute - oneDay

/-- The sample shop with one booking, before any sweep. -/
def unswept : SweepState := ⟨bookedDb, []⟩

/-- Sweeps around the moment a day before the booking. -/
def quietDay : List SweepEvent :=
  [⟨sunday 8 30, .sweep⟩, ⟨sunday 8 45, .sweep⟩, ⟨sunday 9 0, .sweep⟩]

/-- The booking is moved half an hour on after its reminder. -/
def movedDay : List SweepEvent :=
  [⟨sunday 9 0, .sweep⟩,
    ⟨sunday 9 5, .booking (.reschedule customer 40 (start 9 30) (sunday 9 5))⟩,
    ⟨sunday 9 15, .sweep⟩, ⟨sunday 9 30, .sweep⟩]

theorem history_quietDay : SweepHistory env unswept quietDay where
  ordered := by decide
  spaced := by decide
  completed := by decide +kernel
  keys := by decide
  logged _ := by
    rintro ⟨r, hr, -⟩
    simp [unswept, bookedDb, db] at hr

theorem history_movedDay : SweepHistory env unswept movedDay where
  ordered := by decide
  spaced := by decide
  completed := by decide +kernel
  keys := by decide
  logged _ := by
    rintro ⟨r, hr, -⟩
    simp [unswept, bookedDb, db] at hr

/-- The booking stays as it is. -/
theorem active_quietDay :
    ActiveThroughout env unswept quietDay 40 (clock 9 0)
      (clock 9 0 - ReminderKind.dayBefore.horizon - reminderWindow)
      (clock 9 0 - ReminderKind.dayBefore.horizon) := by
  have hrow : ∀ n ≤ 3,
      (sweepRun env unswept (quietDay.take n)).db.appointment? 40 =
        some (booking 40 (clock 9 0) (clock 9 30) .confirmed) := by
    decide +kernel
  intro first rest heq _
  have hlength : first.length ≤ 3 := by
    have := congrArg List.length heq
    simp [quietDay] at this
    omega
  have hfirst : first = quietDay.take first.length := by simp [heq]
  rw [hfirst, hrow _ hlength]
  exact ⟨_, rfl, rfl, rfl⟩

/-- Once it is moved, the booking stays where it is. -/
theorem active_movedDay :
    ActiveThroughout env unswept movedDay 40 (clock 9 30)
      (clock 9 30 - ReminderKind.dayBefore.horizon - reminderWindow)
      (clock 9 30 - ReminderKind.dayBefore.horizon) := by
  have hrow : ∀ n ≤ 4, 2 ≤ n →
      (sweepRun env unswept (movedDay.take n)).db.appointment? 40 =
        some (booking 40 (clock 9 30) (clock 10 0) .confirmed) := by
    decide +kernel
  have hmoved : ∀ n < 2, ∃ e ∈ movedDay.drop n, e.moment ≤
      clock 9 30 - ReminderKind.dayBefore.horizon - reminderWindow := by
    decide
  rintro first rest heq ⟨t, hlow, -, -, hrest⟩
  have hlength : first.length ≤ 4 := by
    have := congrArg List.length heq
    simp [movedDay] at this
    omega
  have hfirst : first = movedDay.take first.length := by simp [heq]
  have hdrop : rest = movedDay.drop first.length := by simp [heq]
  by_cases hearly : first.length < 2
  · obtain ⟨e, he, hle⟩ := hmoved _ hearly
    have := hrest e (hdrop ▸ he)
    omega
  · rw [hfirst, hrow _ hlength (by omega)]
    exact ⟨_, rfl, rfl, rfl⟩

end Sample

theorem reminded_in_time_quiet_day :
    QueuedIn Sample.env Sample.unswept Sample.quietDay (40, .dayBefore)
        (Sample.clock 9 0)
        (Sample.clock 9 0 - ReminderKind.dayBefore.horizon - reminderWindow)
        (Sample.clock 9 0 - ReminderKind.dayBefore.horizon) ∨
      QueuedBefore Sample.env Sample.unswept Sample.quietDay (40, .dayBefore)
        (Sample.clock 9 0 - ReminderKind.dayBefore.horizon - reminderWindow) :=
  reminded_in_time Sample.env Sample.unswept Sample.quietDay
    Sample.history_quietDay .dayBefore 40 (Sample.clock 9 0) (by decide)
    (by decide) Sample.active_quietDay

/-- The run of a day before the booking, in which it is moved half an hour on
after its reminder: sweeps go on around the new moment, and the booking is
active throughout, but no sweep queues a reminder for the new start, and none
was queued for it before.  Nor is there a reminder in a run without sweeps. -/
theorem not_reminded_after_move :
    (SweepHistory Sample.env Sample.unswept Sample.movedDay ∧
      (∃ e ∈ Sample.movedDay, e.sweeps = true ∧ e.moment ≤ Sample.clock 9 30 -
        ReminderKind.dayBefore.horizon - reminderWindow) ∧
      (∃ e ∈ Sample.movedDay, e.sweeps = true ∧ Sample.clock 9 30 -
        ReminderKind.dayBefore.horizon - reminderWindow < e.moment) ∧
      ActiveThroughout Sample.env Sample.unswept Sample.movedDay 40
        (Sample.clock 9 30)
        (Sample.clock 9 30 - ReminderKind.dayBefore.horizon - reminderWindow)
        (Sample.clock 9 30 - ReminderKind.dayBefore.horizon) ∧
      ¬ (QueuedIn Sample.env Sample.unswept Sample.movedDay (40, .dayBefore)
          (Sample.clock 9 30)
          (Sample.clock 9 30 - ReminderKind.dayBefore.horizon - reminderWindow)
          (Sample.clock 9 30 - ReminderKind.dayBefore.horizon) ∨
        ∃ mail ∈ (sweepRun Sample.env Sample.unswept Sample.movedDay).mails,
          mail.key = (40, .dayBefore) ∧
            mail.startTime = Sample.clock 9 30)) ∧
    SweepHistory Sample.env Sample.unswept [] ∧
      ActiveThroughout Sample.env Sample.unswept [] 40 (Sample.clock 9 0)
        (Sample.clock 9 0 - ReminderKind.dayBefore.horizon - reminderWindow)
        (Sample.clock 9 0 - ReminderKind.dayBefore.horizon) ∧
      ¬ (QueuedIn Sample.env Sample.unswept [] (40, .dayBefore)
          (Sample.clock 9 0)
          (Sample.clock 9 0 - ReminderKind.dayBefore.horizon - reminderWindow)
          (Sample.clock 9 0 - ReminderKind.dayBefore.horizon) ∨
        ∃ mail ∈ (sweepRun Sample.env Sample.unswept []).mails,
          mail.key = (40, .dayBefore) ∧
            mail.startTime = Sample.clock 9 0) := by
  have hmoved : ¬ ∃ mail ∈
      (sweepRun Sample.env Sample.unswept Sample.movedDay).mails,
      mail.key = (40, .dayBefore) ∧ mail.startTime = Sample.clock 9 30 := by
    decide +kernel
  have hnone : ¬ ∃ mail ∈ (sweepRun Sample.env Sample.unswept []).mails,
      mail.key = (40, .dayBefore) ∧ mail.startTime = Sample.clock 9 0 := by
    decide
  refine ⟨⟨Sample.history_movedDay, by decide, by decide,
    Sample.active_movedDay, ?_⟩, ?_, ?_, ?_⟩
  · rintro (hqueued | hqueued)
    · exact hmoved hqueued.exists_mail
    · exact hmoved hqueued
  · exact ⟨.nil, .nil, trivial, Sample.history_movedDay.keys,
      Sample.history_movedDay.logged⟩
  · intro first rest heq _
    obtain ⟨rfl, -⟩ := List.append_eq_nil_iff.mp heq.symm
    exact ⟨_, rfl, rfl, rfl⟩
  · rintro (hqueued | hqueued)
    · exact hnone hqueued.exists_mail
    · exact hnone hqueued

end BarberHub
