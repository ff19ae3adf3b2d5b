import BarberHub.Booking.Guarantees
import BarberHub.Support.Fallible
import BarberHub.Support.Pools

/-!
# Terminal statuses under concurrency

The six operations that change an existing appointment read its row, check the
status, and write by primary key what they changed.  Between the read and the
commit nothing holds the row.  This module shows what that leaves of the
status machine: terminal statuses are final as long as no transaction is
between its read and its commit when another one closes the row, and one such
overlap is enough to lose a terminal status.
-/

namespace BarberHub

open HalfOpen KeyedTable ReadCommitted Program Pool Fallible

/-- A transaction that changes an existing appointment. -/
inductive AppointmentAction where
  | cancel (user : User) (reason : Option String) (now : ℤ)
  | reschedule (user : User) (newStart : AwareDatetime) (now : ℤ)
  | confirm (user : User)
  | complete (user : User) (now : ℤ)
  | noShow (user : User) (now : ℤ)
  | expire (now : ℤ)
  deriving DecidableEq, Repr

namespace AppointmentAction

/-- The transaction on the appointment `id`. -/
def program (env : Env) (id : Uuid) : AppointmentAction → Request Unit
  | cancel user reason now => cancelTransaction env user id reason now
  | reschedule user newStart now =>
      rescheduleTransaction env user id newStart now
  | confirm user => confirmTransaction env user id
  | complete user now => closeOutTransaction env user id .completed now
  | noShow user now => closeOutTransaction env user id .noShow now
  | expire now => do
      let _ ← expireStalePending env now
      pure ()

/-- The transaction closes an appointment out with that status, at that
moment. -/
def ClosesOut (action : AppointmentAction) (status : AppointmentStatus)
    (now : ℤ) : Prop :=
  match action with
  | complete _ moment => status = .completed ∧ now = moment
  | noShow _ moment => status = .noShow ∧ now = moment
  | _ => False

/-- A commit that the transaction can bear between its read and its own
commit: the row is not closed, and is not moved to a start after the moment of
a close-out. -/
def Tolerates (action : AppointmentAction) (id : Uuid)
    (s s' : Database) : Prop :=
  ∀ a a', s.appointment? id = some a → s'.appointment? id = some a' →
    (a'.status.isTerminal = true → a.status.isTerminal = true) ∧
      ∀ status now, action.ClosesOut status now →
        a.startTime ≤ now → a'.startTime ≤ now

end AppointmentAction

variable {ι : Type} [DecidableEq ι]

/-- The transactions, all on the appointment `id`, before any has begun. -/
def actionPool (env : Env) (id : Uuid) (actions : ι → AppointmentAction)
    (db : Database) : Pool ι Database Raised Unit where
  committed := db
  running i := (actions i).program env id

/-- Once the row has a terminal status, no later commit changes it; and a row
becomes COMPLETED or NO_SHOW only by a close-out whose moment is not before
its start. -/
def TerminalFinal (env : Env) (id : Uuid) (actions : ι → AppointmentAction)
    (db : Database) (schedule : List ι) : Prop :=
  (∀ first rest a, schedule = first ++ rest →
    ((actionPool env id actions db).exec first).committed.appointment? id =
      some a → a.status.isTerminal = true →
    ((actionPool env id actions db).exec schedule).committed.appointment? id =
      some a) ∧
  ∀ started j a a', started ++ [j] <+: schedule →
    ((actionPool env id actions db).exec started).committed.appointment? id =
      some a → a.status.isTerminal = false →
    ((actionPool env id actions db).exec
      (started ++ [j])).committed.appointment? id = some a' →
    a'.status = .completed ∨ a'.status = .noShow →
    ∃ now, (actions j).ClosesOut a'.status now ∧ a'.startTime ≤ now

/-! ## One commit -/

/-- What others may commit while the transaction is in flight. -/
structure ActionRely (action : AppointmentAction) (id : Uuid)
    (s s' : Database) : Prop where
  directory : s.SameDirectory s'
  ids : s'.appointments.map Appointment.id = s.appointments.map Appointment.id
  tolerates : ∀ a, s.appointment? id = some a →
    ∃ a', s'.appointment? id = some a' ∧
      (a'.status.isTerminal = true → a.status.isTerminal = true) ∧
      ∀ status now, action.ClosesOut status now →
        a.startTime ≤ now → a'.startTime ≤ now

/-- What a transaction commits. -/
structure ActionGuarantee (action : AppointmentAction) (id : Uuid)
    (s s' : Database) : Prop where
  directory : s.SameDirectory s'
  ids : s'.appointments.map Appointment.id = s.appointments.map Appointment.id
  final : ∀ a, s.appointment? id = some a → a.status.isTerminal = true →
    s'.appointment? id = some a
  closes : ∀ a a', s.appointment? id = some a →
    a.status.isTerminal = false → s'.appointment? id = some a' →
    a'.status = .completed ∨ a'.status = .noShow →
    ∃ now, action.ClosesOut a'.status now ∧ a'.startTime ≤ now

theorem isRely_actionRely (action : AppointmentAction) (id : Uuid) :
    IsRely (ActionRely action id) where
  refl s := ⟨.refl s, rfl, fun a ha => ⟨a, ha, fun h => h, fun _ _ _ h => h⟩⟩
  trans {s t u} h h' := by
    refine ⟨h.directory.trans h'.directory, h'.ids.trans h.ids, ?_⟩
    intro a ha
    obtain ⟨b, hb, hterminal, hstart⟩ := h.tolerates a ha
    obtain ⟨c, hc, hterminal', hstart'⟩ := h'.tolerates b hb
    exact ⟨c, hc, fun ht => hterminal (hterminal' ht),
      fun status now hcloses hle =>
        hstart' status now hcloses (hstart status now hcloses hle)⟩

/-- An UPDATE of a row that is still open keeps the guarantee, if it closes
the row out only at the right moment. -/
theorem actionGuarantee_update
    {action : AppointmentAction} {env : Env} {id : Uuid}
    {u : AppointmentUpdate} {s s' : Database} {b : Appointment}
    (hb : s.appointment? id = some b) (hopen : b.status.isTerminal = false)
    (hcloses : (u.apply b).status = .completed ∨ (u.apply b).status = .noShow →
      ∃ now, action.ClosesOut (u.apply b).status now ∧
        (u.apply b).startTime ≤ now)
    (h : updateAppointment env id u s = .ok s') :
    ActionGuarantee action id s s' := by
  obtain rfl := updateAppointment_eq_ok h
  refine ⟨⟨rfl, rfl, rfl, rfl, rfl, rfl⟩, map_id_updateAt _ _ _, ?_, ?_⟩
  · intro a ha hterminal
    obtain rfl := Option.some.inj (hb.symm.trans ha)
    rw [hopen] at hterminal
    simp at hterminal
  · intro a a' ha _ ha' hstatus
    rw [appointment?_updateAt, hb, Option.map_some] at ha'
    obtain rfl := Option.some.inj ha'
    exact hcloses hstatus

/-- A row the transaction saw active is still open when it commits. -/
theorem Saw.still_open
    {action : AppointmentAction} {id : Uuid} {s u : Database} {a : Appointment}
    (h : Saw (ActionRely action id) s id a u)
    (hactive : a.status.blocksSlot = true) :
    ∃ b, u.appointment? id = some b ∧ b.status.isTerminal = false ∧
      ∀ status now, action.ClosesOut status now →
        a.startTime ≤ now → b.startTime ≤ now := by
  obtain ⟨t, -, htu, ha⟩ := h
  obtain ⟨b, hb, hterminal, hstart⟩ := htu.tolerates a ha
  refine ⟨b, hb, ?_, hstart⟩
  by_contra hclosed
  have := hterminal (by simpa using hclosed)
  rw [a.status.isTerminal_eq_not_blocksSlot, hactive] at this
  simp at this

/-! ## The transactions -/

/-- The status an UPDATE leaves in an open row is COMPLETED or NO_SHOW only
when it writes it. -/
theorem written_of_closed
    {loaded new : AppointmentStatus} {b : Appointment}
    (hopen : b.status.isTerminal = false)
    (h : (changedTo loaded new).getD b.status = .completed ∨
      (changedTo loaded new).getD b.status = .noShow) :
    (changedTo loaded new).getD b.status = new ∧
      (new = .completed ∨ new = .noShow) := by
  rcases changedTo_getD_cases loaded new b.status with heq | heq
  · exact ⟨heq, heq ▸ h⟩
  · rw [heq] at h
    rcases h with h | h <;> simp [h, AppointmentStatus.isTerminal] at hopen

theorem closeOut_ensures
    (env : Env) (id : Uuid) {action : AppointmentAction} (user : User)
    {target : AppointmentStatus} {now : ℤ}
    (haction : action.ClosesOut target now) (s : Database) :
    (closeOutTransaction env user id target now).Learns
      (ActionRely action id) (ActionGuarantee action id)
      (fun _ _ => True) s := by
  apply learns_closeOutTransaction (isRely_actionRely action id)
  intro a u u' hsaw hactive hstarted hw
  obtain ⟨b, hb, hopen, hstart⟩ := hsaw.still_open hactive
  refine actionGuarantee_update hb hopen (fun hclosed => ⟨now, ?_, ?_⟩) hw
  · obtain ⟨hstatus, -⟩ := written_of_closed hopen hclosed
    change action.ClosesOut ((changedTo a.status target).getD b.status) now
    rw [hstatus]
    exact haction
  · -- the start is not among the columns written
    have hunchanged : (changedTo a.startTime a.startTime).getD b.startTime =
        b.startTime := by simp [changedTo]
    change (changedTo a.startTime a.startTime).getD b.startTime ≤ now
    rw [hunchanged]
    exact hstart target now haction hstarted

/-- Every transaction on the row keeps the guarantee, from any state with
unique keys, against commits it tolerates. -/
theorem action_ensures
    (env : Env) (id : Uuid) (action : AppointmentAction) {s : Database}
    (hkeys : UniqueKeys Appointment.id s.appointments) :
    (action.program env id).Learns (ActionRely action id)
      (ActionGuarantee action id) (fun _ _ => True) s := by
  have hrely := isRely_actionRely action id
  cases action with
  | cancel user reason now =>
      apply learns_cancelTransaction hrely
      intro a u u' hsaw hactive hw
      obtain ⟨b, hb, hopen, -⟩ := hsaw.still_open hactive
      refine actionGuarantee_update hb hopen ?_ hw
      intro hclosed
      have hwritten := (written_of_closed hopen hclosed).2
      simp at hwritten
  | reschedule user newStart now =>
      apply learns_rescheduleTransaction hrely (fun _ _ h => h.directory)
      intro a barber service t u u' hst htu ha hactive _ _ hw
      have hsaw : Saw (ActionRely (.reschedule user newStart now) id) s id a u :=
        ⟨t, hst, htu, ha⟩
      obtain ⟨b, hb, hopen, -⟩ := hsaw.still_open hactive
      refine actionGuarantee_update hb hopen ?_ hw
      intro hclosed
      have hunchanged : (changedTo a.status a.status).getD b.status =
          b.status := by simp [changedTo]
      have hclosed' : b.status = .completed ∨ b.status = .noShow :=
        hunchanged ▸ hclosed
      rcases hclosed' with h | h <;>
        simp [h, AppointmentStatus.isTerminal] at hopen
  | confirm user =>
      apply learns_confirmTransaction hrely
      intro a u u' hsaw hpending hw
      obtain ⟨b, hb, hopen, -⟩ := hsaw.still_open (by rw [hpending]; rfl)
      refine actionGuarantee_update hb hopen ?_ hw
      intro hclosed
      have hwritten := (written_of_closed hopen hclosed).2
      simp at hwritten
  | complete user now =>
      have haction : (AppointmentAction.complete user now).ClosesOut
          .completed now := ⟨rfl, rfl⟩
      exact closeOut_ensures env id user haction s
  | noShow user now =>
      have haction : (AppointmentAction.noShow user now).ClosesOut
          .noShow now := ⟨rfl, rfl⟩
      exact closeOut_ensures env id user haction s
  | expire now =>
      refine Learns.bind hrely (learns_expireStalePending hrely
        ?_) fun _ _ _ =>
          learns_done fun _ _ _ _ => trivial
      intro stale t u u' hst htu hstale hw
      obtain ⟨hdir, hids, hrows⟩ :=
        expired_rows id (fun a ha => (hstale a ha).2) hw
      -- a row of this key among the stale ones was the pending row itself
      have hsaw : ∀ a ∈ stale, a.id = id →
          Saw (ActionRely (.expire now) id) s id a u := by
        rintro a ha rfl
        have hkeys' : UniqueKeys Appointment.id t.appointments := by
          rw [UniqueKeys]
          rw [hst.ids]
          exact hkeys
        exact ⟨t, hst, htu,
          hkeys'.lookup_eq_some_iff.mpr ⟨(hstale a ha).1, rfl⟩⟩
      refine ⟨hdir, hids, ?_, ?_⟩
      · intro b hb hterminal
        obtain ⟨b', hb', rfl | ⟨-, a, ha, hid⟩⟩ := hrows b hb
        · exact hb'
        · have hactive : a.status.blocksSlot = true := by
            rw [(hstale a ha).2]
            rfl
          obtain ⟨c, hc, hopen, -⟩ := (hsaw a ha hid).still_open hactive
          obtain rfl := Option.some.inj (hb.symm.trans hc)
          rw [hopen] at hterminal
          simp at hterminal
      · intro b b' hb hopen hb' hclosed
        obtain ⟨c, hc, hcases⟩ := hrows b hb
        obtain rfl := Option.some.inj (hb'.symm.trans hc)
        rcases hcases with rfl | ⟨hexpired, -⟩
        · rcases hclosed with h | h <;>
            simp [h, AppointmentStatus.isTerminal] at hopen
        · rw [hexpired.status_eq] at hclosed
          simp at hclosed

omit [DecidableEq ι] in
/-- The transactions on one row, verified together. -/
theorem actionPool_verified
    (env : Env) (id : Uuid) (actions : ι → AppointmentAction) {db : Database}
    (hkeys : UniqueKeys Appointment.id db.appointments) :
    (actionPool env id actions db).Verified
      (fun s => UniqueKeys Appointment.id s.appointments) (fun _ _ => True)
      (fun i => ActionRely (actions i) id)
      (fun i => ActionGuarantee (actions i) id)
      (fun i => (actions i).Tolerates id)
      (fun _ _ _ => True) where
  isRely i := isRely_actionRely (actions i) id
  init := hkeys
  begin_init _ := trivial
  begin_keep _ _ _ _ _ _ _ _ := trivial
  start i s hs _ := Ensures.mono (action_ensures env id (actions i) hs)
    (fun _ _ h => h) fun _ _ _ => trivial
  inv i s s' hs h := by
    rw [UniqueKeys]
    rw [h.ids]
    exact hs
  compat i j s s' _ _ h htol := by
    refine ⟨h.directory, h.ids, ?_⟩
    intro a ha
    obtain ⟨a', ha'⟩ := exists_appointment?_of_ids h.ids ha
    exact ⟨a', ha', htol a a' ha ha'⟩
  answer _ _ _ _ _ _ _ _ _ := trivial

/-- A row with a terminal status is left as it is. -/
def KeepsTerminal (id : Uuid) (s s' : Database) : Prop :=
  ∀ a, s.appointment? id = some a → a.status.isTerminal = true →
    s'.appointment? id = some a

theorem isRely_keepsTerminal (id : Uuid) : IsRely (KeepsTerminal id) where
  refl _ _ ha _ := ha
  trans h h' a ha hterminal := h' a (h a ha hterminal) hterminal

/-- Terminal statuses are final in every run in which no transaction is in
flight on the row when another one closes it, or moves it past the moment of a
close-out. -/
theorem terminal_final
    (env : Env) (id : Uuid) (actions : ι → AppointmentAction) (db : Database)
    (schedule : List ι) (hkeys : UniqueKeys Appointment.id db.appointments)
    (htol : (actionPool env id actions db).Tolerant
      (fun i => (actions i).Tolerates id) schedule) :
    TerminalFinal env id actions db schedule := by
  have hpool := actionPool_verified env id actions hkeys
  constructor
  · intro first rest a hsplit ha hterminal
    subst hsplit
    exact hpool.related (isRely_keepsTerminal id)
      (fun i s s' _ h => h.final) htol a ha hterminal
  · intro started j a a' hpre ha hopen ha' hclosed
    have hstep := hpool.step_commits (htol.of_prefix hpre)
    rw [exec_concat] at ha'
    rcases hstep with heq | hguar
    · rw [heq, ha] at ha'
      obtain rfl := Option.some.inj ha'
      rcases hclosed with h | h <;>
        simp [h, AppointmentStatus.isTerminal] at hopen
    · exact hguar.closes a a' ha hopen ha' hclosed

/-- An administrator completes the booking while another one cancels it. -/
def completeAndCancel : Bool → AppointmentAction
  | false => .complete Sample.admin (Sample.clock 10 0)
  | true => .cancel Sample.admin none (Sample.clock 10 0)

theorem terminal_final_one_after_the_other :
    TerminalFinal Sample.env 40 completeAndCancel Sample.bookedDb
      [false, false, true] := by
  refine terminal_final _ _ _ _ _ (by decide) ?_
  exact tolerant_serial false true 2 1 (by decide +kernel)

/-- When both have read the confirmed row, the cancellation overwrites the
completion. -/
theorem terminal_lost :
    ¬ TerminalFinal Sample.env 40 completeAndCancel Sample.bookedDb
      [false, true, false, true] := by
  rintro ⟨hfinal, -⟩
  have hlost := hfinal [false, true, false] [true]
    (Sample.booking 40 (Sample.clock 9 0) (Sample.clock 9 30) .completed) rfl
    (by decide +kernel) rfl
  revert hlost
  decide +kernel

end BarberHub
