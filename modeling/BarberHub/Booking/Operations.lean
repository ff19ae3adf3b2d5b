import BarberHub.Booking.Guarantees
import BarberHub.Support.Fallible

/-!
# The booking operations, one at a time

`BookingWrite` lists the writes the booking transactions come to, with what
each of them has seen before.  `BookingCommit` lists what the operations can
commit when each of them runs alone, with everything that justified the commit
in the state before it.  Invariants of runs are proved from these lists and
never look into the operations again.
-/

namespace BarberHub

open HalfOpen KeyedTable ReadCommitted Program

/-- A request or a task that creates or changes appointments. -/
inductive BookingOp where
  | create (customer : User) (payload : AppointmentCreate) (now : ℤ)
      (id : Uuid) (createdAt : ℤ)
  | reschedule (user : User) (id : Uuid) (newStart : AwareDatetime) (now : ℤ)
  | cancel (user : User) (id : Uuid) (reason : Option String) (now : ℤ)
  | confirm (user : User) (id : Uuid)
  | complete (user : User) (id : Uuid) (now : ℤ)
  | noShow (user : User) (id : Uuid) (now : ℤ)
  | expire (now : ℤ)
  deriving DecidableEq, Repr

/-- Run a request for its effect. -/
def discard {α : Type} (p : Request α) : Request Unit := do
  let _ ← p
  pure ()

def BookingOp.program (env : Env) : BookingOp → Request Unit
  | create customer payload now id createdAt =>
      discard (createAppointment env customer payload now id createdAt)
  | reschedule user id newStart now =>
      discard (rescheduleAppointment env user id newStart now)
  | cancel user id reason now =>
      discard (cancelAppointment env user id reason now)
  | confirm user id => discard (confirmAppointment env user id)
  | complete user id now => discard (completeAppointment env user id now)
  | noShow user id now => discard (markNoShow env user id now)
  | expire now => discard (expireStalePending env now)

/-- The transaction of an operation, up to its commit. -/
def BookingOp.transaction (env : Env) : BookingOp → Request Unit
  | create customer payload now id createdAt =>
      createTransaction env customer payload now id createdAt
  | reschedule user id newStart now =>
      rescheduleTransaction env user id newStart now
  | cancel user id reason now => cancelTransaction env user id reason now
  | confirm user id => confirmTransaction env user id
  | complete user id now => closeOutTransaction env user id .completed now
  | noShow user id now => closeOutTransaction env user id .noShow now
  | expire now => discard (expireStalePending env now)

/-- The operation closes the appointment out with that status. -/
def BookingOp.ClosesOut (op : BookingOp) (user : User) (id : Uuid)
    (target : AppointmentStatus) (now : ℤ) : Prop :=
  (op = .complete user id now ∧ target = .completed) ∨
    (op = .noShow user id now ∧ target = .noShow)

/-- The key an operation has drawn for a new row. -/
def BookingOp.newId : BookingOp → Option Uuid
  | create _ _ _ id _ => some id
  | _ => none

/-- The start is on offer for a booking of the service with the barber. -/
def Database.OnOffer (env : Env) (db : Database) (barber : Barber)
    (service : Service) (start now : ℤ) (exclude : Option Uuid) : Prop :=
  ∃ shop, db.Sells barber.id service.id barber shop service ∧
    Bookable env db barber.id shop service
      (localDate (env.shopTimezone shop) start) now exclude false start

/-- A start on offer is clear of the appointments already there. -/
theorem Database.OnOffer.not_conflicts
    {env : Env} {db : Database} {barber : Barber} {service : Service}
    {start now : ℤ} {exclude : Option Uuid} {row other : Appointment}
    (h : db.OnOffer env barber service start now exclude)
    (hbarber : row.barberId = barber.id) (hstart : row.startTime = start)
    (hstop : row.endTime = start + service.duration)
    (hother : other ∈ db.appointments)
    (hordered : other.startTime < other.endTime)
    (hexclude : exclude ≠ some other.id) : ¬ row.Conflicts other := by
  obtain ⟨shop, -, hbookable⟩ := h
  rintro ⟨hsame, -, hactive, hoverlap⟩
  have hrow : row.startTime < row.endTime := by
    have := hbookable.positive
    omega
  obtain ⟨x, ⟨hx, hx'⟩, hox, hox'⟩ :=
    (overlap_iff_exists hrow hordered).mp hoverlap
  rw [hstart] at hx
  rw [hstop] at hx'
  exact hbookable.no_appointment rfl x hx hx'
    ⟨other, hother, by rw [← hsame, hbarber], hactive, hexclude, hox, hox'⟩

/-- What a booking operation that runs alone can commit. -/
inductive BookingCommit (env : Env) (s s' : Database) : Prop where
  /-- A new row, for a start on offer. -/
  | created (row : Appointment) (barber : Barber) (service : Service) (now : ℤ)
      (hresolves : s.Resolves row.barberId row.serviceId barber service)
      (hstop : row.endTime = row.startTime + service.duration)
      (hoffer : s.OnOffer env barber service row.startTime now none)
      (hinsert : insertAppointment env row s = .ok s')
  /-- An active row, moved to a start on offer for it. -/
  | moved (a : Appointment) (u : AppointmentUpdate) (barber : Barber)
      (service : Service) (start now : ℤ)
      (hrow : s.appointment? a.id = some a)
      (hactive : a.status.blocksSlot = true)
      (hresolves : s.Resolves a.barberId a.serviceId barber service)
      (hoffer : s.OnOffer env barber service start now (some a.id))
      (hstart : (u.apply a).startTime = start)
      (hstop : (u.apply a).endTime = start + service.duration)
      (hstatus : (u.apply a).status = a.status)
      (hupdate : updateAppointment env a.id u s = .ok s')
  /-- An active row, given another status. -/
  | settled (a : Appointment) (u : AppointmentUpdate)
      (hrow : s.appointment? a.id = some a)
      (hactive : a.status.blocksSlot = true)
      (hstart : u.startTime = none) (hstop : u.endTime = none)
      (hupdate : updateAppointment env a.id u s = .ok s')
  /-- The stale rows, cancelled. -/
  | expired (stale : List Appointment)
      (hstale : ∀ a ∈ stale, a ∈ s.appointments ∧ a.status = .pending)
      (hupdate : stale.foldlM (fun db a =>
        updateAppointment env a.id (expiry a) db) s = .ok s')
  /-- A task for the broker. -/
  | notified (task : Event × Uuid)
      (hqueue : s' = { s with queue := s.queue ++ [task] })

/-- Bookings touch the appointments and the queue only. -/
theorem BookingCommit.frame
    {env : Env} {s s' : Database} (h : BookingCommit env s s') :
    s' = { s with appointments := s'.appointments, queue := s'.queue } := by
  cases h with
  | created row barber service now _ _ _ hinsert =>
      obtain ⟨rfl, -, -⟩ := insertAppointment_eq_ok hinsert
      rfl
  | moved a u barber service start now _ _ _ _ _ _ _ hupdate =>
      obtain rfl := updateAppointment_eq_ok hupdate
      rfl
  | settled a u _ _ _ _ hupdate =>
      obtain rfl := updateAppointment_eq_ok hupdate
      rfl
  | expired stale _ hupdate =>
      rw [expired_frame hupdate]
  | notified task hqueue =>
      subst hqueue
      rfl

theorem saw_eq_iff {s u : Database} {id : Uuid} {a : Appointment} :
    Saw Eq s id a u ↔ s = u ∧ s.appointment? id = some a := by
  constructor
  · rintro ⟨t, rfl, rfl, ha⟩
    exact ⟨rfl, ha⟩
  · rintro ⟨rfl, ha⟩
    exact ⟨s, rfl, rfl, ha⟩

theorem sawOffer_eq
    {env : Env} {s u : Database} {barber : Barber} {service : Service}
    {start now : ℤ} {exclude : Option Uuid}
    (h : SawOffer Eq env s barber service start now exclude u) :
    s.OnOffer env barber service start now exclude := by
  obtain ⟨t, c, a, b, rfl, rfl, rfl, rfl, rfl, shop, hsells, hbookable⟩ := h
  exact ⟨shop, hsells, hbookable⟩

theorem sameDirectory_of_eq (a b : Database) (h : a = b) : a.SameDirectory b :=
  h ▸ .refl a

/-! ## The writes -/

/-- The write a transaction begun at `s` comes to in `u`, and what it has seen
when `rely` is what others have committed by then. -/
inductive BookingWrite (env : Env) (rely : Database → Database → Prop)
    (s : Database) : BookingOp → (Database → Except Raised Database) →
    Database → Prop where
  | created {u : Database} (customer : User) (payload : AppointmentCreate)
      (now : ℤ) (id : Uuid) (createdAt : ℤ) (barber : Barber)
      (service : Service)
      (hresolves : s.Resolves payload.barberId payload.serviceId barber service)
      (hoffer : SawOffer rely env s barber service payload.startTime.instant now
        none u) :
      BookingWrite env rely s (.create customer payload now id createdAt)
        (orSlotTaken (insertAppointment env (newAppointment customer barber
          (s.barbershop? barber.shopId) service payload.startTime.instant
          (payload.startTime.instant + service.duration) id createdAt))) u
  | moved {u : Database} (user : User) (id : Uuid) (newStart : AwareDatetime)
      (now : ℤ) (a : Appointment) (isStaff : Bool) (barber : Barber) (service : Service)
      (t : Database) (hst : rely s t) (htu : rely t u)
      (hrow : t.appointment? id = some a)
      (hentitled : Entitled rely s user a isStaff u)
      (hactive : a.status.blocksSlot = true)
      (hintime : env.InTime a now isStaff)
      (hresolves : t.Resolves a.barberId a.serviceId barber service)
      (hoffer : SawOffer rely env t barber service newStart.instant now
        (some a.id) u) :
      BookingWrite env rely s (.reschedule user id newStart now)
        (orSlotTaken (updateAppointment env id (.ofChange a
          { a with
            startTime := newStart.instant
            endTime := newStart.instant + service.duration }))) u
  | cancelled {u : Database} (user : User) (id : Uuid)
      (reason : Option String) (now : ℤ) (a : Appointment) (isStaff : Bool)
      (hsaw : Saw rely s id a u) (hentitled : Entitled rely s user a isStaff u)
      (hactive : a.status.blocksSlot = true)
      (hintime : env.InTime a now isStaff) :
      BookingWrite env rely s (.cancel user id reason now)
        (updateAppointment env id (.ofChange a
          { a with
            status := .cancelled
            cancelledById := some user.id
            cancellationReason := reason })) u
  | confirmed {u : Database} (user : User) (id : Uuid) (a : Appointment)
      (hsaw : Saw rely s id a u) (hentitled : Entitled rely s user a true u)
      (hpending : a.status = .pending) :
      BookingWrite env rely s (.confirm user id)
        (updateAppointment env id (.ofChange a { a with status := .confirmed }))
        u
  | closedOut {u : Database} {op : BookingOp} (user : User) (id : Uuid)
      (target : AppointmentStatus) (now : ℤ) (a : Appointment)
      (hop : op.ClosesOut user id target now)
      (hsaw : Saw rely s id a u) (hentitled : Entitled rely s user a true u)
      (hactive : a.status.blocksSlot = true) (hstarted : a.startTime ≤ now) :
      BookingWrite env rely s op
        (updateAppointment env id (.ofChange a { a with status := target })) u
  | expired {u : Database} (now : ℤ) (stale : List Appointment) (t : Database)
      (hst : rely s t) (htu : rely t u)
      (hstale : ∀ a ∈ stale, a ∈ t.appointments ∧ a.status = .pending ∧
        a.createdAt < now - minutes 30) :
      BookingWrite env rely s (.expire now)
        (fun db => stale.foldlM
          (fun db a => updateAppointment env a.id (expiry a) db) db) u

/-- Every write a transaction comes to is in the list. -/
theorem atCommits_transaction
    {rely : Database → Database → Prop} (hrely : IsRely rely)
    (hdir : ∀ a b, rely a b → a.SameDirectory b) (env : Env) (op : BookingOp)
    (s : Database) :
    (op.transaction env).AtCommits rely (BookingWrite env rely s op) s := by
  cases op with
  | create customer payload now id createdAt =>
      exact atCommits_createTransaction hrely hdir
        fun barber service u hres hoffer =>
          .created customer payload now id createdAt barber service hres hoffer
  | reschedule user id newStart now =>
      exact atCommits_rescheduleTransaction hrely hdir
        fun a isStaff barber service t u hst htu hrow hentitled hactive hintime
          hres hoffer => .moved user id newStart now a isStaff barber service t
            hst htu hrow hentitled hactive hintime hres hoffer
  | cancel user id reason now =>
      exact atCommits_cancelTransaction hrely
        fun a isStaff u hsaw hentitled hactive hintime =>
          .cancelled user id reason now a isStaff hsaw hentitled hactive hintime
  | confirm user id =>
      exact atCommits_confirmTransaction hrely
        fun a u hsaw hentitled hpending =>
          .confirmed user id a hsaw hentitled hpending
  | complete user id now =>
      exact atCommits_closeOutTransaction hrely
        fun a u hsaw hentitled hactive hstarted =>
          .closedOut user id .completed now a (Or.inl ⟨rfl, rfl⟩) hsaw hentitled
            hactive hstarted
  | noShow user id now =>
      exact atCommits_closeOutTransaction hrely
        fun a u hsaw hentitled hactive hstarted =>
          .closedOut user id .noShow now a (Or.inr ⟨rfl, rfl⟩) hsaw hentitled
            hactive hstarted
  | expire now =>
      exact AtCommits.before (atCommits_expireStalePending hrely
        fun stale t u hst htu hstale => .expired now stale t hst htu hstale)
          fun _ t => atCommits_done _ t

/-! ## Alone -/

/-- Alone, an accepted write is one of the list. -/
theorem BookingWrite.commit
    {env : Env} {s u u' : Database} {op : BookingOp}
    {w : Database → Except Raised Database}
    (hwrite : BookingWrite env Eq s op w u) (h : w u = .ok u') :
    BookingCommit env u u' := by
  cases hwrite with
  | created customer payload now id createdAt barber service hres hoffer =>
      obtain rfl := hoffer.since_begun isRely_eq
      refine .created _ barber service now ?_ rfl (sawOffer_eq hoffer)
        (orSlotTaken_eq_ok_iff.mp h)
      dsimp only [newAppointment]
      rw [hres.barber_id, hres.service_id]
      exact hres
  | moved user id newStart now a isStaff barber service t hst htu hrow hentitled
      hactive hintime hres hoffer =>
      subst hst htu
      obtain rfl := key_of_lookup hrow
      refine .moved a _ barber service newStart.instant now hrow hactive hres
        (sawOffer_eq hoffer) ?_ ?_ ?_ (orSlotTaken_eq_ok_iff.mp h)
      · exact AppointmentUpdate.startTime_apply_ofChange _ _
      · exact AppointmentUpdate.endTime_apply_ofChange _ _
      · exact AppointmentUpdate.status_apply_ofChange _ _
  | cancelled user id reason now a isStaff hsaw hentitled hactive hintime =>
      obtain ⟨rfl, ha⟩ := saw_eq_iff.mp hsaw
      obtain rfl := key_of_lookup ha
      exact .settled a _ ha hactive (if_pos rfl) (if_pos rfl) h
  | confirmed user id a hsaw hentitled hpending =>
      obtain ⟨rfl, ha⟩ := saw_eq_iff.mp hsaw
      obtain rfl := key_of_lookup ha
      exact .settled a _ ha (by rw [hpending]; rfl) (if_pos rfl) (if_pos rfl) h
  | closedOut user id target now a hop hsaw hentitled hactive hstarted =>
      obtain ⟨rfl, ha⟩ := saw_eq_iff.mp hsaw
      obtain rfl := key_of_lookup ha
      exact .settled a _ ha hactive (if_pos rfl) (if_pos rfl) h
  | expired now stale t hst htu hstale =>
      subst hst htu
      exact .expired stale (fun a ha => ⟨(hstale a ha).1, (hstale a ha).2.1⟩) h

/-- Run alone, the check against the offer passes for starts on offer only. -/
theorem onOffer_of_run
    {env : Env} {s t : Database} {barber : Barber} {service : Service}
    {start : AwareDatetime} {now : ℤ} {exclude : Option Uuid}
    (hbarber : s.barber? barber.id = some barber)
    (hservice : s.service? service.id = some service)
    (h : (assertOnOffer env barber service start now exclude).run s =
      (.ok (), t)) :
    s.OnOffer env barber service start.instant now exclude ∧ s = t := by
  have hlearns : (assertOnOffer env barber service start now exclude).Learns
      Eq (fun _ _ => True)
      (fun _ u => SawOffer Eq env s barber service start.instant now exclude
        u) s :=
    learns_assertOnOffer isRely_eq sameDirectory_of_eq env start now exclude
      hbarber hservice
  have hsaw := hlearns.of_run isRely_eq h
  refine ⟨sawOffer_eq hsaw, ?_⟩
  obtain ⟨t, c, a, b, rfl, rfl, rfl, rfl, rfl, -⟩ := hsaw
  rfl

theorem appointment?_of_run_loadForAction
    {s t : Database} {user : User} {id : Uuid} {loaded : LoadedAppointment}
    {isStaff : Bool}
    (h : (loadForAction user id).run s = (.ok (loaded, isStaff), t)) :
    s = t ∧ s.appointment? id = some loaded.appointment := by
  have hlearns : (loadForAction user id).Learns Eq (fun _ _ => True)
      (fun p u => Loaded Eq s user id p.1.appointment p.2 u) s :=
    learns_loadForAction isRely_eq user id s
  exact saw_eq_iff.mp (hlearns.of_run isRely_eq h).saw

theorem allowed_of_run_requireStatus
    {s t : Database} {a : Appointment} {allowed : AppointmentStatus → Bool}
    {refusal : String}
    (h : (requireStatus a allowed refusal).run s = (.ok (), t)) :
    s = t ∧ allowed a.status = true := by
  have hlearns : (requireStatus a allowed refusal).Learns Eq (fun _ _ => True)
      (fun _ _ => allowed a.status = true ∧ True) s :=
    learns_requireStatus (fun _ _ h _ => h) trivial
  exact ⟨(readOnly_require _ _).eq_of_run h, (hlearns.of_run isRely_eq h).1⟩

theorem readOnly_getAppointment (user : User) (id : Uuid) :
    (getAppointment user id).ReadOnly := by
  unfold getAppointment load mayView
  apply ((readOnly_query _).bind fun _ => readOnly_rowOr _ _).bind
  intro loaded
  refine ReadOnly.bind ?_ fun may =>
    (readOnly_require _ _).bind fun _ => readOnly_ofExcept _
  split
  · trivial
  · exact readOnly_isStaffFor user loaded

theorem learns_appointmentEvent
    {rely guar : Database → Database → Prop} (env : Env) (event : Event)
    (id : Uuid) (s : Database)
    (h : ∀ t, guar t { t with queue := t.queue ++ [(event, id)] }) :
    (appointmentEvent env event id).Learns rely guar (fun _ _ => True) s := by
  rw [appointmentEvent]
  split
  · refine learns_write fun t t' _ hw => ⟨?_, fun _ _ => trivial⟩
    obtain rfl := Except.ok.inj hw
    exact h t
  · exact learns_done fun _ _ _ _ => trivial

/-- What follows the transaction of a request commits at most a task. -/
theorem learns_followUp
    {rely guar : Database → Database → Prop} (hrely : IsRely rely)
    {env : Env} {transaction : Request Unit} (event : Event) (user : User)
    (id : Uuid) {s : Database}
    (hqueue : ∀ t, guar t { t with queue := t.queue ++ [(event, id)] })
    (h : transaction.Learns rely guar (fun _ _ => True) s) :
    (discard (do
      transaction
      appointmentEvent env event id
      getAppointment user id)).Learns rely guar (fun _ _ => True) s := by
  have hread : ∀ t, (getAppointment user id).Learns rely guar
      (fun _ _ => True) t := fun t =>
    (readOnly_getAppointment user id).learns (fun _ _ h _ => h) trivial
  refine Learns.bind hrely (Learns.bind hrely h fun _ t _ =>
    Learns.bind hrely (learns_appointmentEvent env event id t hqueue)
      fun _ u _ => hread u) fun _ _ _ => learns_done fun _ _ _ _ => trivial

/-- What follows the transaction of an operation commits at most a task. -/
theorem learns_program
    {rely guar : Database → Database → Prop} (hrely : IsRely rely)
    {env : Env} {op : BookingOp} {s : Database}
    (hqueue : ∀ event id t, guar t { t with queue := t.queue ++ [(event, id)] })
    (h : (op.transaction env).Learns rely guar (fun _ _ => True) s) :
    (op.program env).Learns rely guar (fun _ _ => True) s := by
  have hcloseOut : ∀ user id target now,
      (closeOutTransaction env user id target now).Learns rely guar
        (fun _ _ => True) s →
      (discard (closeOut env user id target now)).Learns rely guar
        (fun _ _ => True) s := by
    intro user id target now h
    have hread : ∀ t, (getAppointment user id).Learns rely guar
        (fun _ _ => True) t := fun t =>
      (readOnly_getAppointment user id).learns (fun _ _ h _ => h) trivial
    exact Learns.bind hrely (Learns.bind hrely h fun _ t _ => hread t)
      fun _ _ _ => learns_done fun _ _ _ _ => trivial
  cases op with
  | create customer payload now id createdAt =>
      exact learns_followUp hrely .created customer id (hqueue .created id) h
  | reschedule user id newStart now =>
      exact learns_followUp hrely .rescheduled user id
        (hqueue .rescheduled id) h
  | cancel user id reason now =>
      exact learns_followUp hrely .cancelled user id (hqueue .cancelled id) h
  | confirm user id =>
      exact learns_followUp hrely .created user id (hqueue .created id) h
  | complete user id now => exact hcloseOut user id .completed now h
  | noShow user id now => exact hcloseOut user id .noShow now h
  | expire now => exact h

/-- Every operation, run alone, commits only what the list says. -/
theorem bookingOp_commits (env : Env) (op : BookingOp) (s : Database) :
    (op.program env).Learns Eq (BookingCommit env) (fun _ _ => True) s := by
  refine learns_program isRely_eq (fun event id t => .notified (event, id) rfl)
    (AtCommits.learns ?_)
  exact (atCommits_transaction isRely_eq sameDirectory_of_eq env op s).mono
    fun w u hw u' h => hw.commit h

/-- An invariant that every commit keeps is kept by every operation. -/
theorem bookingOp_keeps
    {env : Env} {Inv : Database → Prop}
    (hcommit : ∀ s s', Inv s → BookingCommit env s s' → Inv s')
    (op : BookingOp) {db : Database} (hdb : Inv db) :
    Inv ((op.program env).run db).2 :=
  (Ensures.run isRely_eq (bookingOp_commits env op db) hdb hcommit).2

end BarberHub
