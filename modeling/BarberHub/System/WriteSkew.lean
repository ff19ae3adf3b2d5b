import BarberHub.Support.Pools
import BarberHub.System.BlockedTime

/-!
# Booking time while it is being blocked

A booking looks at breaks and closures and writes an appointment; a break or a
closure looks at appointments and writes itself.  No constraint spans the
tables, so under READ COMMITTED two transactions that have both looked can both
commit.  Bookings stay clear of blocked time as long as no transaction commits
into what another one, still in flight, looks for; one pair that overlaps is
enough to record a break over a booking.
-/

namespace BarberHub

open HalfOpen KeyedTable ReadCommitted Program Pool

/-- A transaction that books time or blocks it. -/
inductive TimeRequest where
  | create (customer : User) (payload : AppointmentCreate) (now : ℤ)
      (id : Uuid) (createdAt : ℤ)
  | reschedule (user : User) (id : Uuid) (newStart : AwareDatetime) (now : ℤ)
  | createBreak (user : User) (barberId : Uuid) (payload : BreakCreate)
      (id : Uuid)
  | createClosure (user : User) (shopId : Uuid) (payload : ClosureCreate)
      (id : Uuid)
  deriving DecidableEq, Repr

/-- What was off the barber's blocked time still is. -/
structure Database.StaysOff (env : Env) (s s' : Database) (barberId : Uuid)
    (start stop : ℤ) : Prop where
  breaks : s.OffBreaks barberId start stop → s'.OffBreaks barberId start stop
  closures : s.OffClosures env barberId start stop →
    s'.OffClosures env barberId start stop

namespace TimeRequest

/-- The transaction, up to its commit. -/
def program (env : Env) : TimeRequest → Request Unit
  | create customer payload now id createdAt =>
      createTransaction env customer payload now id createdAt
  | reschedule user id newStart now =>
      rescheduleTransaction env user id newStart now
  | createBreak user barberId payload id =>
      BarberHub.createBreak user barberId payload id
  | createClosure user shopId payload id =>
      BarberHub.createClosure env user shopId payload id

/-- A commit that the transaction can bear between its reads and its own
commit: the time it books does not become blocked, the row it moves keeps its
times, and no appointment appears in the period it blocks. -/
def Tolerates (env : Env) (request : TimeRequest) (s s' : Database) : Prop :=
  match request with
  | create _ payload _ _ _ =>
      ∀ service, s.service? payload.serviceId = some service →
        s.StaysOff env s' payload.barberId payload.startTime.instant
          (payload.startTime.instant + service.duration)
  | reschedule _ id newStart _ =>
      ∀ a a', s.appointment? id = some a → s'.appointment? id = some a' →
        (a'.startTime = a.startTime ∧ a'.endTime = a.endTime) ∧
        ∀ service, s.service? a.serviceId = some service →
          s.StaysOff env s' a.barberId newStart.instant
            (newStart.instant + service.duration)
  | createBreak _ barberId payload _ =>
      s.clashes payload.startDatetime payload.endDatetime
          (·.barberId = barberId) = [] →
        s'.clashes payload.startDatetime payload.endDatetime
          (·.barberId = barberId) = []
  | createClosure _ shopId payload _ =>
      ∀ shop, s.barbershop? shopId = some shop →
        s.clashes (payload.start (env.shopTimezone shop))
            (payload.stop (env.shopTimezone shop)) (s.AtShop shop.id) = [] →
          s'.clashes (payload.start (env.shopTimezone shop))
            (payload.stop (env.shopTimezone shop)) (s'.AtShop shop.id) = []

end TimeRequest

variable {ι : Type} [DecidableEq ι]

/-- The transactions before any has begun. -/
def timePool (env : Env) (requests : ι → TimeRequest) (db : Database) :
    Pool ι Database Raised Unit where
  committed := db
  running i := (requests i).program env

/-! ## One commit -/

/-- The appointments that were there still are, for the same barber and
service. -/
def Database.KeepsRows (s s' : Database) : Prop :=
  ∀ id a, s.appointment? id = some a →
    ∃ a', s'.appointment? id = some a' ∧ a'.barberId = a.barberId ∧
      a'.serviceId = a.serviceId

/-- What others may commit while the transaction is in flight. -/
structure TimeRely (env : Env) (request : TimeRequest) (s s' : Database) :
    Prop where
  directory : s.SameDirectory s'
  rows : s.KeepsRows s'
  tolerates : request.Tolerates env s s'

/-- What every run keeps. -/
structure Database.KeptClear (env : Env) (db : Database) : Prop where
  keys : UniqueKeys Appointment.id db.appointments
  clear : db.Clear env

/-- What a transaction commits. -/
structure TimeGuarantee (env : Env) (s s' : Database) : Prop where
  directory : s.SameDirectory s'
  rows : s.KeepsRows s'
  clear : s.KeptClear env → s'.KeptClear env

section

variable {env : Env} {s s' u : Database}

theorem Database.StaysOff.refl (barberId : Uuid) (start stop : ℤ) :
    s.StaysOff env s barberId start stop :=
  ⟨fun h => h, fun h => h⟩

theorem Database.StaysOff.trans {barberId : Uuid} {start stop : ℤ}
    (h : s.StaysOff env s' barberId start stop)
    (h' : s'.StaysOff env u barberId start stop) :
    s.StaysOff env u barberId start stop :=
  ⟨fun hoff => h'.breaks (h.breaks hoff),
    fun hoff => h'.closures (h.closures hoff)⟩

theorem Database.KeepsRows.trans
    (h : s.KeepsRows s') (h' : s'.KeepsRows u) : s.KeepsRows u := by
  intro id a ha
  obtain ⟨b, hb, hbarber, hservice⟩ := h id a ha
  obtain ⟨c, hc, hbarber', hservice'⟩ := h' id b hb
  exact ⟨c, hc, hbarber'.trans hbarber, hservice'.trans hservice⟩

theorem Database.KeepsRows.of_eq
    (h : s'.appointments = s.appointments) : s.KeepsRows s' := by
  intro id a ha
  refine ⟨a, ?_, rfl, rfl⟩
  rw [appointment?] at ha ⊢
  rw [h]
  exact ha

theorem TimeRequest.Tolerates.trans {request : TimeRequest}
    (hdir : s.SameDirectory s') (hrows : s.KeepsRows s')
    (h : request.Tolerates env s s') (h' : request.Tolerates env s' u) :
    request.Tolerates env s u := by
  cases request with
  | create customer payload now id createdAt =>
      intro service hservice
      exact (h service hservice).trans (h' service (hdir.service? ▸ hservice))
  | reschedule user id newStart now =>
      intro a c ha hc
      obtain ⟨b, hb, hbarber, hservice⟩ := hrows id a ha
      obtain ⟨⟨hstart, hstop⟩, hoff⟩ := h a b ha hb
      obtain ⟨⟨hstart', hstop'⟩, hoff'⟩ := h' b c hb hc
      refine ⟨⟨hstart'.trans hstart, hstop'.trans hstop⟩, ?_⟩
      intro service hs
      have hlater := hoff' service (by rw [hservice, ← hdir.service?, hs])
      rw [hbarber] at hlater
      exact (hoff service hs).trans hlater
  | createBreak user barberId payload id => exact fun hnone => h' (h hnone)
  | createClosure user shopId payload id =>
      intro shop hshop hnone
      exact h' shop (hdir.barbershop? ▸ hshop) (h shop hshop hnone)

theorem isRely_timeRely (env : Env) (request : TimeRequest) :
    IsRely (TimeRely env request) where
  refl s := by
    refine ⟨.refl s, .of_eq rfl, ?_⟩
    cases request with
    | create customer payload now id createdAt =>
        exact fun service _ => .refl _ _ _
    | reschedule user id newStart now =>
        intro a a' ha ha'
        obtain rfl := Option.some.inj (ha.symm.trans ha')
        exact ⟨⟨rfl, rfl⟩, fun service _ => .refl _ _ _⟩
    | createBreak user barberId payload id => exact fun hnone => hnone
    | createClosure user shopId payload id => exact fun _ _ hnone => hnone
  trans h h' := ⟨h.directory.trans h'.directory, h.rows.trans h'.rows,
    h.tolerates.trans h.directory h.rows h'.tolerates⟩

/-- An INSERT of an appointment clear of blocked time. -/
theorem timeGuarantee_insert {row : Appointment}
    (hrow : s.ClearFor env row.barberId row.startTime row.endTime)
    (hinsert : insertAppointment env row s = .ok s') :
    TimeGuarantee env s s' := by
  obtain ⟨heq, hfresh, -⟩ := insertAppointment_eq_ok hinsert
  refine ⟨?_, ?_, fun h => ⟨?_, h.clear.insert hrow hinsert⟩⟩
  · rw [heq]
    exact ⟨rfl, rfl, rfl, rfl, rfl, rfl⟩
  · intro id a ha
    rw [heq]
    exact ⟨a, lookup_append_of_some ha, rfl, rfl⟩
  · rw [heq]
    exact h.keys.append_singleton hfresh

/-- An UPDATE that leaves its row clear of blocked time. -/
theorem timeGuarantee_update {id : Uuid} {u : AppointmentUpdate}
    (hrow : ∀ row, s.appointment? id = some row →
      s.ClearFor env row.barberId (u.apply row).startTime (u.apply row).endTime)
    (hupdate : updateAppointment env id u s = .ok s') :
    TimeGuarantee env s s' := by
  have heq := updateAppointment_eq_ok hupdate
  refine ⟨?_, ?_, fun h => ⟨?_, ?_⟩⟩
  · rw [heq]
    exact ⟨rfl, rfl, rfl, rfl, rfl, rfl⟩
  · intro key a ha
    rw [heq]
    by_cases hkey : key = id
    · subst hkey
      rw [appointment?_updateAt, ha]
      exact ⟨u.apply a, rfl, rfl, rfl⟩
    · rw [appointment?_updateAt_of_ne _ _ hkey]
      exact ⟨a, ha, rfl, rfl⟩
  · rw [heq]
    exact h.keys.updateAt fun _ _ _ => rfl
  · exact h.clear.update h.keys (fun row hfound _ => hrow row hfound) hupdate

/-- An INSERT of blocked time. -/
theorem timeGuarantee_block
    (hdir : s.SameDirectory s') (hrows : s'.appointments = s.appointments)
    (hclear : s.KeptClear env → s'.Clear env) : TimeGuarantee env s s' := by
  refine ⟨hdir, .of_eq hrows, fun h => ⟨?_, hclear h⟩⟩
  rw [hrows]
  exact h.keys

/-! ## The transactions -/

/-- What was seen on offer is off blocked time at the commit, when nothing
committed since has spoiled it. -/
theorem SawOffer.clearFor
    (hmid : env.MidnightsOrdered) {rely : Database → Database → Prop}
    (hrely : IsRely rely) (hdir : ∀ a b, rely a b → a.SameDirectory b)
    {barber : Barber} {service : Service} {start now : ℤ}
    {exclude : Option Uuid}
    (hstays : ∀ c d, rely s c → rely c d →
      c.StaysOff env d barber.id start (start + service.duration))
    (h : SawOffer rely env s barber service start now exclude u) :
    u.ClearFor env barber.id start (start + service.duration) := by
  obtain ⟨t, c, a, b, hst, htc, hca, hab, hbu, shop, hsells, hbookable⟩ := h
  have hsc := hrely.trans hst htc
  have hcb := hrely.trans hca hab
  refine ⟨(hstays b u (hrely.trans hsc hcb) hbu).breaks hbookable.no_break,
    (hstays c u hsc (hrely.trans hcb hbu)).closures ?_⟩
  -- the closures were read at `c`, the directory at `t`
  have hoff := hbookable.offClosures hmid
    ((t.sameDirectory_seenAs c a b).sells_iff.mp hsells)
  intro barber' shop' hbarber hshop x hx hx'
  have hdirt := hdir t c htc
  rw [← hdirt.barber?] at hbarber
  rw [← hdirt.barbershop?] at hshop
  exact hoff barber' shop' hbarber hshop x hx hx'

/-- Every transaction keeps the guarantee against commits it tolerates. -/
theorem timeRequest_ensures
    (hmid : env.MidnightsOrdered) (request : TimeRequest) (s : Database) :
    (request.program env).Learns (TimeRely env request) (TimeGuarantee env)
      (fun _ _ => True) s := by
  have hrely := isRely_timeRely env request
  have hdir : ∀ a b, TimeRely env request a b → a.SameDirectory b :=
    fun _ _ h => h.directory
  cases request with
  | create customer payload now id createdAt =>
      apply learns_createTransaction hrely hdir
      intro barber service u u' hres hoffer hinsert
      refine timeGuarantee_insert ?_ hinsert
      apply hoffer.clearFor hmid hrely hdir
      intro c d hsc hcd
      rw [hres.barber_id]
      refine hcd.tolerates service ?_
      rw [← (hdir s c hsc).service?]
      exact hres.service_eq
  | reschedule user id newStart now =>
      apply learns_rescheduleTransaction hrely hdir
      intro a barber service t u u' hst htu ha _ hres hoffer hupdate
      have hclear : u.ClearFor env barber.id newStart.instant
          (newStart.instant + service.duration) := by
        apply hoffer.clearFor hmid hrely hdir
        intro c d htc hcd
        obtain ⟨b, hb, hbarber, hservice⟩ := htc.rows id a ha
        obtain ⟨b', hb', -⟩ := hcd.rows id b hb
        have hoff := (hcd.tolerates b b' hb hb').2 service (by
          rw [hservice, ← (hdir t c htc).service?]
          exact hres.service_eq)
        rw [hbarber, ← hres.barber_id] at hoff
        exact hoff
      refine timeGuarantee_update ?_ hupdate
      intro row hfound
      obtain ⟨b, hb, hbarber, -⟩ := htu.rows id a ha
      obtain rfl := Option.some.inj (hb.symm.trans hfound)
      -- a time that is not written is the one the transaction read
      obtain ⟨hstart, hstop⟩ := (htu.tolerates a b ha hb).1
      rw [hbarber, ← hres.barber_id]
      simp only [AppointmentUpdate.apply, AppointmentUpdate.ofChange, hstart,
        hstop, changedTo_getD]
      exact hclear
  | createBreak user barberId payload id =>
      apply learns_createBreak hrely
      intro t u u' _ htu hnone hinsert
      refine timeGuarantee_block ?_ ?_ fun h =>
        h.clear.insertBreak (htu.tolerates hnone) hinsert
      · rw [insertBreak_eq_ok hinsert]
        exact ⟨rfl, rfl, rfl, rfl, rfl, rfl⟩
      · rw [insertBreak_eq_ok hinsert]
  | createClosure user shopId payload id =>
      apply learns_createClosure hrely hdir
      intro shop t u u' hshop hst htu hnone hinsert
      refine timeGuarantee_block ?_ ?_ ?_
      · rw [insertClosure_eq_ok hinsert]
        exact ⟨rfl, rfl, rfl, rfl, rfl, rfl⟩
      · rw [insertClosure_eq_ok hinsert]
      · intro h
        have hshopt : t.barbershop? shopId = some shop :=
          (hdir s t hst).barbershop? ▸ hshop
        have hshopu : u.barbershop? shopId = some shop :=
          (hdir t u htu).barbershop? ▸ hshopt
        have hkept := htu.tolerates shop hshopt hnone
        have hid := key_of_lookup hshopu
        subst hid
        have hrow : u.barbershop? (payload.row shop.id id).shopId =
            some shop := hshopu
        exact h.clear.insertClosure hmid hrow hkept hinsert

end

/-! ## Whole runs -/

/-- No active appointment meets blocked time in any state the schedule goes
through. -/
def ClearThroughout (env : Env) (requests : ι → TimeRequest) (db : Database)
    (schedule : List ι) : Prop :=
  ∀ first, first <+: schedule →
    ((timePool env requests db).exec first).committed.Clear env

omit [DecidableEq ι] in
/-- The transactions, verified together. -/
theorem timePool_verified
    (env : Env) (requests : ι → TimeRequest) {db : Database}
    (hmid : env.MidnightsOrdered) (hclear : db.KeptClear env) :
    (timePool env requests db).Verified (Database.KeptClear env)
      (fun _ _ => True) (fun i => TimeRely env (requests i))
      (fun _ => TimeGuarantee env) (fun i => (requests i).Tolerates env)
      (fun _ _ _ => True) where
  isRely i := isRely_timeRely env (requests i)
  init := hclear
  begin_init _ := trivial
  begin_keep _ _ _ _ _ _ _ _ := trivial
  start i s _ _ := Ensures.mono (timeRequest_ensures hmid (requests i) s)
    (fun _ _ h => h) fun _ _ _ => trivial
  inv _ _ _ hs h := h.clear hs
  compat _ _ _ _ _ _ h htol := ⟨h.directory, h.rows, htol⟩
  answer _ _ _ _ _ _ _ _ _ := trivial

/-- In every run in which no transaction commits into what another one in
flight looks for, bookings stay clear of blocked time in every state. -/
theorem blocking_excludes_booking
    (env : Env) (requests : ι → TimeRequest) (db : Database)
    (schedule : List ι) (hmid : env.MidnightsOrdered) (hvalid : db.Valid)
    (hclear : db.Clear env)
    (htol : (timePool env requests db).Tolerant
      (fun i => (requests i).Tolerates env) schedule) :
    ClearThroughout env requests db schedule := by
  intro first hfirst
  have hpool := timePool_verified env requests hmid
    ⟨hvalid.keys.appointments, hclear⟩
  exact (hpool.invariant (htol.of_prefix hfirst)).clear

/-! ## A break over a booking -/

/-- A customer books nine o'clock; the shop blocks it for a break. -/
def bookAndBlock : Bool → TimeRequest
  | false => .create Sample.customer ⟨20, 30, Sample.start 9 0⟩
      (Sample.clock 8 0) 40 (Sample.clock 8 0)
  | true => .createBreak Sample.admin 20
      ⟨Sample.clock 9 0, Sample.clock 9 30, none⟩ 70

theorem blocking_excludes_booking_one_after_the_other :
    ClearThroughout twoZones bookAndBlock Sample.db
      (List.replicate 12 false ++ List.replicate 3 true) := by
  refine blocking_excludes_booking _ _ _ _ twoZones_midnightsOrdered
    Sample.db_valid Sample.db_clear ?_
  exact tolerant_serial false true 12 3 (by decide +kernel)

/-- When the booking has read the breaks before the break is recorded, and
commits after, both are there. -/
theorem booking_blocked_while_made :
    ¬ ClearThroughout twoZones bookAndBlock Sample.db
      (List.replicate 11 false ++ [true, true, true] ++ [false]) := by
  intro h
  have hclear := h _ (List.prefix_refl _)
  have hrow : ∃ a ∈ ((timePool twoZones bookAndBlock Sample.db).exec
      (List.replicate 11 false ++ [true, true, true] ++ [false])
        ).committed.appointments,
      a.status.blocksSlot = true ∧ a.barberId = 20 ∧
        a.startTime = Sample.clock 9 0 ∧ a.endTime = Sample.clock 9 30 := by
    decide +kernel
  obtain ⟨a, ha, hactive, hbarber, hstart, hstop⟩ := hrow
  have hfor := hclear a ha hactive
  rw [hbarber, hstart, hstop] at hfor
  refine hfor.no_break (Sample.clock 9 0) (le_refl _) (by decide) ?_
  have hbreak : ∃ b ∈ ((timePool twoZones bookAndBlock Sample.db).exec
      (List.replicate 11 false ++ [true, true, true] ++ [false])
        ).committed.barberBreaks,
      b.barberId = 20 ∧ b.startDatetime ≤ Sample.clock 9 0 ∧
        Sample.clock 9 0 < b.endDatetime := by decide +kernel
  exact hbreak

end BarberHub
