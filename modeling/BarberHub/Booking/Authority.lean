import BarberHub.Booking.Exclusion
import BarberHub.Booking.Offers

/-!
# Who changes an appointment, and when

The rules of `docs/SPEC.md` for changing an appointment: its customer may
cancel or move it before the cutoff, the staff at any time while it is active,
and only the staff confirm it or close it out.  This module shows that no run
of operations breaks them.
-/

namespace BarberHub

open HalfOpen KeyedTable ReadCommitted Program

/-- The user is an administrator, the account of the appointment's barber, or
the owner of that barber's shop. -/
def Database.StaffFor (db : Database) (user : User) (a : Appointment) : Prop :=
  user.role = .admin ∨ ∃ barber, db.barber? a.barberId = some barber ∧
    (barber.userId = user.id ∨ ∃ shop,
      db.barbershop? barber.shopId = some shop ∧ shop.ownerId = user.id)

namespace BookingOp

/-- The user whose request it is, none for the task. -/
def caller : BookingOp → Option User
  | create customer _ _ _ _ => some customer
  | reschedule user _ _ _ => some user
  | cancel user _ _ _ => some user
  | confirm user _ => some user
  | complete user _ _ => some user
  | noShow user _ _ => some user
  | expire _ => none

/-- The request cancels the appointment or moves it. -/
def CancelsOrMoves (op : BookingOp) (user : User) (id : Uuid) (now : ℤ) :
    Prop :=
  (∃ reason, op = cancel user id reason now) ∨
    ∃ newStart, op = reschedule user id newStart now

/-- What must hold in `s` for a request of the user to turn `a` into `a'`. -/
structure Permitted (env : Env) (s : Database) (op : BookingOp) (user : User)
    (a a' : Appointment) : Prop where
  caller : op.caller = some user
  involved : a.customerId = user.id ∨ s.StaffFor user a
  active : a.status.blocksSlot = true
  in_time : ¬ s.StaffFor user a → ∃ now, op.CancelsOrMoves user a.id now ∧
    now < a.startTime - minutes env.settings.appointmentChangeCutoffMinutes
  closed : a'.status = .completed ∨ a'.status = .noShow →
    ∃ now, op.ClosesOut user a.id a'.status now ∧ a.startTime ≤ now

end BookingOp

/-- What an operation may do to the appointments: rows stay, they change by a
permitted request or by the confirmation timeout, and new ones are active. -/
structure RulesKept (env : Env) (op : BookingOp) (s s' : Database) : Prop where
  keys : UniqueKeys Appointment.id s'.appointments
  kept : ∀ id a, s.appointment? id = some a →
    ∃ a', s'.appointment? id = some a' ∧ a.Continues a'
  changed : ∀ id a a', s.appointment? id = some a →
    s'.appointment? id = some a' → a' ≠ a →
      (∃ user, op.Permitted env s user a a') ∨
        (∃ now, op = .expire now) ∧ a.status = .pending ∧ a.Expired a'
  added : ∀ id a', s.appointment? id = none → s'.appointment? id = some a' →
    a'.status.blocksSlot = true

section

variable {env : Env} {op : BookingOp} {s s' : Database}

theorem RulesKept.refl (hkeys : UniqueKeys Appointment.id s.appointments) :
    RulesKept env op s s where
  keys := hkeys
  kept _ a ha := ⟨a, ha, .refl a⟩
  changed _ _ _ ha ha' hne :=
    absurd (Option.some.inj (ha'.symm.trans ha)) hne
  added _ _ hnone hsome := by
    rw [hnone] at hsome
    simp at hsome

theorem RulesKept.of_appointments_eq
    {t : Database} (h : RulesKept env op s s')
    (heq : t.appointments = s'.appointments) : RulesKept env op s t := by
  have hrow : ∀ id, t.appointment? id = s'.appointment? id := fun id => by
    rw [Database.appointment?, Database.appointment?, heq]
  refine ⟨heq ▸ h.keys, ?_, ?_, ?_⟩
  · intro id a ha
    rw [hrow]
    exact h.kept id a ha
  · intro id a a' ha ha' hne
    rw [hrow] at ha'
    exact h.changed id a a' ha ha' hne
  · intro id a' hnone ha'
    rw [hrow] at ha'
    exact h.added id a' hnone ha'

theorem RulesKept.insert
    {row : Appointment} (hkeys : UniqueKeys Appointment.id s.appointments)
    (hactive : row.status.blocksSlot = true)
    (h : insertAppointment env row s = .ok s') : RulesKept env op s s' := by
  obtain ⟨rfl, hfresh, -⟩ := insertAppointment_eq_ok h
  have hold : ∀ id a, s.appointment? id = some a →
      lookup Appointment.id (s.appointments ++ [row]) id = some a :=
    fun id a ha => lookup_append_of_some ha
  refine ⟨hkeys.append_singleton hfresh, fun id a ha => ⟨a, hold id a ha, .refl a⟩,
    ?_, ?_⟩
  · intro id a a' ha ha' hne
    exact absurd (Option.some.inj (ha'.symm.trans (hold id a ha))) hne
  · intro id a' hnone ha'
    rcases List.mem_append.mp (mem_of_lookup ha') with hmem | hmem
    · exact absurd (key_of_lookup ha') (lookup_eq_none_iff.mp hnone a' hmem)
    · obtain rfl := List.mem_singleton.mp hmem
      exact hactive

theorem RulesKept.update
    (user : User) {id : Uuid} {u : AppointmentUpdate} {a : Appointment}
    (hkeys : UniqueKeys Appointment.id s.appointments)
    (hrow : s.appointment? id = some a)
    (hpermitted : op.Permitted env s user a (u.apply a))
    (h : updateAppointment env id u s = .ok s') : RulesKept env op s s' := by
  obtain rfl := updateAppointment_eq_ok h
  refine ⟨hkeys.updateAt fun _ _ _ => rfl, ?_, ?_, ?_⟩
  · intro id' b hb
    by_cases hid : id' = id
    · subst hid
      refine ⟨u.apply b, ?_, AppointmentUpdate.continues_apply u b⟩
      rw [appointment?_updateAt, hb]
      rfl
    · exact ⟨b, by rw [appointment?_updateAt_of_ne s u hid, hb], .refl b⟩
  · intro id' b b' hb hb' hne
    by_cases hid : id' = id
    · subst hid
      rw [appointment?_updateAt, hb] at hb'
      obtain rfl := Option.some.inj hb'
      obtain rfl := Option.some.inj (hrow.symm.trans hb)
      exact Or.inl ⟨user, hpermitted⟩
    · rw [appointment?_updateAt_of_ne s u hid, hb] at hb'
      exact absurd (Option.some.inj hb').symm hne
  · intro id' b' hnone hb'
    have hne : id' ≠ id := by
      rintro rfl
      rw [hrow] at hnone
      simp at hnone
    rw [appointment?_updateAt_of_ne s u hne, hnone] at hb'
    simp at hb'

theorem RulesKept.expired
    {now : ℤ} {stale : List Appointment}
    (hkeys : UniqueKeys Appointment.id s.appointments)
    (hstale : ∀ a ∈ stale, a ∈ s.appointments ∧ a.status = .pending)
    (h : stale.foldlM (fun db a => updateAppointment env a.id (expiry a) db) s =
      .ok s') : RulesKept env (.expire now) s s' := by
  have hrows := fun id =>
    expired_rows id (fun a ha => (hstale a ha).2) h
  obtain ⟨-, hids, -⟩ := hrows 0
  refine ⟨by rw [UniqueKeys, hids]; exact hkeys, fun id a ha => ?_,
    fun id a a' ha ha' hne => ?_, fun id a' hnone ha' => ?_⟩
  · obtain ⟨-, -, hrow⟩ := hrows id
    obtain ⟨a', ha', rfl | ⟨hexpired, -⟩⟩ := hrow a ha
    · exact ⟨a', ha', .refl a'⟩
    · exact ⟨a', ha', hexpired.continues⟩
  · obtain ⟨-, -, hrow⟩ := hrows id
    obtain ⟨b, hb, hcases⟩ := hrow a ha
    obtain rfl := Option.some.inj (ha'.symm.trans hb)
    rcases hcases with heq | ⟨hexpired, c, hc, hid⟩
    · exact absurd heq hne
    · -- the row the job has selected is the one that is stored
      have hstored := hkeys.lookup_eq_some_iff.mpr ⟨(hstale c hc).1, hid⟩
      obtain rfl := Option.some.inj (hstored.symm.trans ha)
      exact Or.inr ⟨⟨now, rfl⟩, (hstale c hc).2, hexpired⟩
  · obtain ⟨b, hb⟩ := exists_appointment?_of_ids hids.symm ha'
    rw [hnone] at hb
    simp at hb

/-- Alone, what a request has found out about its caller is true. -/
theorem Entitled.staffFor
    {user : User} {a : Appointment} {isStaff : Bool} {u : Database}
    (h : Entitled Eq s user a isStaff u) (hstaff : isStaff = true) :
    s.StaffFor user a := by
  apply (h.staff hstaff).imp_right
  rintro ⟨t, barber, rfl, -, hbarber, hrole⟩
  refine ⟨barber, hbarber, hrole.imp_right ?_⟩
  rintro ⟨v, shop, rfl, -, hshop, howner⟩
  exact ⟨shop, hshop, howner⟩

theorem Entitled.involved
    {user : User} {a : Appointment} {isStaff : Bool} {u : Database}
    (h : Entitled Eq s user a isStaff u) :
    a.customerId = user.id ∨ s.StaffFor user a := by
  rcases h.participant with hstaff | hown
  · exact Or.inr (h.staffFor hstaff)
  · exact Or.inl hown

/-- Every accepted write of an operation that runs alone keeps the rules. -/
theorem BookingWrite.rulesKept
    {u u' : Database} {w : Database → Except Raised Database}
    (hkeys : UniqueKeys Appointment.id s.appointments)
    (hwrite : BookingWrite env Eq s op w u) (h : w u = .ok u') :
    RulesKept env op s u' := by
  cases hwrite with
  | created customer payload now id createdAt barber service hres hoffer =>
      obtain rfl := hoffer.since_begun isRely_eq
      exact .insert hkeys (newAppointment_blocksSlot _ _ _ _ _ _ _ _)
        (orSlotTaken_eq_ok_iff.mp h)
  | moved user id newStart now a isStaff barber service t hst htu hrow hentitled
      hactive hintime hres hoffer =>
      subst hst htu
      obtain rfl := key_of_lookup hrow
      refine .update user hkeys hrow ⟨rfl, hentitled.involved,
        hactive, ?_, ?_⟩
          (orSlotTaken_eq_ok_iff.mp h)
      · intro hnot
        rcases hintime with hstaff | hbefore
        · exact absurd (hentitled.staffFor hstaff) hnot
        · exact ⟨now, Or.inr ⟨newStart, rfl⟩, hbefore⟩
      · intro hclosed
        -- a move leaves the status alone
        rw [AppointmentUpdate.status_apply_ofChange] at hclosed
        rcases hclosed with hclosed | hclosed
        · exact absurd hclosed (AppointmentStatus.ne_of_blocksSlot hactive rfl)
        · exact absurd hclosed (AppointmentStatus.ne_of_blocksSlot hactive rfl)
  | cancelled user id reason now a isStaff hsaw hentitled hactive hintime =>
      obtain ⟨rfl, hrow⟩ := saw_eq_iff.mp hsaw
      obtain rfl := key_of_lookup hrow
      refine .update user hkeys hrow ⟨rfl, hentitled.involved,
        hactive, ?_, ?_⟩ h
      · intro hnot
        rcases hintime with hstaff | hbefore
        · exact absurd (hentitled.staffFor hstaff) hnot
        · exact ⟨now, Or.inl ⟨reason, rfl⟩, hbefore⟩
      · intro hclosed
        rw [AppointmentUpdate.status_apply_ofChange] at hclosed
        simp at hclosed
  | confirmed user id a hsaw hentitled hpending =>
      obtain ⟨rfl, hrow⟩ := saw_eq_iff.mp hsaw
      obtain rfl := key_of_lookup hrow
      refine .update user hkeys hrow ⟨rfl, hentitled.involved,
        by rw [hpending]; rfl, fun hnot => ?_, fun hclosed => ?_⟩ h
      · exact absurd (hentitled.staffFor rfl) hnot
      · rw [AppointmentUpdate.status_apply_ofChange] at hclosed
        simp at hclosed
  | closedOut user id target now a hop hsaw hentitled hactive hstarted =>
      obtain ⟨rfl, hrow⟩ := saw_eq_iff.mp hsaw
      obtain rfl := key_of_lookup hrow
      have hcaller : op.caller = some user := by
        rcases hop with ⟨rfl, -⟩ | ⟨rfl, -⟩ <;> rfl
      refine .update user hkeys hrow ⟨hcaller, hentitled.involved,
        hactive, ?_, fun _ => ⟨now, ?_, hstarted⟩⟩ h
      · intro hnot
        exact absurd (hentitled.staffFor rfl) hnot
      · rw [AppointmentUpdate.status_apply_ofChange]
        exact hop
  | expired now stale t hst htu hstale =>
      subst hst htu
      exact .expired hkeys (fun a ha => ⟨(hstale a ha).1, (hstale a ha).2.1⟩) h

/-- Every operation that runs alone keeps the rules. -/
theorem rulesKept_of_run
    (env : Env) (op : BookingOp) {s : Database}
    (hkeys : UniqueKeys Appointment.id s.appointments) :
    RulesKept env op s ((op.program env).run s).2 := by
  have hlearns : (op.program env).Learns Eq
      (fun t t' => RulesKept env op s t' ∨ t'.appointments = t.appointments)
      (fun _ _ => True) s := by
    refine learns_program isRely_eq (fun _ _ _ => Or.inr rfl)
      (AtCommits.learns ?_)
    exact (atCommits_transaction isRely_eq sameDirectory_of_eq env op s).mono
      fun w u hw u' h => Or.inl (hw.rulesKept hkeys h)
  refine (Ensures.run isRely_eq hlearns (RulesKept.refl hkeys) ?_).2
  rintro t t' ht (hkept | heq)
  · exact hkept
  · exact ht.of_appointments_eq heq

end

/-! ## Whole runs -/

/-- Every operation of the run keeps the rules in the state it is executed in,
and nothing else touches the appointments. -/
structure RulesFollowed (env : Env) (db : Database)
    (events : List CalendarEvent) : Prop where
  op : ∀ first op, first ++ [.op op] <+: events →
    RulesKept env op (calendarRun env db first)
      (calendarRun env db (first ++ [.op op]))
  edit : ∀ first tables, first ++ [.edit tables] <+: events →
    (calendarRun env db (first ++ [.edit tables])).appointments =
      (calendarRun env db first).appointments

theorem calendarRun_concat (env : Env) (db : Database)
    (events : List CalendarEvent) (event : CalendarEvent) :
    calendarRun env db (events ++ [event]) =
      event.apply env (calendarRun env db events) := by
  simp [calendarRun]

theorem calendarRun_keys
    (env : Env) {db : Database}
    (hkeys : UniqueKeys Appointment.id db.appointments)
    (events : List CalendarEvent) :
    UniqueKeys Appointment.id (calendarRun env db events).appointments := by
  apply List.foldlRecOn events _
    (motive := fun s : Database => UniqueKeys Appointment.id s.appointments) hkeys
  intro s hs event _
  cases event with
  | op operation => exact (rulesKept_of_run env operation hs).keys
  | edit tables => exact hs

/-- Run one at a time, with edits of everything else in between, the operations
change appointments only through the people and at the times the rules
allow. -/
theorem rules_followed
    (env : Env) (db : Database) (events : List CalendarEvent)
    (hkeys : UniqueKeys Appointment.id db.appointments) :
    RulesFollowed env db events where
  op first op _ := by
    rw [calendarRun_concat]
    exact rulesKept_of_run env op (calendarRun_keys env hkeys first)
  edit first tables _ := by
    rw [calendarRun_concat]
    rfl

/-- A booking that is moved by its customer and completed by the barber. -/
theorem rules_followed_moved_and_completed :
    RulesFollowed Sample.env Sample.bookedDb
      [.op (.reschedule Sample.customer 40 (Sample.start 12 0)
        (Sample.clock 6 0)),
      .op (.complete Sample.stylist 40 (Sample.clock 13 0))] :=
  rules_followed _ _ _ (by decide)

end BarberHub
