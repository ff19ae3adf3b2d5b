import BarberHub.System.Operations

/-!
# Switching off barbers, services and shops

A soft delete is refused while active appointments are still to come.  The
updates can write `is_active` too and look at no appointment.  This module
shows that every step of a run switches off only what has nothing to come, as
long as no update that sends `is_active = false` meets such an appointment, and
that one such update is enough to strand a customer.
-/

namespace BarberHub

open HalfOpen KeyedTable ReadCommitted Program Runs

/-- The row was active and is not any more. -/
def SwitchedOff {α : Type} (isActive : α → Bool) (before after : Option α) :
    Prop :=
  ∃ row row', before = some row ∧ isActive row = true ∧
    after = some row' ∧ isActive row' = false

/-- Whatever has been switched off between the two states has no active
appointment to come at `now`. -/
structure SwitchesOffSafely (now : ℤ) (s s' : Database) : Prop where
  barber : ∀ id, SwitchedOff Barber.isActive (s.barber? id) (s'.barber? id) →
    s.NoneUpcoming now fun a => a.barberId = id
  service : ∀ id,
    SwitchedOff Service.isActive (s.service? id) (s'.service? id) →
    s.NoneUpcoming now fun a => a.serviceId = id
  shop : ∀ id,
    SwitchedOff Barbershop.isActive (s.barbershop? id) (s'.barbershop? id) →
    s.NoneUpcoming now (s.AtShop id)

/-- An update that sends `is_active = false` for an active row finds no active
appointment to come. -/
def ManagementOp.Spares (now : ℤ) (s : Database) : ManagementOp → Prop
  | updateBarber _ id payload =>
      payload.isActive = some (some false) →
      (s.barber? id).any (·.isActive) = true →
      s.NoneUpcoming now fun a => a.barberId = id
  | updateService _ id payload =>
      payload.isActive = some (some false) →
      (s.service? id).any (·.isActive) = true →
      s.NoneUpcoming now fun a => a.serviceId = id
  | updateShop _ id payload =>
      payload.isActive = some (some false) →
      (s.barbershop? id).any (·.isActive) = true →
      s.NoneUpcoming now (s.AtShop id)
  | _ => True

/-- The condition on one step of a run. -/
def Executed.Spares (s : Database) (e : Executed) : Prop :=
  ∀ op, e.op = .management op → op.Spares e.now s

/-! ## One commit -/

section

variable {env : Env} {now : ℤ} {id : Uuid} {s s' : Database}

theorem not_switchedOff_self {α : Type} (isActive : α → Bool)
    (row : Option α) : ¬ SwitchedOff isActive row row := by
  rintro ⟨r, r', rfl, hactive, heq, hinactive⟩
  obtain rfl := Option.some.inj heq
  rw [hactive] at hinactive
  simp at hinactive

/-- A column that an UPDATE turns from true to false was sent as false. -/
theorem sent_false_of_column {sent : Sent Bool} {old new : Bool}
    (h : sent.column old = .ok new) (hold : old = true) (hnew : new = false) :
    sent = some (some false) := by
  subst hold hnew
  rcases Sent.column_eq_ok h with heq | heq
  · simp at heq
  · exact heq

theorem switchedOff_barber {u : BarberUpdate}
    (hflush : flushBarber id u s = .ok s') {k : Uuid}
    (h : SwitchedOff Barber.isActive (s.barber? k) (s'.barber? k)) :
    k = id ∧ u.isActive = some (some false) := by
  obtain ⟨row, row', hrow, hactive, hrow', hinactive⟩ := h
  rcases (flushBarber_eq_ok hflush).2 k row' hrow' with
    hsame | ⟨rfl, old, hold, happly⟩
  · exact absurd ⟨row, row', hrow, hactive, hsame, hinactive⟩
      (not_switchedOff_self Barber.isActive _)
  · obtain rfl := Option.some.inj (hrow.symm.trans hold)
    exact ⟨rfl, sent_false_of_column
      (BarberUpdate.apply_eq_ok happly).2.2.2 hactive hinactive⟩

theorem switchedOff_service {u : ServiceUpdate}
    (hflush : flushService env id u s = .ok s') {k : Uuid}
    (h : SwitchedOff Service.isActive (s.service? k) (s'.service? k)) :
    k = id ∧ u.isActive = some (some false) := by
  obtain ⟨row, row', hrow, hactive, hrow', hinactive⟩ := h
  rcases (flushService_eq_ok hflush).2 k row' hrow' with
    hsame | ⟨rfl, old, hold, happly⟩
  · exact absurd ⟨row, row', hrow, hactive, hsame, hinactive⟩
      (not_switchedOff_self Service.isActive _)
  · obtain rfl := Option.some.inj (hrow.symm.trans hold)
    exact ⟨rfl, sent_false_of_column
      (ServiceUpdate.apply_eq_ok happly).2.2 hactive hinactive⟩

theorem switchedOff_shop {u : BarbershopUpdate}
    (hflush : flushShop id u s = .ok s') {k : Uuid}
    (h : SwitchedOff Barbershop.isActive (s.barbershop? k)
      (s'.barbershop? k)) :
    k = id ∧ u.isActive = some (some false) := by
  obtain ⟨row, row', hrow, hactive, hrow', hinactive⟩ := h
  rcases (flushShop_eq_ok hflush).2 k row' hrow' with
    hsame | ⟨rfl, old, hold, happly⟩
  · exact absurd ⟨row, row', hrow, hactive, hsame, hinactive⟩
      (not_switchedOff_self Barbershop.isActive _)
  · obtain rfl := Option.some.inj (hrow.symm.trans hold)
    exact ⟨rfl, sent_false_of_column
      (BarbershopUpdate.apply_eq_ok happly).2.2.2 hactive hinactive⟩

/-! ### Which table a commit touches -/

theorem SwitchesOffSafely.of_same_rows
    (hbarbers : s'.barbers = s.barbers) (hservices : s'.services = s.services)
    (hshops : s'.barbershops = s.barbershops) : SwitchesOffSafely now s s' := by
  refine ⟨?_, ?_, ?_⟩
  · intro id h
    unfold Database.barber? at h
    rw [hbarbers] at h
    exact absurd h (not_switchedOff_self _ _)
  · intro id h
    unfold Database.service? at h
    rw [hservices] at h
    exact absurd h (not_switchedOff_self _ _)
  · intro id h
    unfold Database.barbershop? at h
    rw [hshops] at h
    exact absurd h (not_switchedOff_self _ _)

theorem SwitchesOffSafely.of_barber {u : BarberUpdate}
    (hflush : flushBarber id u s = .ok s')
    (hnone : SwitchedOff Barber.isActive (s.barber? id) (s'.barber? id) →
      s.NoneUpcoming now fun a => a.barberId = id) :
    SwitchesOffSafely now s s' := by
  have hframe := (flushBarber_eq_ok hflush).1
  refine ⟨?_, ?_, ?_⟩
  · intro k h
    obtain ⟨rfl, -⟩ := switchedOff_barber hflush h
    exact hnone h
  · intro k h
    rw [hframe] at h
    exact absurd h (not_switchedOff_self _ _)
  · intro k h
    rw [hframe] at h
    exact absurd h (not_switchedOff_self _ _)

theorem SwitchesOffSafely.of_service {u : ServiceUpdate}
    (hflush : flushService env id u s = .ok s')
    (hnone : SwitchedOff Service.isActive (s.service? id) (s'.service? id) →
      s.NoneUpcoming now fun a => a.serviceId = id) :
    SwitchesOffSafely now s s' := by
  have hframe := (flushService_eq_ok hflush).1
  refine ⟨?_, ?_, ?_⟩
  · intro k h
    rw [hframe] at h
    exact absurd h (not_switchedOff_self _ _)
  · intro k h
    obtain ⟨rfl, -⟩ := switchedOff_service hflush h
    exact hnone h
  · intro k h
    rw [hframe] at h
    exact absurd h (not_switchedOff_self _ _)

theorem SwitchesOffSafely.of_shop {u : BarbershopUpdate}
    (hflush : flushShop id u s = .ok s')
    (hnone : SwitchedOff Barbershop.isActive (s.barbershop? id)
      (s'.barbershop? id) → s.NoneUpcoming now (s.AtShop id)) :
    SwitchesOffSafely now s s' := by
  have hframe := (flushShop_eq_ok hflush).1
  refine ⟨?_, ?_, ?_⟩
  · intro k h
    rw [hframe] at h
    exact absurd h (not_switchedOff_self _ _)
  · intro k h
    rw [hframe] at h
    exact absurd h (not_switchedOff_self _ _)
  · intro k h
    obtain ⟨rfl, -⟩ := switchedOff_shop hflush h
    exact hnone h

/-- A commit of the staff that meets the condition is safe. -/
theorem ManagementCommit.switchesOffSafely {op : ManagementOp}
    (hspares : op.Spares now s) (h : ManagementCommit env now s s' op) :
    SwitchesOffSafely now s s' := by
  cases h with
  | updatedBarber user id payload barber hrow hflush =>
      refine .of_barber hflush ?_
      intro hoff
      have hsent := (switchedOff_barber hflush hoff).2
      obtain ⟨row, -, hrow', hactive, -⟩ := hoff
      exact hspares (Sent.sent_of_changed hsent)
        (by rw [hrow', Option.any_some, hactive])
  | deactivatedBarber user id u hnone hflush =>
      exact .of_barber hflush fun _ => hnone
  | updatedService user id payload service hrow hflush =>
      refine .of_service hflush ?_
      intro hoff
      have hsent := (switchedOff_service hflush hoff).2
      obtain ⟨row, -, hrow', hactive, -⟩ := hoff
      exact hspares (Sent.sent_of_changed hsent)
        (by rw [hrow', Option.any_some, hactive])
  | deactivatedService user id u hnone hflush =>
      exact .of_service hflush fun _ => hnone
  | updatedShop user id payload shop hrow hflush =>
      refine .of_shop hflush ?_
      intro hoff
      have hsent := (switchedOff_shop hflush hoff).2
      obtain ⟨row, -, hrow', hactive, -⟩ := hoff
      exact hspares (Sent.sent_of_changed hsent)
        (by rw [hrow', Option.any_some, hactive])
  | deactivatedShop user id shop hrow hnone hflush =>
      exact .of_shop hflush fun _ => hnone
  | replacedHours user barberId items newId deleted rows hflush =>
      rw [flushWorkingHours_eq_ok hflush]
      exact .of_same_rows rfl rfl rfl
  | createdBreak user barberId payload id hnone hinsert =>
      rw [insertBreak_eq_ok hinsert]
      exact .of_same_rows rfl rfl rfl
  | deletedBreak user id hdelete =>
      obtain rfl := Except.ok.inj hdelete
      exact .of_same_rows rfl rfl rfl
  | createdClosure user shopId payload id shop hrow hnone hinsert =>
      rw [insertClosure_eq_ok hinsert]
      exact .of_same_rows rfl rfl rfl
  | deletedClosure user id hdelete =>
      obtain rfl := Except.ok.inj hdelete
      exact .of_same_rows rfl rfl rfl

end

/-! ## One operation and whole runs -/

theorem bookingOp_sameRows (env : Env) (op : BookingOp) (s : Database) :
    ((op.program env).run s).2.barbers = s.barbers ∧
      ((op.program env).run s).2.services = s.services ∧
      ((op.program env).run s).2.barbershops = s.barbershops := by
  have hcommit : ∀ t t' : Database, (t.barbers = s.barbers ∧
      t.services = s.services ∧ t.barbershops = s.barbershops) →
      BookingCommit env t t' → t'.barbers = s.barbers ∧
        t'.services = s.services ∧ t'.barbershops = s.barbershops := by
    intro t t' ht hcommit
    rw [hcommit.frame]
    exact ht
  exact bookingOp_keeps hcommit op ⟨rfl, rfl, rfl⟩

theorem step_switchesOffSafely
    {env : Env} {s : Database} {e : Executed} (hspares : e.Spares s) :
    SwitchesOffSafely e.now s (step env s e) := by
  rw [step, Executed.program]
  cases hop : e.op with
  | booking op =>
      obtain ⟨hbarbers, hservices, hshops⟩ := bookingOp_sameRows env op s
      exact .of_same_rows hbarbers hservices hshops
  | management op =>
      rcases managementOp_leaves env e.now op s with heq | hcommit
      · dsimp only
        rw [heq]
        exact .of_same_rows rfl rfl rfl
      · exact hcommit.switchesOffSafely (hspares op hop)

/-- In every run in which no update that sends `is_active = false` meets an
active appointment to come, nothing with upcoming bookings is switched off. -/
theorem switched_off_unbooked
    (env : Env) (db : Database) (events : List Executed)
    (hspares : Along (step env) Executed.Spares db events) :
    Along (step env) (fun s e => SwitchesOffSafely e.now s (step env s e)) db
      events :=
  hspares.imp fun _ _ h => step_switchesOffSafely h

/-- The administrator cancels the booking, and takes the barber off the list
by an update. -/
def cancelThenUpdate : List Executed :=
  [⟨Sample.clock 8 0,
      .booking (.cancel Sample.admin 40 none (Sample.clock 8 0))⟩,
    ⟨Sample.clock 8 30, .management
      (.updateBarber Sample.admin 20 { isActive := some (some false) })⟩]

theorem switched_off_unbooked_after_cancelling :
    Along (step Sample.env)
      (fun s e => SwitchesOffSafely e.now s (step Sample.env s e))
      Sample.bookedDb cancelThenUpdate := by
  refine switched_off_unbooked _ _ _ ⟨?_, ?_, trivial⟩
  · intro op hop
    simp at hop
  · intro op hop
    obtain rfl := Operation.management.inj hop
    intro _ _
    decide +kernel

/-- The same update while the booking stands. -/
theorem switched_off_booked :
    ¬ Along (step Sample.env)
      (fun s e => SwitchesOffSafely e.now s (step Sample.env s e))
      Sample.bookedDb
      [⟨Sample.clock 8 30, .management
        (.updateBarber Sample.admin 20 { isActive := some (some false) })⟩] := by
  rintro ⟨hsafe, -⟩
  have hoff : SwitchedOff Barber.isActive (Sample.bookedDb.barber? 20)
      ((step Sample.env Sample.bookedDb ⟨Sample.clock 8 30, .management
        (.updateBarber Sample.admin 20
          { isActive := some (some false) })⟩).barber? 20) :=
    ⟨Sample.barber, { Sample.barber with isActive := false }, rfl, rfl, rfl, rfl⟩
  have hnone := hsafe.barber 20 hoff
  revert hnone
  decide +kernel

end BarberHub
