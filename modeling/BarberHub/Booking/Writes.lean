import BarberHub.Core.Environment

/-!
# Writing appointments

The statements a flush emits for the `appointments` table.  An INSERT carries
the whole row.  An UPDATE names its row by primary key and carries only the
columns whose value differs from the one that was loaded; the rest of the row
stays as it is committed by then.
-/

namespace BarberHub

open HalfOpen KeyedTable

/-- The columns an UPDATE of an appointment sets. -/
structure AppointmentUpdate where
  startTime : Option ℤ := none
  endTime : Option ℤ := none
  status : Option AppointmentStatus := none
  cancelledById : Option (Option Uuid) := none
  cancellationReason : Option (Option String) := none
  deriving DecidableEq, Repr

/-- The new value of a column, if it differs from the loaded one. -/
def changedTo {α : Type} [DecidableEq α] (loaded new : α) : Option α :=
  if loaded = new then none else some new

theorem changedTo_getD {α : Type} [DecidableEq α] (loaded new : α) :
    (changedTo loaded new).getD loaded = new := by
  rw [changedTo]
  split
  next h => exact h
  · rfl

theorem changedTo_getD_cases {α : Type} [DecidableEq α] (loaded new old : α) :
    (changedTo loaded new).getD old = new ∨
      (changedTo loaded new).getD old = old := by
  rw [changedTo]
  split
  · exact Or.inr rfl
  · exact Or.inl rfl

/-- The same booking, at other times or with another status. -/
structure Appointment.Continues (a a' : Appointment) : Prop where
  id_eq : a'.id = a.id
  customer_eq : a'.customerId = a.customerId
  barber_eq : a'.barberId = a.barberId
  service_eq : a'.serviceId = a.serviceId
  price_eq : a'.totalPrice = a.totalPrice
  created_eq : a'.createdAt = a.createdAt

theorem Appointment.Continues.refl (a : Appointment) : a.Continues a :=
  ⟨rfl, rfl, rfl, rfl, rfl, rfl⟩

theorem Appointment.Continues.trans
    {a b c : Appointment} (h : a.Continues b) (h' : b.Continues c) :
    a.Continues c :=
  ⟨h'.id_eq.trans h.id_eq, h'.customer_eq.trans h.customer_eq,
    h'.barber_eq.trans h.barber_eq, h'.service_eq.trans h.service_eq,
    h'.price_eq.trans h.price_eq, h'.created_eq.trans h.created_eq⟩

namespace AppointmentUpdate

/-- What is flushed after the loaded row was assigned to. -/
def ofChange (loaded new : Appointment) : AppointmentUpdate where
  startTime := changedTo loaded.startTime new.startTime
  endTime := changedTo loaded.endTime new.endTime
  status := changedTo loaded.status new.status
  cancelledById := changedTo loaded.cancelledById new.cancelledById
  cancellationReason :=
    changedTo loaded.cancellationReason new.cancellationReason

/-- The row after the UPDATE. -/
def apply (u : AppointmentUpdate) (row : Appointment) : Appointment where
  id := row.id
  customerId := row.customerId
  barberId := row.barberId
  serviceId := row.serviceId
  startTime := u.startTime.getD row.startTime
  endTime := u.endTime.getD row.endTime
  status := u.status.getD row.status
  totalPrice := row.totalPrice
  cancelledById := u.cancelledById.getD row.cancelledById
  cancellationReason := u.cancellationReason.getD row.cancellationReason
  createdAt := row.createdAt

@[simp] theorem apply_empty (row : Appointment) :
    apply {} row = row := rfl

@[simp] theorem apply_id (u : AppointmentUpdate) (row : Appointment) :
    (u.apply row).id = row.id := rfl

@[simp] theorem apply_barberId (u : AppointmentUpdate) (row : Appointment) :
    (u.apply row).barberId = row.barberId := rfl

@[simp] theorem apply_customerId (u : AppointmentUpdate) (row : Appointment) :
    (u.apply row).customerId = row.customerId := rfl

@[simp] theorem apply_serviceId (u : AppointmentUpdate) (row : Appointment) :
    (u.apply row).serviceId = row.serviceId := rfl

theorem continues_apply (u : AppointmentUpdate) (row : Appointment) :
    row.Continues (u.apply row) :=
  ⟨rfl, rfl, rfl, rfl, rfl, rfl⟩

section

variable (a a' : Appointment)

@[simp] theorem startTime_apply_ofChange :
    ((ofChange a a').apply a).startTime = a'.startTime := changedTo_getD _ _

@[simp] theorem endTime_apply_ofChange :
    ((ofChange a a').apply a).endTime = a'.endTime := changedTo_getD _ _

@[simp] theorem status_apply_ofChange :
    ((ofChange a a').apply a).status = a'.status := changedTo_getD _ _

end

/-- Assigning to the columns of a loaded row and flushing it. -/
theorem apply_ofChange {a a' : Appointment} (h : a.Continues a') :
    (ofChange a a').apply a = a' := by
  obtain ⟨hid, hcustomer, hbarber, hservice, hprice, hcreated⟩ := h
  cases a'
  dsimp only at hid hcustomer hbarber hservice hprice hcreated
  subst hid hcustomer hbarber hservice hprice hcreated
  simp only [apply, ofChange, changedTo_getD]

end AppointmentUpdate

/-- `INSERT INTO appointments`. -/
def insertAppointment (env : Env) (row : Appointment) (db : Database) :
    Except Raised Database :=
  if ¬ row.Checked then .error (.integrityError .check)
  else if (db.appointment? row.id).isSome then .error (.integrityError .unique)
  else if env.noDoubleBooking ∧ ∃ other ∈ db.appointments, row.Conflicts other
  then .error (.integrityError .exclusion)
  else if (db.user? row.customerId).isNone ∨ (db.barber? row.barberId).isNone ∨
      (db.service? row.serviceId).isNone
  then .error (.integrityError .foreignKey)
  else .ok { db with appointments := db.appointments ++ [row] }

/-- `UPDATE appointments SET ... WHERE id = ...`; nothing is emitted when no
column has changed. -/
def updateAppointment (env : Env) (id : Uuid) (u : AppointmentUpdate)
    (db : Database) : Except Raised Database :=
  if u = {} then .ok db
  else match db.appointment? id with
    | none => .error .staleDataError
    | some row =>
        if ¬ (u.apply row).Checked then .error (.integrityError .check)
        else if env.noDoubleBooking ∧ ∃ other ∈ db.appointments,
          other.id ≠ id ∧ (u.apply row).Conflicts other
        then .error (.integrityError .exclusion)
        else if ∃ userId ∈ u.cancelledById.join, (db.user? userId).isNone
        then .error (.integrityError .foreignKey)
        else .ok { db with
          appointments :=
            updateAt Appointment.id id u.apply db.appointments }

theorem insertAppointment_eq_ok
    {env : Env} {row : Appointment} {db db' : Database}
    (h : insertAppointment env row db = .ok db') :
    db' = { db with appointments := db.appointments ++ [row] } ∧
      (∀ other ∈ db.appointments, other.id ≠ row.id) ∧
      (env.noDoubleBooking = true →
        ∀ other ∈ db.appointments, ¬ row.Conflicts other) := by
  rw [insertAppointment] at h
  split at h
  · simp at h
  split at h
  · simp at h
  next hfresh =>
    split at h
    · simp at h
    next hfree =>
      split at h
      · simp at h
      · refine ⟨(Except.ok.inj h).symm, ?_, ?_⟩
        · rw [Option.not_isSome_iff_eq_none] at hfresh
          exact lookup_eq_none_iff.mp hfresh
        · intro hon other hother hconflict
          exact hfree ⟨hon, other, hother, hconflict⟩

/-- An INSERT that violates no constraint is accepted. -/
theorem insertAppointment_of_free
    {env : Env} {row : Appointment} {db : Database}
    (hchecked : row.Checked)
    (hfresh : ∀ other ∈ db.appointments, other.id ≠ row.id)
    (hfree : env.noDoubleBooking = true →
      ∀ other ∈ db.appointments, ¬ row.Conflicts other)
    (hcustomer : (db.user? row.customerId).isSome)
    (hbarber : (db.barber? row.barberId).isSome)
    (hservice : (db.service? row.serviceId).isSome) :
    insertAppointment env row db =
      .ok { db with appointments := db.appointments ++ [row] } := by
  have hnew : ¬ (db.appointment? row.id).isSome := by
    rw [Option.not_isSome_iff_eq_none]
    exact lookup_eq_none_iff.mpr hfresh
  have hnone : ¬ (env.noDoubleBooking = true ∧
      ∃ other ∈ db.appointments, row.Conflicts other) := by
    rintro ⟨hon, other, hother, hconflict⟩
    exact hfree hon other hother hconflict
  rw [insertAppointment]
  rw [if_neg (not_not.mpr hchecked), if_neg hnew, if_neg hnone, if_neg]
  simp [Option.isSome_iff_ne_none.mp hcustomer,
    Option.isSome_iff_ne_none.mp hbarber, Option.isSome_iff_ne_none.mp hservice]

/-- An INSERT that only the exclusion constraint can refuse. -/
theorem insertAppointment_of_conflict
    {env : Env} {row : Appointment} {db : Database}
    (hchecked : row.Checked)
    (hfresh : ∀ other ∈ db.appointments, other.id ≠ row.id)
    (henforced : env.noDoubleBooking = true)
    (hconflict : ∃ other ∈ db.appointments, row.Conflicts other) :
    insertAppointment env row db = .error (.integrityError .exclusion) := by
  have hnew : ¬ (db.appointment? row.id).isSome := by
    rw [Option.not_isSome_iff_eq_none]
    exact lookup_eq_none_iff.mpr hfresh
  rw [insertAppointment]
  rw [if_neg (not_not.mpr hchecked), if_neg hnew,
    if_pos ⟨henforced, hconflict⟩]

theorem updateAt_empty (id : Uuid) (rows : List Appointment) :
    updateAt Appointment.id id (AppointmentUpdate.apply {}) rows = rows := by
  simp [updateAt]

/-- An accepted UPDATE rewrites the row with the key and nothing else. -/
theorem updateAppointment_eq_ok
    {env : Env} {id : Uuid} {u : AppointmentUpdate} {db db' : Database}
    (h : updateAppointment env id u db = .ok db') :
    db' = { db with
      appointments := updateAt Appointment.id id u.apply db.appointments } := by
  rw [updateAppointment] at h
  split at h
  next hu =>
    rw [hu, updateAt_empty]
    exact (Except.ok.inj h).symm
  · split at h
    · simp at h
    · split at h
      · simp at h
      · split at h
        · simp at h
        · split at h
          · simp at h
          · exact (Except.ok.inj h).symm

theorem checked_of_insertAppointment
    {env : Env} {row : Appointment} {db db' : Database}
    (h : insertAppointment env row db = .ok db') : row.Checked := by
  rw [insertAppointment] at h
  split at h
  · simp at h
  next hchecked => exact not_not.mp hchecked

/-- The row an accepted UPDATE leaves, unless it changes nothing. -/
theorem checked_of_updateAppointment
    {env : Env} {id : Uuid} {u : AppointmentUpdate} {db db' : Database}
    {row : Appointment} (h : updateAppointment env id u db = .ok db')
    (hrow : db.appointment? id = some row) :
    u = {} ∨ (u.apply row).Checked := by
  rw [updateAppointment] at h
  split at h
  next hu => exact Or.inl hu
  · rw [hrow] at h
    dsimp only at h
    split at h
    · simp at h
    next hchecked => exact Or.inr (not_not.mp hchecked)

/-- An accepted UPDATE that changes something moves its row into no other. -/
theorem free_of_updateAppointment
    {env : Env} {id : Uuid} {u : AppointmentUpdate} {db db' : Database}
    {row : Appointment} (henforced : env.noDoubleBooking = true)
    (h : updateAppointment env id u db = .ok db')
    (hrow : db.appointment? id = some row) :
    u = {} ∨
      ∀ other ∈ db.appointments, other.id ≠ id → ¬ (u.apply row).Conflicts other := by
  rw [updateAppointment] at h
  split at h
  next hu => exact Or.inl hu
  · rw [hrow] at h
    dsimp only at h
    split at h
    · simp at h
    · split at h
      · simp at h
      next hfree =>
        apply Or.inr
        intro other hother hne hconflict
        exact hfree ⟨henforced, other, hother, hne, hconflict⟩

/-- An UPDATE of a stored row that leaves it well formed and names stored users
can be refused by the exclusion constraint only, and only for another row in
the way. -/
theorem updateAppointment_cases
    (env : Env) {id : Uuid} {u : AppointmentUpdate} {db : Database}
    {row : Appointment} (hrow : db.appointment? id = some row)
    (hchecked : (u.apply row).Checked)
    (husers : ∀ userId ∈ u.cancelledById.join, (db.user? userId).isSome) :
    (∃ db', updateAppointment env id u db = .ok db') ∨
      (updateAppointment env id u db = .error (.integrityError .exclusion) ∧
        ∃ other ∈ db.appointments, other.id ≠ id ∧
          (u.apply row).Conflicts other) := by
  by_cases hu : u = {}
  · exact Or.inl ⟨db, by rw [updateAppointment, if_pos hu]⟩
  rw [updateAppointment, if_neg hu, hrow]
  dsimp only
  rw [if_neg (not_not.mpr hchecked)]
  by_cases hconflict : env.noDoubleBooking = true ∧ ∃ other ∈ db.appointments,
      other.id ≠ id ∧ (u.apply row).Conflicts other
  · rw [if_pos hconflict]
    exact Or.inr ⟨rfl, hconflict.2⟩
  · have hstored : ¬ ∃ userId ∈ u.cancelledById.join,
        (db.user? userId).isNone := by
      rintro ⟨userId, hmem, hnone⟩
      have hsome := husers userId hmem
      rw [Option.isNone_iff_eq_none.mp hnone] at hsome
      simp at hsome
    rw [if_neg hconflict, if_neg hstored]
    exact Or.inl ⟨_, rfl⟩

/-- The row an UPDATE by primary key leaves. -/
theorem appointment?_updateAt
    (s : Database) (id : Uuid) (u : AppointmentUpdate) :
    ({ s with appointments :=
        updateAt Appointment.id id u.apply s.appointments } :
      Database).appointment? id = (s.appointment? id).map u.apply :=
  lookup_updateAt_self fun _ h => h

theorem appointment?_updateAt_of_ne
    (s : Database) {id id' : Uuid} (u : AppointmentUpdate) (h : id' ≠ id) :
    ({ s with appointments :=
        updateAt Appointment.id id u.apply s.appointments } :
      Database).appointment? id' = s.appointment? id' :=
  lookup_updateAt_of_ne h fun _ h => h

theorem map_id_updateAt (id : Uuid) (u : AppointmentUpdate)
    (rows : List Appointment) :
    (updateAt Appointment.id id u.apply rows).map Appointment.id =
      rows.map Appointment.id :=
  map_updateAt fun _ _ _ => rfl

/-- With the keys unchanged, a row that was there is still there. -/
theorem exists_appointment?_of_ids
    {s s' : Database} {id : Uuid} {a : Appointment}
    (hids : s'.appointments.map Appointment.id =
      s.appointments.map Appointment.id)
    (ha : s.appointment? id = some a) : ∃ a', s'.appointment? id = some a' := by
  have hmem : id ∈ s'.appointments.map Appointment.id := by
    rw [hids]
    exact List.mem_map.mpr ⟨a, mem_of_lookup ha, key_of_lookup ha⟩
  obtain ⟨a', ha', hid⟩ := List.mem_map.mp hmem
  cases hfound : s'.appointment? id with
  | some b => exact ⟨b, rfl⟩
  | none => exact absurd hid (lookup_eq_none_iff.mp hfound a' ha')

end BarberHub
