import BarberHub.Booking.Operations
import BarberHub.Support.Pools

/-!
# Booking transactions side by side

The transactions of the booking operations, up to their commit, and the pool in
which they are interleaved.  `BookingWrite` lists the writes each of them comes
to, with what it has seen by then; `BookingFrame` is what such a write leaves
alone, whatever else is committed in between.
-/

namespace BarberHub

open HalfOpen KeyedTable ReadCommitted Program Pool Fallible

variable {ι : Type} [DecidableEq ι]

/-- The transactions before any has begun. -/
def bookingPool (env : Env) (ops : ι → BookingOp) (db : Database) :
    Pool ι Database Raised Unit where
  committed := db
  running i := (ops i).transaction env

/-! ## What a write leaves alone -/

/-- What one commit of an operation does not touch, whatever else has been
committed since the operation began. -/
structure BookingFrame (op : BookingOp) (s s' : Database) : Prop where
  directory : s.SameDirectory s'
  keys : UniqueKeys Appointment.id s.appointments →
    UniqueKeys Appointment.id s'.appointments
  rows : ∀ id a, s.appointment? id = some a →
    ∃ a', s'.appointment? id = some a' ∧ a.Continues a' ∧
      (a'.status = .confirmed → a.status = .confirmed ∨
        ∃ user, op = .confirm user id)
  added : ∀ a' ∈ s'.appointments,
    (∃ a ∈ s.appointments, a.id = a'.id) ∨ op.newId = some a'.id

section

variable {env : Env} {s s' : Database}

/-- With the keys unchanged no row is new. -/
theorem exists_of_map_id
    (hids : s'.appointments.map Appointment.id =
      s.appointments.map Appointment.id) {a' : Appointment}
    (ha' : a' ∈ s'.appointments) : ∃ a ∈ s.appointments, a.id = a'.id := by
  have hmem : a'.id ∈ s.appointments.map Appointment.id := by
    rw [← hids]
    exact List.mem_map_of_mem ha'
  exact List.mem_map.mp hmem

theorem bookingFrame_insert
    {op : BookingOp} {row : Appointment} (hid : op.newId = some row.id)
    (h : insertAppointment env row s = .ok s') : BookingFrame op s s' := by
  obtain ⟨rfl, hfresh, -⟩ := insertAppointment_eq_ok h
  refine ⟨⟨rfl, rfl, rfl, rfl, rfl, rfl⟩, fun hkeys =>
    hkeys.append_singleton hfresh, ?_, ?_⟩
  · intro id a ha
    exact ⟨a, lookup_append_of_some ha, .refl a, Or.inl⟩
  · intro a' ha'
    rcases List.mem_append.mp ha' with hold | hnew
    · exact Or.inl ⟨a', hold, rfl⟩
    · obtain rfl := List.mem_singleton.mp hnew
      exact Or.inr hid

theorem bookingFrame_update
    {op : BookingOp} {id : Uuid} {u : AppointmentUpdate}
    (hstatus : u.status = some .confirmed → ∃ user, op = .confirm user id)
    (h : updateAppointment env id u s = .ok s') : BookingFrame op s s' := by
  obtain rfl := updateAppointment_eq_ok h
  refine ⟨⟨rfl, rfl, rfl, rfl, rfl, rfl⟩, fun hkeys =>
    hkeys.updateAt fun _ _ _ => rfl, ?_, fun a' ha' =>
      Or.inl (exists_of_map_id (map_id_updateAt _ _ _) ha')⟩
  intro id' a ha
  by_cases hid : id' = id
  · subst hid
    refine ⟨u.apply a, ?_, AppointmentUpdate.continues_apply u a, ?_⟩
    · rw [appointment?_updateAt, ha]
      rfl
    · intro hconfirmed
      cases hu : u.status with
      | none => exact Or.inl (by simpa [AppointmentUpdate.apply, hu] using hconfirmed)
      | some status =>
          obtain rfl : status = .confirmed := by
            simpa [AppointmentUpdate.apply, hu] using hconfirmed
          exact Or.inr (hstatus hu)
  · refine ⟨a, ?_, .refl a, Or.inl⟩
    rw [appointment?_updateAt_of_ne s u hid, ha]

theorem bookingFrame_expired
    {op : BookingOp} {stale : List Appointment}
    (hpending : ∀ a ∈ stale, a.status = .pending)
    (h : stale.foldlM (fun db a => updateAppointment env a.id (expiry a) db) s =
      .ok s') : BookingFrame op s s' := by
  obtain ⟨hdir, hids, -⟩ := expired_rows 0 hpending h
  refine ⟨hdir, ?_, ?_, fun a' ha' => Or.inl (exists_of_map_id hids ha')⟩
  · intro hkeys
    rw [UniqueKeys]
    rw [hids]
    exact hkeys
  · intro id a ha
    obtain ⟨-, -, hrows⟩ := expired_rows id hpending h
    obtain ⟨a', ha', rfl | ⟨hexpired, -⟩⟩ := hrows a ha
    · exact ⟨a', ha', .refl a', Or.inl⟩
    · refine ⟨a', ha', hexpired.continues, ?_⟩
      intro hconfirmed
      rw [hexpired.status_eq] at hconfirmed
      simp at hconfirmed

/-- The status an UPDATE writes is the one that was assigned. -/
theorem status_ofChange
    {loaded new : Appointment} {status : AppointmentStatus}
    (h : (AppointmentUpdate.ofChange loaded new).status = some status) :
    new.status = status ∧ loaded.status ≠ status := by
  change changedTo loaded.status new.status = some status at h
  rw [changedTo] at h
  split at h
  · simp at h
  next hne =>
    obtain rfl := Option.some.inj h
    exact ⟨rfl, hne⟩

/-- An accepted write keeps the frame. -/
theorem BookingWrite.frame
    {rely : Database → Database → Prop} {s₀ : Database} {op : BookingOp}
    {w : Database → Except Raised Database}
    (hwrite : BookingWrite env rely s₀ op w s) (h : w s = .ok s') :
    BookingFrame op s s' := by
  cases hwrite with
  | created customer payload now id createdAt barber service hres hoffer =>
      exact bookingFrame_insert rfl (orSlotTaken_eq_ok_iff.mp h)
  | moved user id newStart now a isStaff barber service t hst htu hrow hentitled
      hactive hintime hres hoffer =>
      refine bookingFrame_update ?_ (orSlotTaken_eq_ok_iff.mp h)
      intro hstatus
      obtain ⟨hnew, hloaded⟩ := status_ofChange hstatus
      exact absurd hnew hloaded
  | cancelled user id reason now a isStaff hsaw hentitled hactive hintime =>
      refine bookingFrame_update ?_ h
      intro hstatus
      obtain ⟨hnew, -⟩ := status_ofChange hstatus
      simp at hnew
  | confirmed user id a hsaw hentitled hpending =>
      exact bookingFrame_update (fun _ => ⟨user, rfl⟩) h
  | closedOut user id target now a hop hsaw hentitled hactive hstarted =>
      refine bookingFrame_update ?_ h
      intro hstatus
      obtain ⟨hnew, -⟩ := status_ofChange hstatus
      rcases hop with ⟨-, rfl⟩ | ⟨-, rfl⟩
      · simp at hnew
      · simp at hnew
  | expired now stale t hst htu hstale =>
      exact bookingFrame_expired (fun a ha => (hstale a ha).2.1) h

end

/-! ## Any interleaving -/

theorem isRely_sameDirectory : IsRely Database.SameDirectory where
  refl := .refl
  trans h h' := h.trans h'

omit [DecidableEq ι] in
/-- Whatever is committed in between, every commit of every transaction keeps
its frame. -/
theorem bookingPool_verified
    (env : Env) (ops : ι → BookingOp) {db : Database}
    (hkeys : UniqueKeys Appointment.id db.appointments) :
    (bookingPool env ops db).Verified
      (fun s => UniqueKeys Appointment.id s.appointments) (fun _ _ => True)
      (fun _ => Database.SameDirectory) (fun i => BookingFrame (ops i))
      (fun _ _ _ => True) (fun _ _ _ => True) where
  isRely _ := isRely_sameDirectory
  init := hkeys
  begin_init _ := trivial
  start i s _ _ := by
    have hwrites := atCommits_transaction isRely_sameDirectory (fun _ _ h => h)
      env (ops i) s
    have hlearns := AtCommits.learns (hwrites.mono fun w t hw t' h =>
      hw.frame h)
    exact Ensures.mono hlearns (fun _ _ h => h) fun _ _ _ => trivial
  inv _ _ _ hs h := h.keys hs
  begin_keep _ _ _ _ _ _ _ _ := trivial
  compat _ _ _ _ _ _ h _ := h.directory
  answer _ _ _ _ _ _ _ _ _ := trivial

end BarberHub
