import BarberHub.Booking.Exclusion
import BarberHub.Booking.Expiry
import BarberHub.Slots.Totality

/-!
# Who loses a slot, and how it is told

A flush raises what the schema refuses.  Only `create_appointment` and
`reschedule_appointment` translate a refusal by `no_double_booking` into
`SlotTakenError`; the other operations rely on never being refused.  This
module shows for which interleavings they are right.
-/

namespace BarberHub

open HalfOpen KeyedTable ReadCommitted Program Pool Fallible

/-- Raised by a flush, not by the code of the operation. -/
def Raised.OfFlush (e : Raised) : Prop :=
  (∃ violation, e = .integrityError violation) ∨ e = .staleDataError

theorem not_ofFlush_of_cls {e : Raised} {cls : ErrorClass}
    (h : e.cls = some cls) : ¬ e.OfFlush := by
  rintro (⟨violation, rfl⟩ | rfl)
  · simp [Raised.cls] at h
  · simp [Raised.cls] at h

theorem Raised.IsRefusal.not_ofFlush {e : Raised} (h : e.IsRefusal) :
    ¬ e.OfFlush :=
  h.elim not_ofFlush_of_cls not_ofFlush_of_cls

theorem Raised.OfCalendar.not_ofFlush {e : Raised} (h : e.OfCalendar) :
    ¬ e.OfFlush := by
  rcases h with rfl | rfl
  · simp [OfFlush]
  · simp [OfFlush]

/-! ## What the operations raise themselves -/

theorem raises_representable (x : ℤ) :
    (ofExcept (representable x) : Request ℤ).Raises fun e => ¬ e.OfFlush :=
  raises_ofExcept fun _ h => (raisesOnly_representable x _ h).not_ofFlush

theorem raises_add (x : AwareDatetime) (duration : ℤ) :
    (ofExcept (x.add duration) : Request AwareDatetime).Raises
      fun e => ¬ e.OfFlush := by
  apply raises_ofExcept
  intro e h
  rw [AwareDatetime.add] at h
  split at h
  · simp at h
  · obtain rfl := Except.error.inj h
    simp [Raised.OfFlush]

theorem raises_bindParam (x : ℤ) :
    (ofExcept (bindParam x) : Request ℤ).Raises fun e => ¬ e.OfFlush := by
  apply raises_ofExcept
  intro e h
  rw [bindParam] at h
  split at h
  · simp at h
  · obtain rfl := Except.error.inj h
    simp [Raised.OfFlush]

theorem raises_loadForAction (user : User) (id : Uuid) :
    (loadForAction user id).Raises fun e => ¬ e.OfFlush := by
  rw [loadForAction, load]
  apply ((raises_query _).bind fun _ => raises_rowOr
    (not_ofFlush_of_cls rfl) _).bind
  intro loaded
  refine Raises.bind ?_ fun isStaff => (raises_require _
    (not_ofFlush_of_cls rfl)).bind fun _ => raises_pure _
  rw [isStaffFor]
  split
  · exact raises_pure _
  · refine (raises_rowOr (by simp [Raised.OfFlush]) _).bind fun barber => ?_
    split
    · exact raises_pure _
    · exact (raises_query _).bind fun _ => raises_pure _

theorem raises_requireStatus (a : Appointment)
    (allowed : AppointmentStatus → Bool) (refusal : String) :
    (requireStatus a allowed refusal).Raises fun e => ¬ e.OfFlush :=
  raises_require _ (not_ofFlush_of_cls rfl)

theorem raises_assertWithinCutoff (env : Env) (a : Appointment) (now : ℤ)
    (isStaff : Bool) :
    (assertWithinCutoff env a now isStaff).Raises fun e => ¬ e.OfFlush := by
  rw [assertWithinCutoff]
  split
  · exact raises_pure _
  · exact (raises_representable _).bind fun cutoff =>
      raises_require _ (not_ofFlush_of_cls rfl)

theorem raises_resolveBarberAndService (barberId serviceId : Uuid) :
    (resolveBarberAndService barberId serviceId).Raises
      fun e => ¬ e.OfFlush := by
  rw [resolveBarberAndService]
  refine (raises_query _).bind fun found => (raises_rowOr
    (not_ofFlush_of_cls rfl) _).bind fun pair => ?_
  refine (raises_query _).bind fun found => (raises_rowOr
    (not_ofFlush_of_cls rfl) _).bind fun service => ?_
  exact (raises_require _ (not_ofFlush_of_cls rfl)).bind fun _ =>
    (raises_require _ (not_ofFlush_of_cls rfl)).bind fun _ => raises_pure _

theorem raises_assertOnOffer (env : Env) (barber : Barber) (service : Service)
    (start : AwareDatetime) (now : ℤ) (exclude : Option Uuid) :
    (assertOnOffer env barber service start now exclude).Raises
      fun e => ¬ e.OfFlush := by
  have hslots : ∀ day exclude ignore,
      (availableSlots env barber.id day service.id now exclude ignore).Raises
        fun e => ¬ e.OfFlush := fun day exclude ignore =>
    (raises_availableSlots env barber.id day service.id now exclude ignore).mono
      fun e h => h.elim Raised.IsRefusal.not_ofFlush
        Raised.OfCalendar.not_ofFlush
  rw [assertOnOffer]
  refine (raises_query _).bind fun found => (raises_rowOr
    (by simp [Raised.OfFlush]) _).bind fun shop => ?_
  apply (raises_representable start.instant).bind
  intro instant
  apply (raises_ofExcept fun e h =>
    (raisesOnly_representable _ e h).not_ofFlush).bind
  intro localStart
  apply (hslots _ _ _).bind
  intro offer
  split
  · exact raises_pure _
  apply (hslots _ _ _).bind
  intro ifEmpty
  split
  · exact raises_raise (not_ofFlush_of_cls rfl)
  · exact raises_raise (not_ofFlush_of_cls rfl)

theorem raises_transaction (env : Env) (op : BookingOp) :
    (op.transaction env).Raises fun e => ¬ e.OfFlush := by
  have hcloseOut : ∀ user id target now,
      (closeOutTransaction env user id target now).Raises
        fun e => ¬ e.OfFlush := by
    intro user id target now
    rw [closeOutTransaction]
    apply (raises_loadForAction user id).bind
    rintro ⟨loaded, isStaff⟩
    exact (raises_require _ (not_ofFlush_of_cls rfl)).bind fun _ =>
      (raises_requireStatus _ _ _).bind fun _ =>
        (raises_require _ (not_ofFlush_of_cls rfl)).bind fun _ =>
          raises_write _
  cases op with
  | create customer payload now id createdAt =>
      rw [BookingOp.transaction, createTransaction]
      apply (raises_resolveBarberAndService _ _).bind
      rintro ⟨barber, service⟩
      refine (raises_query _).bind fun shop => ?_
      exact (raises_add _ _).bind fun stop =>
        (raises_assertOnOffer _ _ _ _ _ _).bind fun _ =>
          (raises_bindParam _).bind fun _ =>
            (raises_bindParam _).bind fun _ => raises_write _
  | reschedule user id newStart now =>
      rw [BookingOp.transaction, rescheduleTransaction]
      apply (raises_loadForAction user id).bind
      rintro ⟨loaded, isStaff⟩
      refine (raises_requireStatus _ _ _).bind fun _ =>
        (raises_assertWithinCutoff _ _ _ _).bind fun _ => ?_
      apply (raises_resolveBarberAndService _ _).bind
      rintro ⟨barber, service⟩
      refine (raises_assertOnOffer _ _ _ _ _ _).bind fun _ => ?_
      exact (raises_add _ _).bind fun newEnd =>
        (raises_bindParam _).bind fun _ =>
          (raises_bindParam _).bind fun _ => raises_write _
  | cancel user id reason now =>
      rw [BookingOp.transaction, cancelTransaction]
      apply (raises_loadForAction user id).bind
      rintro ⟨loaded, isStaff⟩
      exact (raises_requireStatus _ _ _).bind fun _ =>
        (raises_assertWithinCutoff _ _ _ _).bind fun _ => raises_write _
  | confirm user id =>
      rw [BookingOp.transaction, confirmTransaction]
      apply (raises_loadForAction user id).bind
      rintro ⟨loaded, isStaff⟩
      exact (raises_require _ (not_ofFlush_of_cls rfl)).bind fun _ =>
        (raises_requireStatus _ _ _).bind fun _ => raises_write _
  | complete user id now => exact hcloseOut user id .completed now
  | noShow user id now => exact hcloseOut user id .noShow now
  | expire now =>
      rw [BookingOp.transaction, discard, expireStalePending]
      refine ((raises_representable _).bind ?_).bind fun _ => raises_pure _
      intro cutoff
      exact (raises_query _).bind fun stale =>
        (raises_write _).bind fun _ => raises_pure _

/-! ## What their flushes raise -/

theorem ofFlush_of_insertAppointment
    {env : Env} {row : Appointment} {db : Database} {e : Raised}
    (h : insertAppointment env row db = .error e) : e.OfFlush := by
  rw [insertAppointment] at h
  repeat' split at h
  all_goals first
    | exact Or.inl ⟨_, (Except.error.inj h).symm⟩
    | simp at h

theorem ofFlush_of_updateAppointment
    {env : Env} {id : Uuid} {u : AppointmentUpdate} {db : Database}
    {e : Raised} (h : updateAppointment env id u db = .error e) :
    e.OfFlush := by
  rw [updateAppointment] at h
  repeat' split at h
  all_goals first
    | exact Or.inl ⟨_, (Except.error.inj h).symm⟩
    | exact Or.inr (Except.error.inj h).symm
    | simp at h

theorem ofFlush_of_expired
    {env : Env} {stale : List Appointment} {db : Database} {e : Raised}
    (h : stale.foldlM (fun db a => updateAppointment env a.id (expiry a) db)
      db = .error e) : e.OfFlush := by
  induction stale generalizing db with
  | nil => simp [pure, Except.pure] at h
  | cons a stale ih =>
      rw [List.foldlM_cons] at h
      cases hupdate : updateAppointment env a.id (expiry a) db with
      | ok db' =>
          rw [hupdate] at h
          exact ih h
      | error e' =>
          rw [hupdate] at h
          obtain rfl := Except.error.inj h
          exact ofFlush_of_updateAppointment hupdate

/-- Reported as a taken slot, or raised by the flush itself. -/
def Raised.OfCommit (e : Raised) : Prop :=
  e = slotTaken ∨ e.OfFlush

theorem refuses_commitOrSlotTaken
    {w : Database → Except Raised Database}
    (h : ∀ s e, w s = .error e → e.OfFlush) :
    (commitOrSlotTaken w).Refuses Raised.OfCommit := by
  rw [commitOrSlotTaken_eq]
  exact refuses_write fun s e he =>
    (orSlotTaken_eq_error he).imp_right fun hw => h s e hw.1

theorem refuses_write_updateAppointment
    (env : Env) (id : Uuid) (u : AppointmentUpdate) :
    (write (updateAppointment env id u) : Request Unit).Refuses
      Raised.OfCommit :=
  refuses_write fun _ _ h => Or.inr (ofFlush_of_updateAppointment h)

theorem refuses_transaction (env : Env) (op : BookingOp) :
    (op.transaction env).Refuses Raised.OfCommit := by
  have hcloseOut : ∀ user id target now,
      (closeOutTransaction env user id target now).Refuses
        Raised.OfCommit := by
    intro user id target now
    rw [closeOutTransaction]
    apply (readOnly_loadForAction user id).refuses.bind
    rintro ⟨loaded, isStaff⟩
    refine (readOnly_require _ _).refuses.bind fun _ =>
      (readOnly_requireStatus _ _ _).refuses.bind fun _ => ?_
    exact (readOnly_require _ _).refuses.bind fun _ =>
      refuses_write_updateAppointment env _ _
  cases op with
  | create customer payload now id createdAt =>
      rw [BookingOp.transaction, createTransaction]
      apply (respects_resolveBarberAndService _ _).readOnly.refuses.bind
      rintro ⟨barber, service⟩
      refine (readOnly_query _).refuses.bind fun shop => ?_
      exact (readOnly_ofExcept _).refuses.bind fun stop =>
        (readOnly_assertOnOffer _ _ _ _ _ _).refuses.bind fun _ =>
          (readOnly_ofExcept _).refuses.bind fun _ =>
            (readOnly_ofExcept _).refuses.bind fun _ =>
              refuses_commitOrSlotTaken fun _ _ => ofFlush_of_insertAppointment
  | reschedule user id newStart now =>
      rw [BookingOp.transaction, rescheduleTransaction]
      apply (readOnly_loadForAction user id).refuses.bind
      rintro ⟨loaded, isStaff⟩
      refine (readOnly_requireStatus _ _ _).refuses.bind fun _ =>
        (readOnly_assertWithinCutoff _ _ _ _).refuses.bind fun _ => ?_
      apply (respects_resolveBarberAndService _ _).readOnly.refuses.bind
      rintro ⟨barber, service⟩
      exact (readOnly_assertOnOffer _ _ _ _ _ _).refuses.bind fun _ =>
        (readOnly_ofExcept _).refuses.bind fun newEnd =>
          (readOnly_ofExcept _).refuses.bind fun _ =>
            (readOnly_ofExcept _).refuses.bind fun _ =>
              refuses_commitOrSlotTaken fun _ _ => ofFlush_of_updateAppointment
  | cancel user id reason now =>
      rw [BookingOp.transaction, cancelTransaction]
      apply (readOnly_loadForAction user id).refuses.bind
      rintro ⟨loaded, isStaff⟩
      refine (readOnly_requireStatus _ _ _).refuses.bind fun _ => ?_
      exact (readOnly_assertWithinCutoff _ _ _ _).refuses.bind fun _ =>
        refuses_write_updateAppointment env _ _
  | confirm user id =>
      rw [BookingOp.transaction, confirmTransaction]
      apply (readOnly_loadForAction user id).refuses.bind
      rintro ⟨loaded, isStaff⟩
      refine (readOnly_require _ _).refuses.bind fun _ => ?_
      exact (readOnly_requireStatus _ _ _).refuses.bind fun _ =>
        refuses_write_updateAppointment env _ _
  | complete user id now => exact hcloseOut user id .completed now
  | noShow user id now => exact hcloseOut user id .noShow now
  | expire now =>
      rw [BookingOp.transaction, discard, expireStalePending]
      refine ((readOnly_ofExcept _).refuses.bind ?_).bind fun _ => trivial
      intro cutoff
      exact (readOnly_query _).refuses.bind fun stale =>
        (refuses_write fun _ _ h => Or.inr (ofFlush_of_expired h)).bind
          fun _ => trivial

/-! ## What a transaction starts from and can bear -/

/-- The constraints on the `appointments` table, foreign keys apart. -/
structure Database.Consistent (db : Database) : Prop where
  keys : UniqueKeys Appointment.id db.appointments
  checked : ∀ a ∈ db.appointments, a.Checked
  disjoint : db.NoDoubleBooking

/-- With status CONFIRMED the row would be in the way of no other. -/
def Database.Unopposed (db : Database) (id : Uuid) : Prop :=
  ∀ row, db.appointment? id = some row → ∀ other ∈ db.appointments,
    other.id ≠ id →
      ¬ ({ row with status := .confirmed } : Appointment).Conflicts other

/-- The row does not last as long as its service. -/
def Database.Misfit (db : Database) (id : Uuid) : Prop :=
  ∃ a service, db.appointment? id = some a ∧
    db.service? a.serviceId = some service ∧
    a.endTime ≠ a.startTime + service.duration

def Database.timesOf? (db : Database) (id : Uuid) : Option (ℤ × ℤ) :=
  (db.appointment? id).map fun a => (a.startTime, a.endTime)

/-- What others may commit during an operation: nothing that puts another
booking in the place of the one it confirms or the latter, once cancelled, in
the place of another, and no other times for the one it moves, where that one
does not last as long as its service. -/
def BookingOp.Tolerates : BookingOp → Database → Database → Prop
  | confirm _ id, s, s' => s.Unopposed id → s'.Unopposed id
  | reschedule _ id _ _, s, s' =>
      s.Misfit id → s'.timesOf? id = s.timesOf? id
  | _, _, _ => True

/-- The user whose key an operation writes. -/
def BookingOp.writtenUser : BookingOp → Option Uuid
  | create customer _ _ _ _ => some customer.id
  | cancel user _ _ _ => some user.id
  | _ => none

/-- The user an operation names is stored, and the key it has drawn is not. -/
structure BookingOp.Admitted (op : BookingOp) (db : Database) : Prop where
  user : ∀ id, op.writtenUser = some id → (db.user? id).isSome
  fresh : ∀ id, op.newId = some id → ∀ a ∈ db.appointments, a.id ≠ id

/-- How the database goes on while an operation that has drawn another key is
under way. -/
structure Database.Proceeds (op : BookingOp) (s s' : Database) : Prop where
  directory : s.SameDirectory s'
  rows : ∀ id a, s.appointment? id = some a →
    ∃ a', s'.appointment? id = some a' ∧ a.Continues a'
  consistent : s.Consistent → s'.Consistent
  fresh : ∀ id, op.newId = some id → (∀ a ∈ s.appointments, a.id ≠ id) →
    ∀ a ∈ s'.appointments, a.id ≠ id

/-- The rely of an operation. -/
structure BookingOp.Bears (op : BookingOp) (s s' : Database) : Prop
    extends Database.Proceeds op s s' where
  tolerates : op.Tolerates s s'

theorem isRely_bears (op : BookingOp) : IsRely op.Bears where
  refl s := by
    refine ⟨⟨.refl s, fun id a ha => ⟨a, ha, .refl a⟩, id, fun _ _ h => h⟩, ?_⟩
    cases op <;> simp [BookingOp.Tolerates]
  trans := by
    intro s t u h h'
    refine ⟨⟨h.directory.trans h'.directory, ?_,
      fun hs => h'.consistent (h.consistent hs),
      fun id hid hs => h'.fresh id hid (h.fresh id hid hs)⟩, ?_⟩
    · intro id a ha
      obtain ⟨b, hb, hab⟩ := h.rows id a ha
      obtain ⟨c, hc, hbc⟩ := h'.rows id b hb
      exact ⟨c, hc, hab.trans hbc⟩
    · have hfirst := h.tolerates
      have hsecond := h'.tolerates
      cases op with
      | confirm user id => exact fun hs => hsecond (hfirst hs)
      | reschedule user id newStart now =>
          intro hmisfit
          have htimes := hfirst hmisfit
          refine (hsecond ?_).trans htimes
          -- with the times kept, the row still does not fit its service
          obtain ⟨a, service, ha, hservice, hne⟩ := hmisfit
          obtain ⟨b, hb, hab⟩ := h.rows id a ha
          rw [Database.timesOf?, Database.timesOf?, ha, hb] at htimes
          simp only [Option.map_some, Option.some.injEq, Prod.mk.injEq] at htimes
          refine ⟨b, service, hb, ?_, ?_⟩
          · rw [hab.service_eq, ← h.directory.service?]
            exact hservice
          · rw [htimes.1, htimes.2]
            exact hne
      | create customer payload now id createdAt => trivial
      | cancel user id reason now => trivial
      | complete user id now => trivial
      | noShow user id now => trivial
      | expire now => trivial

theorem BookingFrame.proceeds
    {op op' : BookingOp} {s s' : Database} (h : BookingFrame op' s s')
    (hcons : s.Consistent → s'.Consistent)
    (hdrawn : ∀ id, op.newId = some id → op'.newId ≠ some id) :
    s.Proceeds op s' := by
  refine ⟨h.directory, ?_, hcons, ?_⟩
  · intro id a ha
    obtain ⟨a', ha', hcont, -⟩ := h.rows id a ha
    exact ⟨a', ha', hcont⟩
  · intro id hid hs a ha
    rintro rfl
    rcases h.added a ha with ⟨b, hb, hab⟩ | hnew
    · exact hs b hb hab
    · exact hdrawn a.id hid hnew

/-- The state an operation can commit in. -/
structure BookingOp.Ready (op : BookingOp) (s : Database) : Prop
    extends BookingOp.Admitted op s where
  consistent : s.Consistent
  services : ∀ service ∈ s.services, service.Checked

theorem BookingOp.Ready.proceeds
    {op : BookingOp} {s s' : Database} (h : op.Ready s)
    (hs : s.Proceeds op s') : op.Ready s' := by
  refine ⟨⟨?_, fun id hid => hs.fresh id hid (h.fresh id hid)⟩,
    hs.consistent h.consistent, ?_⟩
  · intro id hid
    rw [← hs.directory.user?]
    exact h.user id hid
  · rw [← hs.directory.services]
    exact h.services

/-! ## Accepted writes -/

namespace Database.Consistent

variable {env : Env} {db db' : Database}

theorem calendar (h : db.Consistent) : db.Calendar where
  keys := h.keys
  ordered a ha := (h.checked a ha).1
  disjoint := h.disjoint

theorem insert
    {row : Appointment} (henforced : env.noDoubleBooking = true)
    (h : db.Consistent) (hinsert : insertAppointment env row db = .ok db') :
    db'.Consistent := by
  obtain ⟨heq, -, hfree⟩ := insertAppointment_eq_ok hinsert
  have hcal := h.calendar.insert (hfree henforced) hinsert
  refine ⟨hcal.keys, ?_, hcal.disjoint⟩
  intro a ha
  subst heq
  rcases List.mem_append.mp ha with ha | ha
  · exact h.checked a ha
  · obtain rfl := List.mem_singleton.mp ha
    exact checked_of_insertAppointment hinsert

theorem update
    {id : Uuid} {u : AppointmentUpdate}
    (henforced : env.noDoubleBooking = true) (h : db.Consistent)
    (hupdate : updateAppointment env id u db = .ok db') : db'.Consistent := by
  by_cases hu : u = {}
  · rw [updateAppointment, if_pos hu] at hupdate
    obtain rfl := Except.ok.inj hupdate
    exact h
  have hfree : db.Harmless id u := fun row hrow =>
    (free_of_updateAppointment henforced hupdate hrow).resolve_left hu
  have hcal := h.calendar.update hfree hupdate
  refine ⟨hcal.keys, ?_, hcal.disjoint⟩
  intro a ha
  obtain rfl := updateAppointment_eq_ok hupdate
  rcases mem_updateAt.mp ha with ⟨ha, -⟩ | ⟨row, hmem, hid, rfl⟩
  · exact h.checked a ha
  · have hrow := h.keys.lookup_eq_some_iff.mpr ⟨hmem, hid⟩
    exact (checked_of_updateAppointment hupdate hrow).resolve_left hu

theorem expired
    {stale : List Appointment} (henforced : env.noDoubleBooking = true)
    (h : db.Consistent)
    (hupdate : stale.foldlM (fun db a =>
      updateAppointment env a.id (expiry a) db) db = .ok db') :
    db'.Consistent := by
  induction stale generalizing db with
  | nil =>
      obtain rfl := Except.ok.inj hupdate
      exact h
  | cons a stale ih =>
      rw [List.foldlM_cons, bind_eq_ok_iff] at hupdate
      obtain ⟨t, ht, hupdate⟩ := hupdate
      exact ih (h.update henforced ht) hupdate

end Database.Consistent

section

variable {env : Env} {op : BookingOp} {s u : Database}
  {w : Database → Except Raised Database}

/-- Whatever is accepted leaves the table consistent. -/
theorem BookingWrite.consistent
    {rely : Database → Database → Prop} {u' : Database}
    (henforced : env.noDoubleBooking = true)
    (hwrite : BookingWrite env rely s op w u) (h : w u = .ok u')
    (hu : u.Consistent) : u'.Consistent := by
  cases hwrite with
  | created => exact hu.insert henforced (orSlotTaken_eq_ok_iff.mp h)
  | moved => exact hu.update henforced (orSlotTaken_eq_ok_iff.mp h)
  | cancelled => exact hu.update henforced h
  | confirmed => exact hu.update henforced h
  | closedOut => exact hu.update henforced h
  | expired => exact hu.expired henforced h

/-! ## Refused writes -/

/-- A refusal by the exclusion constraint, translated. -/
theorem eq_slotTaken_of_orSlotTaken
    {db : Database} {e : Raised}
    (hcases : (∃ db', w db = .ok db') ∨
      w db = .error (.integrityError .exclusion))
    (h : orSlotTaken w db = .error e) : e = slotTaken := by
  rcases orSlotTaken_eq_error h with rfl | ⟨herror, hother⟩
  · rfl
  · rcases hcases with ⟨db', hok⟩ | hrefused
    · rw [hok] at herror
      simp at herror
    · rw [hrefused] at herror
      exact absurd (Except.error.inj herror).symm hother

/-- The row `create_appointment` adds is refused only when its slot is taken. -/
theorem insertAppointment_cases
    {row : Appointment} {db : Database} (hchecked : row.Checked)
    (hfresh : ∀ other ∈ db.appointments, other.id ≠ row.id)
    (hcustomer : (db.user? row.customerId).isSome)
    (hbarber : (db.barber? row.barberId).isSome)
    (hservice : (db.service? row.serviceId).isSome) :
    (∃ db', insertAppointment env row db = .ok db') ∨
      insertAppointment env row db = .error (.integrityError .exclusion) := by
  by_cases hconflict : env.noDoubleBooking = true ∧
      ∃ other ∈ db.appointments, row.Conflicts other
  · exact Or.inr (insertAppointment_of_conflict hchecked hfresh hconflict.1
      hconflict.2)
  · refine Or.inl ⟨_, insertAppointment_of_free hchecked hfresh
      ?_ hcustomer hbarber hservice⟩
    intro hon other hother h
    exact hconflict ⟨hon, other, hother, h⟩

/-- A status that occupies no time is never refused. -/
theorem exists_released
    (env : Env) (up : AppointmentUpdate) {db : Database} {id : Uuid}
    {row : Appointment} {status : AppointmentStatus} (hdb : db.Consistent)
    (hrow : db.appointment? id = some row)
    (hstatus : up.status = some status) (hreleased : status.blocksSlot = false)
    (hstart : up.startTime = none) (hstop : up.endTime = none)
    (husers : ∀ userId ∈ up.cancelledById.join, (db.user? userId).isSome) :
    ∃ db', updateAppointment env id up db = .ok db' := by
  have hchecked : (up.apply row).Checked := by
    have hold := hdb.checked row (mem_of_lookup hrow)
    simpa [Appointment.Checked, AppointmentUpdate.apply, hstart, hstop] using hold
  rcases updateAppointment_cases env hrow hchecked husers with
    hok | ⟨-, other, hother, hne, hconflict⟩
  · exact hok
  · exact absurd hconflict (harmless_of_released db id hstatus hreleased row
      hrow other hother hne)

theorem exists_expired
    {stale : List Appointment} {db : Database}
    (henforced : env.noDoubleBooking = true) (hdb : db.Consistent)
    (hpending : ∀ a ∈ stale, a.status = .pending)
    (hstored : ∀ a ∈ stale, ∃ row, db.appointment? a.id = some row) :
    ∃ db', stale.foldlM (fun db a =>
      updateAppointment env a.id (expiry a) db) db = .ok db' := by
  induction stale generalizing db with
  | nil => exact ⟨db, rfl⟩
  | cons a stale ih =>
      obtain ⟨row, hrow⟩ := hstored a List.mem_cons_self
      have hunset : (expiry a).cancelledById = none := if_pos rfl
      obtain ⟨t, ht⟩ : ∃ t, updateAppointment env a.id (expiry a) db = .ok t :=
        exists_released env _ hdb hrow
          (expiry_status (hpending a List.mem_cons_self)) rfl (if_pos rfl)
          (if_pos rfl) (by simp [hunset])
      have hrest : ∀ b ∈ stale, ∃ row, t.appointment? b.id = some row := by
        intro b hb
        obtain ⟨row, hrow⟩ := hstored b (List.mem_cons_of_mem _ hb)
        obtain rfl := updateAppointment_eq_ok ht
        exact exists_appointment?_of_ids (map_id_updateAt _ _ _) hrow
      obtain ⟨db', h⟩ := ih (hdb.update henforced ht)
        (fun b hb => hpending b (List.mem_cons_of_mem _ hb)) hrest
      exact ⟨db', by rw [List.foldlM_cons, ht]; exact h⟩

theorem Service.Checked.duration_pos {service : Service}
    (h : service.Checked) : 0 < service.duration := by
  have hpos := h.1
  rw [Service.duration, minutes]
  omega

/-- A moved row is at its new times, or where others have put it. -/
theorem times_ofChange
    (newStart : ℤ) {a row : Appointment} {duration : ℤ}
    (hkept : a.endTime ≠ a.startTime + duration →
      row.startTime = a.startTime ∧ row.endTime = a.endTime)
    {up : AppointmentUpdate}
    (hup : up = .ofChange a
      { a with startTime := newStart, endTime := newStart + duration }) :
    ((up.apply row).startTime = newStart ∧
        (up.apply row).endTime = newStart + duration) ∨
      ((up.apply row).startTime = row.startTime ∧
        (up.apply row).endTime = row.endTime) := by
  subst hup
  by_cases hfits : a.endTime = a.startTime + duration
  · -- both columns are written, or neither is
    by_cases hsame : a.startTime = newStart
    · right
      simp [AppointmentUpdate.apply, AppointmentUpdate.ofChange, changedTo,
        hfits, hsame]
    · left
      simp [AppointmentUpdate.apply, AppointmentUpdate.ofChange, changedTo,
        hfits, hsame]
  · obtain ⟨hstart, hstop⟩ := hkept hfits
    left
    simp only [AppointmentUpdate.apply, AppointmentUpdate.ofChange, hstart,
      hstop, changedTo_getD, and_self]

/-- What the row a confirmation has read leaves unopposed. -/
theorem unopposed_of_active
    {db : Database} {id : Uuid} {a : Appointment} (hdb : db.Consistent)
    (hrow : db.appointment? id = some a) (hactive : a.status.blocksSlot = true) :
    db.Unopposed id := by
  rintro row hrow' other hother hne ⟨hbarber, -, hother', hoverlap⟩
  obtain rfl := Option.some.inj (hrow.symm.trans hrow')
  have hid := key_of_lookup hrow
  exact hdb.disjoint a (mem_of_lookup hrow) other hother
    (fun h => hne (h.symm.trans hid)) ⟨hbarber, hactive, hother', hoverlap⟩

/-- What an operation has seen is still there when it commits. -/
theorem BookingOp.Ready.exists_row
    {id : Uuid} {a : Appointment} (hs : op.Ready s) (hsaw : Saw op.Bears s id a u) :
    op.Ready u ∧ ∃ row, u.appointment? id = some row := by
  obtain ⟨t, hst, htu, hrow⟩ := hsaw
  obtain ⟨row, hrow', -⟩ := htu.rows id a hrow
  have hsu := (isRely_bears op).trans hst htu
  exact ⟨hs.proceeds hsu.toProceeds, row, hrow'⟩

/-- A cancellation is never refused. -/
theorem exists_cancelled
    {user : User} {id : Uuid} {reason : Option String} {now : ℤ}
    {a row : Appointment} (hu : (BookingOp.cancel user id reason now).Ready u)
    (hrow : u.appointment? id = some row) (hactive : a.status.blocksSlot = true) :
    ∃ u', updateAppointment env id (.ofChange a
      { a with
        status := .cancelled
        cancelledById := some user.id
        cancellationReason := reason }) u = .ok u' := by
  have hopen : a.status ≠ .cancelled :=
    AppointmentStatus.ne_of_blocksSlot hactive rfl
  apply exists_released env _ hu.consistent hrow (if_neg hopen) rfl (if_pos rfl)
    (if_pos rfl)
  intro userId hmem
  change userId ∈ (changedTo a.cancelledById (some user.id)).join at hmem
  rw [changedTo] at hmem
  split at hmem
  · simp at hmem
  · obtain rfl : user.id = userId := by simpa using hmem
    exact hu.user user.id rfl

/-- A confirmation that has nothing in its way is not refused. -/
theorem exists_confirmed
    {id : Uuid} {a row : Appointment} (hu : u.Consistent)
    (hrow : u.appointment? id = some row) (hpending : a.status = .pending)
    (hfree : u.Unopposed id) :
    ∃ u', updateAppointment env id
      (.ofChange a { a with status := .confirmed }) u = .ok u' := by
  have hup : AppointmentUpdate.ofChange a { a with status := .confirmed } =
      { status := some .confirmed } := by
    simp [AppointmentUpdate.ofChange, changedTo, hpending]
  have hold := hu.checked row (mem_of_lookup hrow)
  rw [hup]
  rcases updateAppointment_cases env (u := { status := some .confirmed })
      hrow hold (by simp) with hok | ⟨-, other, hother, hne, hin⟩
  · exact hok
  · exact absurd hin (hfree row hrow other hother hne)

/-- Closing a booking out is never refused. -/
theorem exists_closedOut
    {id : Uuid} {target : AppointmentStatus} {a row : Appointment}
    (hu : u.Consistent) (hrow : u.appointment? id = some row)
    (hreleased : target.blocksSlot = false)
    (hactive : a.status.blocksSlot = true) :
    ∃ u', updateAppointment env id (.ofChange a { a with status := target }) u =
      .ok u' := by
  have hopen : a.status ≠ target := by
    rintro rfl
    simp [hreleased] at hactive
  exact exists_released env _ hu hrow (if_neg hopen) hreleased (if_pos rfl)
    (if_pos rfl) (by simp [AppointmentUpdate.ofChange, changedTo])

/-- Of the new times the table accepts those that nobody has taken. -/
theorem eq_slotTaken_of_moved
    {id : Uuid} {newStart : ℤ} {a row : Appointment} {service : Service}
    (hu : u.Consistent) (hrow : u.appointment? id = some row)
    (hservice : service.Checked)
    (hkept : a.endTime ≠ a.startTime + service.duration →
      row.startTime = a.startTime ∧ row.endTime = a.endTime) {e : Raised}
    (h : orSlotTaken (updateAppointment env id (.ofChange a
      { a with
        startTime := newStart
        endTime := newStart + service.duration })) u = .error e) :
    e = slotTaken := by
  have hold := hu.checked row (mem_of_lookup hrow)
  have hchecked := times_ofChange newStart hkept rfl
  refine eq_slotTaken_of_orSlotTaken
    ((updateAppointment_cases env hrow ⟨?_, hold.2⟩ ?_).imp_right And.left) h
  · rcases hchecked with ⟨hstart, hstop⟩ | ⟨hstart, hstop⟩
    · rw [hstart, hstop]
      exact lt_add_of_pos_right _ hservice.duration_pos
    · rw [hstart, hstop]
      exact hold.1
  · simp [AppointmentUpdate.ofChange, changedTo]

/-- Whatever others have committed that the transaction can bear, a refused
write is reported as a taken slot. -/
theorem BookingWrite.refused
    (henforced : env.noDoubleBooking = true) (hs : op.Ready s)
    (hwrite : BookingWrite env op.Bears s op w u) {e : Raised}
    (h : w u = .error e) : e = slotTaken := by
  have hrely := isRely_bears op
  have haccepted : (∃ u', w u = .ok u') → e = slotTaken := by
    rintro ⟨u', hok⟩
    rw [hok] at h
    simp at h
  cases hwrite with
  | created customer payload now id createdAt barber service hres hoffer =>
      have hsu := hoffer.since_begun hrely
      have hu := hs.proceeds hsu.toProceeds
      have hchecked := hs.services service (mem_of_lookup hres.service_eq)
      refine eq_slotTaken_of_orSlotTaken (insertAppointment_cases ⟨?_, ?_⟩
        (hu.fresh id rfl) (hu.user customer.id rfl) ?_ ?_) h
      · exact lt_add_of_pos_right _ hchecked.duration_pos
      · exact hchecked.2.2
      · rw [← hsu.directory.barber?]
        exact Option.isSome_of_eq_some hres.barber_self
      · rw [← hsu.directory.service?]
        exact Option.isSome_of_eq_some hres.service_self
  | moved user id newStart now a isStaff barber service t hst htu hrow hentitled
      hactive hintime hres hoffer =>
      have hu := hs.proceeds (hrely.trans hst htu).toProceeds
      obtain ⟨row, hrow', -⟩ := htu.rows id a hrow
      have hservice := hs.services service (by
        rw [hst.directory.services]
        exact mem_of_lookup hres.service_eq)
      refine eq_slotTaken_of_moved hu.consistent hrow' hservice ?_ h
      intro hmisfit
      have htimes := htu.tolerates ⟨a, service, hrow, hres.service_eq, hmisfit⟩
      rw [Database.timesOf?, Database.timesOf?, hrow, hrow'] at htimes
      simpa using htimes
  | cancelled user id reason now a isStaff hsaw hentitled hactive hintime =>
      obtain ⟨hu, row, hrow⟩ := hs.exists_row hsaw
      exact haccepted (exists_cancelled hu hrow hactive)
  | confirmed user id a hsaw hentitled hpending =>
      obtain ⟨hu, row, hrow⟩ := hs.exists_row hsaw
      obtain ⟨t, hst, htu, hseen⟩ := hsaw
      have ht := hs.proceeds hst.toProceeds
      have hfree : u.Unopposed id := htu.tolerates
        (unopposed_of_active ht.consistent hseen (by rw [hpending]; rfl))
      exact haccepted (exists_confirmed hu.consistent hrow hpending hfree)
  | closedOut user id target now a hop hsaw hentitled hactive hstarted =>
      obtain ⟨hu, row, hrow⟩ := hs.exists_row hsaw
      have hreleased : target.blocksSlot = false := by
        rcases hop with ⟨-, rfl⟩ | ⟨-, rfl⟩ <;> rfl
      exact haccepted (exists_closedOut hu.consistent hrow hreleased hactive)
  | expired now stale t hst htu hstale =>
      have ht := hs.proceeds hst.toProceeds
      have hu := ht.proceeds htu.toProceeds
      have hstored : ∀ a ∈ stale, ∃ row, u.appointment? a.id = some row := by
        intro a ha
        have hrow := ht.consistent.keys.lookup_eq_some_iff.mpr
          ⟨(hstale a ha).1, rfl⟩
        obtain ⟨row, hrow', -⟩ := htu.rows a.id a hrow
        exact ⟨row, hrow'⟩
      exact haccepted (exists_expired henforced hu.consistent
        (fun a ha => (hstale a ha).2.1) hstored)

end

/-! ## Any interleaving -/

variable {ι : Type} [DecidableEq ι]

/-- Every refused commit is answered as a taken slot, and no raw error of the
schema is anybody's answer. -/
structure LossesReported (env : Env) (ops : ι → BookingOp) (db : Database)
    (schedule : List ι) : Prop where
  refused : ∀ started j w next e, started ++ [j] <+: schedule →
    ((bookingPool env ops db).exec started).running j = .commit w next →
    w ((bookingPool env ops db).exec started).committed = .error e →
    ((bookingPool env ops db).exec (started ++ [j])).running j =
      .done (.error slotTaken)
  answered : ∀ i violation,
    ((bookingPool env ops db).exec schedule).running i ≠
      .done (.error (.integrityError violation))

section

variable {env : Env} {ops : ι → BookingOp} {db : Database}

omit [DecidableEq ι] in
/-- The operations, verified together. -/
theorem bookingPool_reports
    (henforced : env.noDoubleBooking = true) (hvalid : db.Valid)
    (hadmitted : ∀ i, (ops i).Admitted db)
    (hdrawn : ∀ i j id, i ≠ j → (ops i).newId = some id →
      (ops j).newId ≠ some id) :
    (bookingPool env ops db).Verified Database.Consistent
      (fun i s => (ops i).Ready s) (fun i => (ops i).Bears)
      (fun i s s' => BookingFrame (ops i) s s' ∧ (s.Consistent → s'.Consistent))
      (fun i => (ops i).Tolerates)
      (fun _ r _ => ∀ e, r = .error e → e = slotTaken ∨ ¬ e.OfFlush) where
  isRely i := isRely_bears (ops i)
  init := ⟨hvalid.keys.appointments, hvalid.checks.appointments,
    hvalid.noDoubleBooking⟩
  begin_init i := ⟨hadmitted i, ⟨hvalid.keys.appointments,
    hvalid.checks.appointments, hvalid.noDoubleBooking⟩, hvalid.checks.services⟩
  start i s _ hready := by
    have hwrites := atCommits_transaction (isRely_bears (ops i))
      (fun _ _ h => h.directory) env (ops i) s
    refine AtCommits.ensures (hwrites.mono fun w t hw => ⟨fun t' hok => ?_,
      fun e he => ?_⟩) ((raises_transaction env (ops i)).mono fun e => Or.inr)
    · exact ⟨hw.frame hok, hw.consistent henforced hok⟩
    · exact Or.inl (hw.refused henforced hready he)
  inv i s s' hs h := h.2 hs
  begin_keep i j s s' hij _ h hready :=
    hready.proceeds (h.1.proceeds h.2 fun id => hdrawn i j id hij)
  compat i j s s' hij _ h htol :=
    ⟨h.1.proceeds h.2 fun id => hdrawn i j id hij, htol⟩
  answer _ _ _ _ _ _ _ _ hpost := hpost

end

/-- Losing a slot is reported as such in every run in which, while a booking is
being confirmed, nobody is booked in its place and it is not itself, once
cancelled, moved into the place of another active one, and while one is being
moved that does not last as long as its service, nobody else moves it. -/
theorem losses_reported
    (env : Env) (ops : ι → BookingOp) (db : Database) (schedule : List ι)
    (henforced : env.noDoubleBooking = true) (hvalid : db.Valid)
    (hadmitted : ∀ i, (ops i).Admitted db)
    (hdrawn : ∀ i j id, i ≠ j → (ops i).newId = some id →
      (ops j).newId ≠ some id)
    (htol : (bookingPool env ops db).Tolerant (fun i => (ops i).Tolerates)
      schedule) :
    LossesReported env ops db schedule := by
  have hpool := bookingPool_reports henforced hvalid hadmitted hdrawn
  constructor
  · intro started j w next e hpre hrunning hw
    have hstep : ((bookingPool env ops db).exec (started ++ [j])).running j =
        .done (.error e) := by
      rw [exec_concat, step_of_refused hrunning hw, update_running_self]
    have hpost := hpool.answered (htol.of_prefix hpre) (by simp) hstep e rfl
    -- what the flush raised has been translated, for no other is permitted
    have hrefuses := refuses_exec (c := bookingPool env ops db) (i := j)
      (refuses_transaction env (ops j)) started
    rw [hrunning] at hrefuses
    have htaken : e = slotTaken := by
      rcases hrefuses.1 _ e hw with htaken | hflush
      · exact htaken
      · exact hpost.resolve_right (not_not.mpr hflush)
    rw [hstep, htaken]
  · intro i violation hanswer
    have hpost : Raised.integrityError violation = slotTaken ∨
        ¬ (Raised.integrityError violation).OfFlush := by
      by_cases hi : i ∈ schedule
      · exact hpool.answered htol hi hanswer _ rfl
      · rw [exec_running_of_not_mem _ hi] at hanswer
        have hraises := raises_transaction env (ops i)
        change (ops i).transaction env = _ at hanswer
        rw [hanswer] at hraises
        exact Or.inr (hraises _ rfl)
    rcases hpost with htaken | hflush
    · simp [slotTaken] at htaken
    · exact hflush (Or.inl ⟨violation, rfl⟩)

/-! ## A confirmation that comes too late -/

inductive Party where
  | confirming
  | cancelling
  | booking
  deriving DecidableEq

/-- An administrator confirms the booking; another cancels it; a customer books
its time. -/
def confirmTooLate : Party → BookingOp
  | .confirming => .confirm Sample.admin 40
  | .cancelling => .cancel Sample.admin 40 none (Sample.clock 8 0)
  | .booking => .create Sample.customer ⟨20, 30, Sample.start 9 0⟩
      (Sample.clock 8 0) 41 (Sample.clock 8 0)

theorem pendingDb_valid : pendingDb.Valid := by
  decide +kernel

theorem confirmTooLate_admitted (i : Party) :
    (confirmTooLate i).Admitted pendingDb := by
  have hadmin : (pendingDb.user? Sample.admin.id).isSome := by decide
  have hcustomer : (pendingDb.user? Sample.customer.id).isSome := by decide
  have hfresh : ∀ a ∈ pendingDb.appointments, a.id ≠ 41 := by decide
  cases i with
  | confirming =>
      exact ⟨fun _ h => by simp [confirmTooLate, BookingOp.writtenUser] at h,
        fun _ h => by simp [confirmTooLate, BookingOp.newId] at h⟩
  | cancelling =>
      refine ⟨fun id h => ?_,
        fun _ h => by simp [confirmTooLate, BookingOp.newId] at h⟩
      obtain rfl := Option.some.inj h
      exact hadmin
  | booking =>
      constructor
      · intro id h
        obtain rfl := Option.some.inj h
        exact hcustomer
      · intro id h
        obtain rfl := Option.some.inj h
        exact hfresh

theorem losses_reported_one_after_the_other :
    LossesReported Sample.env confirmTooLate pendingDb
      (List.replicate 2 .confirming ++ List.replicate 12 .booking) := by
  refine losses_reported _ _ _ _ rfl pendingDb_valid confirmTooLate_admitted
    ?_ (tolerant_serial Party.confirming Party.booking 2 12 (by decide +kernel))
  -- only one of the three draws a key
  have hdraws : ∀ i id, (confirmTooLate i).newId = some id → i = .booking := by
    intro i id h
    cases i <;> simp [confirmTooLate, BookingOp.newId] at h ⊢
  intro i j id hij hi hj
  exact hij ((hdraws i id hi).trans (hdraws j id hj).symm)

/-- When the booking has been read PENDING before it is cancelled, and its time
is sold before it is confirmed, the administrator sees the raw error. -/
theorem loss_escapes :
    ¬ LossesReported Sample.env confirmTooLate pendingDb
      ([.confirming, .cancelling, .cancelling] ++ List.replicate 12 .booking ++
        [.confirming]) := by
  intro h
  exact h.answered .confirming .exclusion rfl

end BarberHub
