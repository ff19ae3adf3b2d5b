import BarberHub.Booking.Exclusion
import BarberHub.System.Records

/-!
# What the schema demands

The constraints of the schema, those on reviews, ratings and reminders apart, and
that every statement leaves them: an UPDATE by primary key keeps the keys, an
INSERT is checked, and nothing that is referred to is deleted.
-/

namespace BarberHub

open KeyedTable ReadCommitted Program Pool Fallible

/-! ## What the schema demands -/

/-- A row that other rows refer to. -/
inductive Reference where
  | user (id : Uuid)
  | barbershop (id : Uuid)
  | barber (id : Uuid)
  | service (id : Uuid)

namespace Database

/-- The row is stored. -/
def Has (db : Database) : Reference → Prop
  | .user id => (db.user? id).isSome
  | .barbershop id => (db.barbershop? id).isSome
  | .barber id => (db.barber? id).isSome
  | .service id => (db.service? id).isSome

instance (db : Database) : DecidablePred db.Has
  | .user id => inferInstanceAs (Decidable ((db.user? id).isSome = true))
  | .barbershop id =>
      inferInstanceAs (Decidable ((db.barbershop? id).isSome = true))
  | .barber id => inferInstanceAs (Decidable ((db.barber? id).isSome = true))
  | .service id => inferInstanceAs (Decidable ((db.service? id).isSome = true))

/-- Every row that is referred to has a property, reviews and reminders apart. -/
structure RefersTo (has : Reference → Prop) (db : Database) : Prop where
  barbershops : ∀ s ∈ db.barbershops, has (.user s.ownerId)
  barbers : ∀ b ∈ db.barbers, has (.user b.userId) ∧ has (.barbershop b.shopId)
  services : ∀ s ∈ db.services, has (.barbershop s.shopId)
  barberServices : ∀ link ∈ db.barberServices,
    has (.barber link.1) ∧ has (.service link.2)
  workingHours : ∀ h ∈ db.workingHours, has (.barber h.barberId)
  barberBreaks : ∀ b ∈ db.barberBreaks, has (.barber b.barberId)
  shopClosures : ∀ c ∈ db.shopClosures, has (.barbershop c.shopId)
  appointments : ∀ a ∈ db.appointments,
    has (.user a.customerId) ∧ has (.barber a.barberId) ∧
      has (.service a.serviceId) ∧ ∀ id ∈ a.cancelledById, has (.user id)
  refreshTokens : ∀ t ∈ db.refreshTokens, has (.user t.userId)

/-- The primary keys, the unique constraints and the unique indexes of the same
tables. -/
structure KeysHold (env : Env) (db : Database) : Prop where
  users : UniqueKeys User.id db.users
  emails : UniqueKeys (fun u : User => env.lower u.email) db.users
  barbershops : UniqueKeys Barbershop.id db.barbershops
  barbers : UniqueKeys Barber.id db.barbers
  places : UniqueKeys (fun b : Barber => (b.userId, b.shopId)) db.barbers
  services : UniqueKeys Service.id db.services
  names : db.NamesUnique env
  barberServices : db.barberServices.Nodup
  workingHours : UniqueKeys WorkingHours.id db.workingHours
  shifts : UniqueKeys (fun h : WorkingHours =>
    (h.barberId, h.weekday, h.startTime)) db.workingHours
  barberBreaks : UniqueKeys BarberBreak.id db.barberBreaks
  shopClosures : UniqueKeys ShopClosure.id db.shopClosures
  ranges : UniqueKeys (fun c : ShopClosure =>
    (c.shopId, c.startDate, c.endDate)) db.shopClosures
  appointments : UniqueKeys Appointment.id db.appointments
  refreshTokens : UniqueKeys RefreshToken.id db.refreshTokens
  tokenHashes : UniqueKeys RefreshToken.tokenHash db.refreshTokens

/-- The CHECK constraints, those on ratings and reviews apart. -/
structure RowsChecked (db : Database) : Prop where
  barbers : ∀ b ∈ db.barbers, 0 ≤ b.experienceYears
  services : ∀ s ∈ db.services, s.Checked
  workingHours : ∀ h ∈ db.workingHours, h.Checked
  barberBreaks : ∀ b ∈ db.barberBreaks, b.startDatetime < b.endDatetime
  shopClosures : ∀ c ∈ db.shopClosures, c.startDate ≤ c.endDate
  appointments : ∀ a ∈ db.appointments, a.Checked

/-- Every constraint of the schema that is not on reviews, ratings or
reminders. -/
structure Intact (env : Env) (db : Database) : Prop where
  keys : db.KeysHold env
  references : db.RefersTo db.Has
  checks : db.RowsChecked
  noDoubleBooking : env.noDoubleBooking = true → db.NoDoubleBooking

/-- The constraints on reviews, ratings and reminders. -/
structure Graded (db : Database) : Prop where
  ratings : ∀ b ∈ db.barbers,
    0 ≤ b.rating ∧ b.rating ≤ 500 ∧ 0 ≤ b.reviewsCount
  reviews : UniqueKeys Review.id db.reviews
  reviewed : UniqueKeys Review.appointmentId db.reviews
  reviewChecks : ∀ r ∈ db.reviews, r.Checked
  reviewReferences : ∀ r ∈ db.reviews, db.Has (.user r.customerId) ∧
    db.Has (.barber r.barberId) ∧ (db.appointment? r.appointmentId).isSome
  reminders : UniqueKeys (fun r : AppointmentReminder =>
    (r.appointmentId, r.kind)) db.appointmentReminders
  reminderReferences : ∀ r ∈ db.appointmentReminders,
    (db.appointment? r.appointmentId).isSome

variable {env : Env} {s s' : Database}

theorem Intact.editedKeys (h : s.Intact env) : s.EditedKeys :=
  ⟨h.keys.barbershops, h.keys.barbers, h.keys.services⟩

/-- Together they are what a valid database satisfies. -/
theorem Intact.valid (henforced : env.noDoubleBooking = true)
    (h : s.Intact env) (hgraded : s.Graded) : s.Valid where
  keys := { h.keys with reviews := hgraded.reviews }
  references :=
    { h.references with
      appointments := fun a ha =>
        have ⟨hcustomer, hbarber, hservice, _⟩ := h.references.appointments a ha
        ⟨hcustomer, hbarber, hservice⟩
      reviews := hgraded.reviewReferences
      appointmentReminders := hgraded.reminderReferences }
  checks :=
    { h.checks with
      barbers := fun b hb => ⟨h.checks.barbers b hb, hgraded.ratings b hb⟩
      reviews := hgraded.reviewChecks }
  barbers_unique := h.keys.places
  workingHours_unique := h.keys.shifts
  shopClosures_unique := h.keys.ranges
  tokenHash_unique := h.keys.tokenHashes
  reviews_unique := hgraded.reviewed
  appointmentReminders_unique := hgraded.reminders
  noDoubleBooking := h.noDoubleBooking henforced

theorem Valid.graded (h : s.Valid) : s.Graded where
  ratings b hb := (h.checks.barbers b hb).2
  reviews := h.keys.reviews
  reviewed := h.reviews_unique
  reviewChecks := h.checks.reviews
  reviewReferences := h.references.reviews
  reminders := h.appointmentReminders_unique
  reminderReferences := h.references.appointmentReminders

/-! ## References -/

theorem RefersTo.mono {has has' : Reference → Prop} (h : s.RefersTo has)
    (hmono : ∀ r, has r → has' r) : s.RefersTo has' where
  barbershops row hrow := hmono _ (h.barbershops row hrow)
  barbers row hrow := (h.barbers row hrow).imp (hmono _) (hmono _)
  services row hrow := hmono _ (h.services row hrow)
  barberServices link hlink :=
    (h.barberServices link hlink).imp (hmono _) (hmono _)
  workingHours row hrow := hmono _ (h.workingHours row hrow)
  barberBreaks row hrow := hmono _ (h.barberBreaks row hrow)
  shopClosures row hrow := hmono _ (h.shopClosures row hrow)
  appointments row hrow := by
    obtain ⟨hcustomer, hbarber, hservice, huser⟩ := h.appointments row hrow
    exact ⟨hmono _ hcustomer, hmono _ hbarber, hmono _ hservice,
      fun id hid => hmono _ (huser id hid)⟩
  refreshTokens row hrow := hmono _ (h.refreshTokens row hrow)

theorem isSome_of_grows {α : Type} {R : α → α → Prop} {key : α → Uuid}
    {rows rows' : List α} (hkey : ∀ r r', R r r' → key r' = key r)
    (h : Grows R rows rows') {id : Uuid} (hid : (lookup key rows id).isSome) :
    (lookup key rows' id).isSome := by
  obtain ⟨row, hrow⟩ := Option.isSome_iff_exists.mp hid
  obtain ⟨row', hrow', -⟩ := h.lookup_of_some hkey hrow
  rw [hrow']
  rfl

/-- What is referred to stays. -/
theorem RecordsKept.has (h : s.RecordsKept s') (r : Reference) (hr : s.Has r) :
    s'.Has r := by
  cases r with
  | user id =>
      refine isSome_of_grows ?_ h.users hr
      intro user user' hkept
      rw [hkept]
  | barbershop id =>
      exact isSome_of_grows (fun _ _ hkept => hkept.id_eq) h.barbershops hr
  | barber id =>
      exact isSome_of_grows (fun _ _ hkept => congrArg Prod.fst hkept)
        h.barbers hr
  | service id =>
      exact isSome_of_grows (fun _ _ hkept => hkept.id_eq) h.services hr

theorem RecordsKept.appointment (h : s.RecordsKept s') {id : Uuid}
    (hid : (s.appointment? id).isSome) : (s'.appointment? id).isSome :=
  isSome_of_grows (fun _ _ hkept => hkept.id_eq) h.appointments hid

/-! ## One statement -/

/-! ### Appointments -/

theorem has_of_insertAppointment {row : Appointment}
    (hw : insertAppointment env row s = .ok s') :
    s.Has (.user row.customerId) ∧ s.Has (.barber row.barberId) ∧
      s.Has (.service row.serviceId) := by
  rw [insertAppointment] at hw
  split at hw
  · simp at hw
  split at hw
  · simp at hw
  split at hw
  · simp at hw
  split at hw
  · simp at hw
  next hstored =>
    simp only [not_or, ← Option.isSome_iff_ne_none, Option.isNone_iff_eq_none, ← ne_eq] at hstored
    exact hstored

theorem has_of_updateAppointment {id : Uuid} {u : AppointmentUpdate}
    (hw : updateAppointment env id u s = .ok s') {row : Appointment}
    (hrow : s.appointment? id = some row) :
    u = {} ∨ ∀ userId ∈ u.cancelledById.join, s.Has (.user userId) := by
  rw [updateAppointment] at hw
  split at hw
  next hu => exact Or.inl hu
  rw [hrow] at hw
  dsimp only at hw
  split at hw
  · simp at hw
  split at hw
  · simp at hw
  split at hw
  · simp at hw
  next hstored =>
    refine Or.inr fun userId hmem => ?_
    by_contra hnone
    exact hstored ⟨userId, hmem, by simpa [Has] using hnone⟩

theorem Intact.calendar (h : s.Intact env)
    (henforced : env.noDoubleBooking = true) : s.Calendar where
  keys := h.keys.appointments
  ordered a ha := (h.checks.appointments a ha).1
  disjoint := h.noDoubleBooking henforced

theorem Intact.insertAppointment (h : s.Intact env)
    (hkept : ∀ r, s.Has r → s'.Has r) {row : Appointment}
    (hnew : row.cancelledById = none)
    (hw : BarberHub.insertAppointment env row s = .ok s') : s'.Intact env := by
  obtain ⟨hcustomer, hbarber, hservice⟩ := has_of_insertAppointment hw
  have hchecked := checked_of_insertAppointment hw
  have hcalendar : env.noDoubleBooking = true → s'.NoDoubleBooking :=
    fun henforced => ((h.calendar henforced).insert
      ((insertAppointment_eq_ok hw).2.2 henforced) hw).disjoint
  obtain ⟨rfl, hfresh, -⟩ := insertAppointment_eq_ok hw
  refine ⟨{ h.keys with
    appointments := h.keys.appointments.append_singleton hfresh },
    { h.references.mono hkept with appointments := ?_ },
    { h.checks with
      appointments := forall_mem_concat h.checks.appointments hchecked },
    hcalendar⟩
  apply forall_mem_concat (h.references.mono hkept).appointments
  refine ⟨hkept _ hcustomer, hkept _ hbarber, hkept _ hservice, ?_⟩
  simp [hnew]

theorem Intact.updateAppointment (h : s.Intact env)
    (hkept : ∀ r, s.Has r → s'.Has r) {id : Uuid} {u : AppointmentUpdate}
    (hw : BarberHub.updateAppointment env id u s = .ok s') :
    s'.Intact env := by
  have hrow : ∀ row ∈ s.appointments, row.id = id →
      s.appointment? id = some row := fun row hmem hid =>
    h.keys.appointments.lookup_eq_some_iff.mpr ⟨hmem, hid⟩
  by_cases hu : u = {}
  · subst hu
    rw [BarberHub.updateAppointment, if_pos rfl] at hw
    obtain rfl := Except.ok.inj hw
    exact h
  have hcalendar : env.noDoubleBooking = true → s'.NoDoubleBooking := by
    intro henforced
    refine ((h.calendar henforced).update ?_ hw).disjoint
    intro row hmem
    exact (free_of_updateAppointment henforced hw hmem).resolve_left hu
  have hchecked : ∀ row ∈ s.appointments, row.id = id → (u.apply row).Checked :=
    fun row hmem hid =>
      (checked_of_updateAppointment hw (hrow row hmem hid)).resolve_left hu
  have husers : ∀ row ∈ s.appointments, row.id = id →
      ∀ userId ∈ u.cancelledById.join, s.Has (.user userId) :=
    fun row hmem hid =>
      (has_of_updateAppointment hw (hrow row hmem hid)).resolve_left hu
  obtain rfl := updateAppointment_eq_ok hw
  refine ⟨{ h.keys with
    appointments := h.keys.appointments.updateAt fun _ _ _ => rfl },
    { h.references.mono hkept with appointments := ?_ },
    { h.checks with
      appointments := forall_mem_updateAt h.checks.appointments hchecked },
    hcalendar⟩
  apply forall_mem_updateAt (h.references.mono hkept).appointments
  intro row hmem hid
  obtain ⟨hcustomer, hbarber, hservice, huser⟩ :=
    (h.references.mono hkept).appointments row hmem
  refine ⟨hcustomer, hbarber, hservice, ?_⟩
  -- who cancelled is a user that was stored, or the one there was
  intro userId huserId
  cases hcancelled : u.cancelledById with
  | none =>
      apply huser
      simpa [AppointmentUpdate.apply, hcancelled] using huserId
  | some value =>
      apply hkept
      apply husers row hmem hid
      simpa [AppointmentUpdate.apply, hcancelled] using huserId

theorem Intact.expired {stale : List Appointment} (h : s.Intact env)
    (hw : stale.foldlM (fun db a =>
      BarberHub.updateAppointment env a.id (expiry a) db) s = .ok s') :
    s'.Intact env := by
  induction stale generalizing s with
  | nil =>
      obtain rfl := Except.ok.inj hw
      exact h
  | cons a stale ih =>
      rw [List.foldlM_cons, bind_eq_ok_iff] at hw
      obtain ⟨t, ht, hw⟩ := hw
      refine ih (h.updateAppointment ?_ ht) hw
      have hkept := keepsRecords_of_appointments
        (by rw [updateAppointment_eq_ok ht]) (grows_updateAppointment ht)
      exact (hkept h.editedKeys).2.has

/-! ### The directory -/

theorem Intact.flushBarber (h : s.Intact env)
    (hkept : ∀ r, s.Has r → s'.Has r) {id : Uuid} {u : BarberUpdate}
    (hw : BarberHub.flushBarber id u s = .ok s') : s'.Intact env := by
  rw [BarberHub.flushBarber] at hw
  split at hw
  · obtain rfl := Except.ok.inj hw
    exact h
  simp only [bind_eq_ok_iff] at hw
  obtain ⟨_, -, barbers, hrows, hw⟩ := hw
  obtain rfl := Except.ok.inj hw
  obtain ⟨row, new, hrow, hnew, hconstraints, rfl⟩ := updateRow_eq_ok hrows
  obtain ⟨hid, huser, hshop, -⟩ := BarberUpdate.apply_eq_ok hnew
  have hchecked : new.Checked := enforce_eq_ok hconstraints
  have hrefs := h.references.mono hkept
  refine ⟨{ h.keys with
    barbers := h.keys.barbers.replace h.keys.barbers hrow hid
    places := h.keys.places.replace h.keys.barbers hrow
      (by rw [huser, hshop]) }, { hrefs with barbers := ?_ },
    { h.checks with
      barbers := forall_mem_replace h.checks.barbers hchecked.1 },
    h.noDoubleBooking⟩
  apply forall_mem_replace hrefs.barbers
  rw [huser, hshop]
  exact hrefs.barbers row (mem_of_lookup hrow)

theorem Intact.flushService (h : s.Intact env)
    (hkept : ∀ r, s.Has r → s'.Has r) {id : Uuid} {u : ServiceUpdate}
    (hw : BarberHub.flushService env id u s = .ok s') : s'.Intact env := by
  obtain ⟨hkeys, hnames⟩ :=
    namesUnique_flushService h.keys.services h.keys.names hw
  rw [BarberHub.flushService] at hw
  split at hw
  · obtain rfl := Except.ok.inj hw
    exact h
  simp only [bind_eq_ok_iff] at hw
  obtain ⟨_, -, services, hrows, hw⟩ := hw
  obtain rfl := Except.ok.inj hw
  obtain ⟨row, new, hrow, hnew, hconstraints, rfl⟩ := updateRow_eq_ok hrows
  obtain ⟨-, hshop, -⟩ := ServiceUpdate.apply_eq_ok hnew
  obtain ⟨_, hchecked, -⟩ := bind_eq_ok_iff.mp hconstraints
  have hrefs := h.references.mono hkept
  refine ⟨{ h.keys with services := hkeys, names := hnames },
    { hrefs with services := ?_ },
    { h.checks with
      services := forall_mem_replace h.checks.services
        (enforce_eq_ok hchecked) }, h.noDoubleBooking⟩
  apply forall_mem_replace hrefs.services
  rw [hshop]
  exact hrefs.services row (mem_of_lookup hrow)

theorem Intact.flushShop (h : s.Intact env)
    (hkept : ∀ r, s.Has r → s'.Has r) {id : Uuid} {u : BarbershopUpdate}
    (hw : BarberHub.flushShop id u s = .ok s') : s'.Intact env := by
  rw [BarberHub.flushShop] at hw
  split at hw
  · obtain rfl := Except.ok.inj hw
    exact h
  simp only [bind_eq_ok_iff] at hw
  obtain ⟨_, -, barbershops, hrows, hw⟩ := hw
  obtain rfl := Except.ok.inj hw
  obtain ⟨row, new, hrow, hnew, -, rfl⟩ := updateRow_eq_ok hrows
  obtain ⟨hid, howner, -⟩ := BarbershopUpdate.apply_eq_ok hnew
  have hrefs := h.references.mono hkept
  refine ⟨{ h.keys with
    barbershops := h.keys.barbershops.replace h.keys.barbershops hrow hid },
    { hrefs with barbershops := ?_ }, { h.checks with }, h.noDoubleBooking⟩
  apply forall_mem_replace hrefs.barbershops
  rw [howner]
  exact hrefs.barbershops row (mem_of_lookup hrow)

theorem Intact.flushBarberServices (h : s.Intact env)
    (hkept : ∀ r, s.Has r → s'.Has r) {barberId : Uuid}
    {removed added : List Uuid}
    (hw : BarberHub.flushBarberServices barberId removed added s = .ok s') :
    s'.Intact env := by
  rw [BarberHub.flushBarberServices] at hw
  simp only [bind_eq_ok_iff] at hw
  obtain ⟨_, hunique, _, hstored, hw⟩ := hw
  obtain rfl := Except.ok.inj hw
  obtain ⟨hnodup, hfresh⟩ := enforce_eq_ok hunique
  have hrefs := h.references.mono hkept
  refine ⟨{ h.keys with barberServices := ?_ },
    { hrefs with barberServices := ?_ }, { h.checks with }, h.noDoubleBooking⟩
  · apply (h.keys.barberServices.filter _).append hnodup
    exact fun link hold hnew => hfresh link hnew hold
  · refine List.forall_mem_append.mpr ⟨?_, ?_⟩
    · exact fun link hlink =>
        hrefs.barberServices link (List.mem_of_mem_filter hlink)
    · intro link hlink
      obtain ⟨hbarber, hservice⟩ := enforce_eq_ok hstored link hlink
      exact ⟨hkept (.barber link.1) hbarber, hkept (.service link.2) hservice⟩

theorem Intact.insertShop (h : s.Intact env)
    (hkept : ∀ r, s.Has r → s'.Has r) {row : Barbershop}
    (hw : BarberHub.insertShop row s = .ok s') : s'.Intact env := by
  rw [BarberHub.insertShop] at hw
  simp only [bind_eq_ok_iff] at hw
  obtain ⟨_, hfresh, _, howner, hw⟩ := hw
  obtain rfl := Except.ok.inj hw
  have howner := enforce_eq_ok howner
  have hrefs := h.references.mono hkept
  exact ⟨{ h.keys with
    barbershops := h.keys.barbershops.append_singleton
      (lookup_eq_none_iff.mp (enforce_eq_ok hfresh)) },
    { hrefs with
      barbershops := forall_mem_concat hrefs.barbershops
        (hkept (.user row.ownerId) howner) },
    { h.checks with }, h.noDoubleBooking⟩

theorem Intact.insertService (h : s.Intact env)
    (hkept : ∀ r, s.Has r → s'.Has r) {row : Service}
    (hw : BarberHub.insertService env row s = .ok s') : s'.Intact env := by
  rw [BarberHub.insertService] at hw
  simp only [bind_eq_ok_iff] at hw
  obtain ⟨_, hchecked, _, hfresh, _, hnames, _, hshop, hw⟩ := hw
  obtain rfl := Except.ok.inj hw
  have hshop := enforce_eq_ok hshop
  have hrefs := h.references.mono hkept
  refine ⟨{ h.keys with
    services := h.keys.services.append_singleton
      (lookup_eq_none_iff.mp (enforce_eq_ok hfresh))
    names := h.keys.names.append_singleton ?_ },
    { hrefs with
      services := forall_mem_concat hrefs.services
        (hkept (.barbershop row.shopId) hshop) },
    { h.checks with
      services := forall_mem_concat h.checks.services
        (enforce_eq_ok hchecked) }, h.noDoubleBooking⟩
  intro other hother hsame
  obtain ⟨hshop, hname⟩ := Prod.mk.inj hsame
  exact enforce_eq_ok hnames other hother hshop hname

theorem Intact.insertBarber (h : s.Intact env)
    (hkept : ∀ r, s.Has r → s'.Has r) {row : Barber}
    (hw : BarberHub.insertBarber row s = .ok s') : s'.Intact env := by
  rw [BarberHub.insertBarber] at hw
  simp only [bind_eq_ok_iff] at hw
  obtain ⟨_, hchecked, _, hfresh, _, hplace, _, hstored, hw⟩ := hw
  obtain rfl := Except.ok.inj hw
  obtain ⟨huser, hshop⟩ := enforce_eq_ok hstored
  have hrefs := h.references.mono hkept
  refine ⟨{ h.keys with
    barbers := h.keys.barbers.append_singleton
      (lookup_eq_none_iff.mp (enforce_eq_ok hfresh))
    places := h.keys.places.append_singleton ?_ },
    { hrefs with
      barbers := forall_mem_concat hrefs.barbers
        ⟨hkept (.user row.userId) huser,
          hkept (.barbershop row.shopId) hshop⟩ },
    { h.checks with
      barbers := forall_mem_concat h.checks.barbers
        (enforce_eq_ok hchecked).1 }, h.noDoubleBooking⟩
  intro other hother hsame
  exact enforce_eq_ok hplace other hother (Prod.mk.inj hsame)

/-- An UPDATE of an account that leaves id and email. -/
theorem Intact.updateUser (h : s.Intact env) {id : Uuid} {f : User → User}
    (hf : ∀ user, (f user).id = user.id ∧ (f user).email = user.email)
    (hkept : ∀ r, s.Has r →
      Has { s with users := updateAt User.id id f s.users } r) :
    Intact env { s with users := updateAt User.id id f s.users } := by
  refine ⟨{ h.keys with users := ?_, emails := ?_ },
    { h.references.mono hkept with }, { h.checks with }, h.noDoubleBooking⟩
  · exact h.keys.users.updateAt fun user _ _ => (hf user).1
  · rw [UniqueKeys, map_updateAt]
    · exact h.keys.emails
    · intro user _ _
      rw [(hf user).2]

theorem has_updateUser {id : Uuid} {f : User → User}
    (hf : ∀ user : User, (f user).id = user.id) (r : Reference) (hr : s.Has r) :
    Has { s with users := updateAt User.id id f s.users } r := by
  cases r with
  | user userId =>
      rw [Has, Database.user?, isSome_lookup_updateAt]
      · exact hr
      · exact fun user huser => (hf user).trans huser
  | barbershop id => exact hr
  | barber id => exact hr
  | service id => exact hr

theorem Intact.flushNewBarber (h : s.Intact env) {row : Barber} {account : User}
    (hw : BarberHub.flushNewBarber row account s = .ok s') : s'.Intact env := by
  rw [BarberHub.flushNewBarber] at hw
  obtain ⟨t, hinsert, hw⟩ := bind_eq_ok_iff.mp hw
  have hinserted : t.Intact env := by
    apply h.insertBarber ?_ hinsert
    rw [(insertBarber_eq_ok hinsert).1]
    exact RecordsKept.has { RecordsKept.refl s with
      barbers := grows_append Barber.Kept.refl _ _ }
  split at hw
  · rw [promote] at hw
    split at hw
    · obtain rfl := Except.ok.inj hw
      exact hinserted.updateUser (fun _ => ⟨rfl, rfl⟩)
        (has_updateUser fun _ => rfl)
    · simp at hw
  · obtain rfl := Except.ok.inj hw
    exact hinserted

/-! ### Schedules -/

theorem Intact.flushWorkingHours (h : s.Intact env)
    (hkept : ∀ r, s.Has r → s'.Has r) {deleted : List Uuid}
    {rows : List WorkingHours}
    (hw : BarberHub.flushWorkingHours deleted rows s = .ok s') :
    s'.Intact env := by
  rw [BarberHub.flushWorkingHours] at hw
  simp only [bind_eq_ok_iff] at hw
  obtain ⟨_, hchecked, _, hkeys, _, hshifts, _, hstored, hw⟩ := hw
  obtain rfl := Except.ok.inj hw
  have hstored := enforce_eq_ok hstored
  have hrefs := h.references.mono hkept
  refine ⟨{ h.keys with
    workingHours := enforce_eq_ok hkeys
    shifts := enforce_eq_ok hshifts }, { hrefs with workingHours := ?_ },
    { h.checks with workingHours := ?_ }, h.noDoubleBooking⟩
  · refine List.forall_mem_append.mpr ⟨?_, ?_⟩
    · exact fun row hrow => hrefs.workingHours row (List.mem_of_mem_filter hrow)
    · exact fun row hrow => hkept (.barber row.barberId) (hstored row hrow)
  · refine List.forall_mem_append.mpr ⟨?_, enforce_eq_ok hchecked⟩
    exact fun row hrow =>
      h.checks.workingHours row (List.mem_of_mem_filter hrow)

theorem Intact.insertBreak (h : s.Intact env)
    (hkept : ∀ r, s.Has r → s'.Has r) {row : BarberBreak}
    (hw : BarberHub.insertBreak row s = .ok s') : s'.Intact env := by
  rw [BarberHub.insertBreak] at hw
  simp only [bind_eq_ok_iff] at hw
  obtain ⟨_, hchecked, _, hfresh, _, hbarber, hw⟩ := hw
  obtain rfl := Except.ok.inj hw
  have hbarber := enforce_eq_ok hbarber
  have hrefs := h.references.mono hkept
  exact ⟨{ h.keys with
    barberBreaks := h.keys.barberBreaks.append_singleton
      (lookup_eq_none_iff.mp (enforce_eq_ok hfresh)) },
    { hrefs with
      barberBreaks := forall_mem_concat hrefs.barberBreaks
        (hkept (.barber row.barberId) hbarber) },
    { h.checks with
      barberBreaks := forall_mem_concat h.checks.barberBreaks
        (enforce_eq_ok hchecked) }, h.noDoubleBooking⟩

theorem Intact.insertClosure (h : s.Intact env)
    (hkept : ∀ r, s.Has r → s'.Has r) {row : ShopClosure}
    (hw : BarberHub.insertClosure row s = .ok s') : s'.Intact env := by
  rw [BarberHub.insertClosure] at hw
  simp only [bind_eq_ok_iff] at hw
  obtain ⟨_, hchecked, _, hfresh, _, hrange, _, hshop, hw⟩ := hw
  obtain rfl := Except.ok.inj hw
  have hshop := enforce_eq_ok hshop
  have hrefs := h.references.mono hkept
  exact ⟨{ h.keys with
    shopClosures := h.keys.shopClosures.append_singleton
      (lookup_eq_none_iff.mp (enforce_eq_ok hfresh))
    ranges := h.keys.ranges.append_singleton (enforce_eq_ok hrange) },
    { hrefs with
      shopClosures := forall_mem_concat hrefs.shopClosures
        (hkept (.barbershop row.shopId) hshop) },
    { h.checks with
      shopClosures := forall_mem_concat h.checks.shopClosures
        (enforce_eq_ok hchecked) }, h.noDoubleBooking⟩

/-- Nothing refers to a break. -/
theorem Intact.deleteBreaks (h : s.Intact env) (keep : BarberBreak → Bool) :
    Intact env { s with barberBreaks := s.barberBreaks.filter keep } :=
  ⟨{ h.keys with barberBreaks := h.keys.barberBreaks.filter keep },
    { h.references with
      barberBreaks := fun row hrow =>
        h.references.barberBreaks row (List.mem_of_mem_filter hrow) },
    { h.checks with
      barberBreaks := fun row hrow =>
        h.checks.barberBreaks row (List.mem_of_mem_filter hrow) },
    h.noDoubleBooking⟩

/-- Nothing refers to a closure. -/
theorem Intact.deleteClosures (h : s.Intact env) (keep : ShopClosure → Bool) :
    Intact env { s with shopClosures := s.shopClosures.filter keep } :=
  ⟨{ h.keys with
      shopClosures := h.keys.shopClosures.filter keep
      ranges := h.keys.ranges.filter keep },
    { h.references with
      shopClosures := fun row hrow =>
        h.references.shopClosures row (List.mem_of_mem_filter hrow) },
    { h.checks with
      shopClosures := fun row hrow =>
        h.checks.shopClosures row (List.mem_of_mem_filter hrow) },
    h.noDoubleBooking⟩

/-! ### Accounts -/

theorem Intact.flushAccount (h : s.Intact env) {user : User}
    (hw : BarberHub.flushAccount env user s = .ok s') : s'.Intact env := by
  rw [BarberHub.flushAccount] at hw
  split at hw
  · simp at hw
  rw [insertUser] at hw
  simp only [bind_eq_ok_iff] at hw
  obtain ⟨_, hfresh, _, hemail, hw⟩ := hw
  obtain rfl := Except.ok.inj hw
  have hkept : s.RecordsKept { s with users := s.users ++ [user] } :=
    { RecordsKept.refl s with users := grows_append User.Kept.refl _ _ }
  exact ⟨{ h.keys with
    users := h.keys.users.append_singleton
      (lookup_eq_none_iff.mp (enforce_eq_ok hfresh))
    emails := h.keys.emails.append_singleton
      (lookup_eq_none_iff.mp (enforce_eq_ok hemail)) },
    { h.references.mono hkept.has with }, { h.checks with },
    h.noDoubleBooking⟩

theorem Intact.flushRehash (h : s.Intact env) {user : User}
    {password salt : String}
    (hw : BarberHub.flushRehash env user password salt s = .ok s') :
    s'.Intact env := by
  rw [BarberHub.flushRehash] at hw
  split at hw
  · rw [updatePasswordHash] at hw
    split at hw
    · obtain rfl := Except.ok.inj hw
      exact h.updateUser (fun _ => ⟨rfl, rfl⟩) (has_updateUser fun _ => rfl)
    · simp at hw
  · obtain rfl := Except.ok.inj hw
    exact h

theorem Intact.insertRefreshToken (h : s.Intact env) {row : RefreshToken}
    (hw : BarberHub.insertRefreshToken row s = .ok s') : s'.Intact env := by
  rw [BarberHub.insertRefreshToken] at hw
  split at hw
  · simp at hw
  next hfresh =>
  split at hw
  · simp at hw
  next huser =>
  obtain rfl := Except.ok.inj hw
  obtain ⟨hid, hhash⟩ := not_or.mp hfresh
  rw [Option.not_isSome_iff_eq_none] at hhash
  refine ⟨{ h.keys with
    refreshTokens := h.keys.refreshTokens.append_singleton
      fun other hother hsame => hid (List.mem_map.mpr ⟨other, hother, hsame⟩)
    tokenHashes :=
      h.keys.tokenHashes.append_singleton (lookup_eq_none_iff.mp hhash) },
    { h.references with refreshTokens := ?_ }, { h.checks with },
    h.noDoubleBooking⟩
  apply forall_mem_concat h.references.refreshTokens
  rw [Option.isNone_iff_eq_none, ← ne_eq, ← Option.isSome_iff_ne_none] at huser
  exact huser

theorem Intact.revokeTokens (h : s.Intact env) (ids : List Uuid) (moment : ℤ) :
    (BarberHub.revokeTokens ids moment s).Intact env := by
  have hcolumn : ∀ {β : Type} (column : RefreshToken → β),
      (∀ t : RefreshToken, column { t with revokedAt := some moment } =
        column t) →
      (BarberHub.revokeTokens ids moment s).refreshTokens.map column =
        s.refreshTokens.map column := by
    intro β column hsame
    rw [BarberHub.revokeTokens, List.map_map]
    apply List.map_congr_left
    intro t _
    rw [Function.comp_apply]
    split
    · exact hsame t
    · rfl
  refine ⟨{ h.keys with refreshTokens := ?_, tokenHashes := ?_ },
    { h.references with refreshTokens := ?_ }, { h.checks with },
    h.noDoubleBooking⟩
  · rw [UniqueKeys, hcolumn RefreshToken.id fun _ => rfl]
    exact h.keys.refreshTokens
  · rw [UniqueKeys, hcolumn RefreshToken.tokenHash fun _ => rfl]
    exact h.keys.tokenHashes
  · intro t ht
    have huser := List.mem_map_of_mem (f := RefreshToken.userId) ht
    rw [hcolumn RefreshToken.userId fun _ => rfl] at huser
    obtain ⟨old, hold, hsame⟩ := List.mem_map.mp huser
    rw [← hsame]
    exact h.references.refreshTokens old hold

theorem Intact.rotateToken (h : s.Intact env) {id : Uuid} {moment : ℤ}
    {row : RefreshToken}
    (hw : BarberHub.rotateToken id moment row s = .ok s') : s'.Intact env := by
  rw [BarberHub.rotateToken] at hw
  split at hw
  · exact (h.revokeTokens _ _).insertRefreshToken hw
  · simp at hw

/-! ### Ratings -/

theorem Intact.noted (h : s.Intact env) (hkept : ∀ r, s.Has r → s'.Has r)
    (hw : s.Noted s') : s'.Intact env := by
  obtain ⟨rate, hrate, hbarbers⟩ := hw.barbers
  have hcolumn : ∀ {β : Type} (column : Barber → β),
      (∀ b, column (rate b) = column b) →
      s'.barbers.map column = s.barbers.map column := by
    intro β column hsame
    rw [hbarbers, List.map_map]
    exact List.map_congr_left fun b _ => hsame b
  have hold : ∀ b' ∈ s'.barbers, ∃ b ∈ s.barbers, b.Rerated b' := by
    intro b' hb'
    rw [hbarbers] at hb'
    obtain ⟨b, hb, rfl⟩ := List.mem_map.mp hb'
    exact ⟨b, hb, hrate b⟩
  have hrefs := h.references.mono hkept
  have hframe := hw.frame
  have hkeys : UniqueKeys Barber.id s'.barbers := by
    rw [UniqueKeys, hcolumn Barber.id fun b => by rw [hrate b]]
    exact h.keys.barbers
  have hplaces : UniqueKeys (fun b : Barber => (b.userId, b.shopId))
      s'.barbers := by
    rw [UniqueKeys, hcolumn _ fun b => by rw [hrate b]]
    exact h.keys.places
  have hpeople : ∀ b' ∈ s'.barbers, s'.Has (.user b'.userId) ∧
      s'.Has (.barbershop b'.shopId) := by
    intro b' hb'
    obtain ⟨b, hb, hrerated⟩ := hold b' hb'
    rw [hrerated]
    exact hrefs.barbers b hb
  have hyears : ∀ b' ∈ s'.barbers, 0 ≤ b'.experienceYears := by
    intro b' hb'
    obtain ⟨b, hb, hrerated⟩ := hold b' hb'
    rw [hrerated]
    exact h.checks.barbers b hb
  rw [hframe] at hrefs hkeys hplaces hpeople hyears ⊢
  exact ⟨{ h.keys with barbers := hkeys, places := hplaces },
    { hrefs with barbers := hpeople }, { h.checks with barbers := hyears },
    h.noDoubleBooking⟩

end Database

end BarberHub
