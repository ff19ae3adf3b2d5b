import BarberHub.Support.GrowingTables
import BarberHub.System.Commits
import BarberHub.System.Statements

/-!
# What is never deleted

Nothing with a history is deleted: switching off a barber, a service or a shop
sets a column.  This module shows that, in whatever order the statements of
requests and tasks are executed, accounts, shops, barbers, services,
appointments, reviews, reminders and tokens stay in their tables, each with the
columns that say what it is about.
-/

namespace BarberHub

open KeyedTable ReadCommitted Program Pool Fallible

/-! ## What is kept of a row -/

/-- The same account, with another role or password. -/
def User.Kept (user user' : User) : Prop :=
  user' = { user with role := user'.role, passwordHash := user'.passwordHash }

/-- The same shop, edited. -/
structure Barbershop.Kept (shop shop' : Barbershop) : Prop where
  id_eq : shop'.id = shop.id
  owner_eq : shop'.ownerId = shop.ownerId

/-- The same barber, edited or rated. -/
def Barber.Kept (barber barber' : Barber) : Prop :=
  barber'.place = barber.place

/-- The same service, edited. -/
structure Service.Kept (service service' : Service) : Prop where
  id_eq : service'.id = service.id
  shop_eq : service'.shopId = service.shopId

/-- The same token; what is revoked stays so. -/
structure RefreshToken.Kept (token token' : RefreshToken) : Prop where
  same : token' = { token with revokedAt := token'.revokedAt }
  revoked : token.revokedAt ≠ none → token'.revokedAt ≠ none

theorem User.Kept.refl (user : User) : user.Kept user := rfl

theorem Barbershop.Kept.refl (shop : Barbershop) : shop.Kept shop :=
  ⟨rfl, rfl⟩

theorem Barber.Kept.refl (barber : Barber) : barber.Kept barber := rfl

theorem Service.Kept.refl (service : Service) : service.Kept service :=
  ⟨rfl, rfl⟩

theorem RefreshToken.Kept.trans {a b c : RefreshToken} (h : a.Kept b)
    (h' : b.Kept c) : a.Kept c := by
  refine ⟨?_, fun hrevoked => h'.revoked (h.revoked hrevoked)⟩
  rw [h'.same, h.same]

theorem RefreshToken.Kept.refl (token : RefreshToken) : token.Kept token :=
  ⟨rfl, fun hrevoked => hrevoked⟩

namespace Database

/-- Rows stay where they are, and keep what they are about. -/
structure RecordsKept (s s' : Database) : Prop where
  users : Grows User.Kept s.users s'.users
  barbershops : Grows Barbershop.Kept s.barbershops s'.barbershops
  barbers : Grows Barber.Kept s.barbers s'.barbers
  services : Grows Service.Kept s.services s'.services
  appointments : Grows Appointment.Continues s.appointments s'.appointments
  refreshTokens : Grows RefreshToken.Kept s.refreshTokens s'.refreshTokens
  reviews : s.reviews <+: s'.reviews
  reminders : s.appointmentReminders <+: s'.appointmentReminders
  queue : s.queue <+: s'.queue

/-- The primary keys of the rows that an UPDATE replaces as a whole. -/
structure EditedKeys (s : Database) : Prop where
  barbershops : UniqueKeys Barbershop.id s.barbershops
  barbers : UniqueKeys Barber.id s.barbers
  services : UniqueKeys Service.id s.services

theorem Valid.editedKeys {s : Database} (h : s.Valid) : s.EditedKeys :=
  ⟨h.keys.barbershops, h.keys.barbers, h.keys.services⟩

/-- Where these keys are unique, they stay so, and the records are kept. -/
def KeepsRecords (s s' : Database) : Prop :=
  s.EditedKeys → s'.EditedKeys ∧ s.RecordsKept s'

variable {s s' : Database}

theorem RecordsKept.refl (s : Database) : s.RecordsKept s where
  users := grows_refl User.Kept.refl _
  barbershops := grows_refl Barbershop.Kept.refl _
  barbers := grows_refl Barber.Kept.refl _
  services := grows_refl Service.Kept.refl _
  appointments := grows_refl Appointment.Continues.refl _
  refreshTokens := grows_refl RefreshToken.Kept.refl _
  reviews := List.prefix_refl _
  reminders := List.prefix_refl _
  queue := List.prefix_refl _

theorem RecordsKept.trans {t : Database} (h : s.RecordsKept t)
    (h' : t.RecordsKept s') : s.RecordsKept s' where
  users := by
    refine h.users.trans ?_ h'.users
    intro a b c hab hbc
    rw [User.Kept] at hab hbc ⊢
    rw [hbc, hab]
  barbershops := h.barbershops.trans (fun _ _ _ hab hbc =>
    ⟨hbc.id_eq.trans hab.id_eq, hbc.owner_eq.trans hab.owner_eq⟩) h'.barbershops
  barbers := h.barbers.trans (fun _ _ _ hab hbc => Eq.trans hbc hab) h'.barbers
  services := h.services.trans (fun _ _ _ hab hbc =>
    ⟨hbc.id_eq.trans hab.id_eq, hbc.shop_eq.trans hab.shop_eq⟩) h'.services
  appointments := h.appointments.trans
    (fun _ _ _ => Appointment.Continues.trans) h'.appointments
  refreshTokens := h.refreshTokens.trans
    (fun _ _ _ => RefreshToken.Kept.trans) h'.refreshTokens
  reviews := h.reviews.trans h'.reviews
  reminders := h.reminders.trans h'.reminders
  queue := h.queue.trans h'.queue

theorem isRely_keepsRecords : IsRely KeepsRecords where
  refl s hkeys := ⟨hkeys, RecordsKept.refl s⟩
  trans h h' hkeys := by
    obtain ⟨hkeys', hkept⟩ := h hkeys
    obtain ⟨hkeys'', hkept'⟩ := h' hkeys'
    exact ⟨hkeys'', hkept.trans hkept'⟩

/-! ## One statement -/

/-- Rows are replaced by the row that was assigned to, if no two share a key. -/
theorem grows_updateRow
    {α : Type} {R : α → α → Prop} {key : α → Uuid} {id : Uuid}
    {apply : α → Except Raised α} {constraints : α → Except Raised Unit}
    {rows rows' : List α} (hkeys : UniqueKeys key rows)
    (hrefl : ∀ row, R row row)
    (happly : ∀ row new, apply row = .ok new → R row new ∧ key new = key row)
    (h : updateRow key id apply constraints rows = .ok rows') :
    UniqueKeys key rows' ∧ Grows R rows rows' := by
  obtain ⟨row, new, hrow, hnew, -, rfl⟩ := updateRow_eq_ok h
  obtain ⟨hrelated, hkey⟩ := happly row new hnew
  refine ⟨?_, hkeys.grows_replace hrefl hrow hrelated⟩
  apply hkeys.updateAt
  intro old _ hold
  rw [hkey, hold, key_of_lookup hrow]

/-- A statement that leaves the tables with the records alone. -/
theorem keepsRecords_of_schedule
    (hframe : s' = { s with
      barberServices := s'.barberServices
      workingHours := s'.workingHours
      barberBreaks := s'.barberBreaks
      shopClosures := s'.shopClosures }) : s.KeepsRecords s' := by
  intro hkeys
  rw [hframe]
  exact ⟨⟨hkeys.barbershops, hkeys.barbers, hkeys.services⟩,
    { RecordsKept.refl s with }⟩

theorem keepsRecords_of_appointments
    (hframe : s' = { s with appointments := s'.appointments })
    (h : Grows Appointment.Continues s.appointments s'.appointments) :
    s.KeepsRecords s' := by
  intro hkeys
  rw [hframe]
  exact ⟨⟨hkeys.barbershops, hkeys.barbers, hkeys.services⟩,
    { RecordsKept.refl s with appointments := h }⟩

theorem keepsRecords_of_accounts
    (hframe : s' = { s with
      users := s'.users, refreshTokens := s'.refreshTokens })
    (husers : Grows User.Kept s.users s'.users)
    (htokens : Grows RefreshToken.Kept s.refreshTokens s'.refreshTokens) :
    s.KeepsRecords s' := by
  intro hkeys
  rw [hframe]
  exact ⟨⟨hkeys.barbershops, hkeys.barbers, hkeys.services⟩,
    { RecordsKept.refl s with users := husers, refreshTokens := htokens }⟩

theorem grows_updateAppointment {env : Env} {id : Uuid} {u : AppointmentUpdate}
    (h : updateAppointment env id u s = .ok s') :
    Grows Appointment.Continues s.appointments s'.appointments := by
  rw [updateAppointment_eq_ok h]
  exact grows_updateAt Appointment.Continues.refl
    fun row _ _ => AppointmentUpdate.continues_apply u row

theorem grows_expired {env : Env} {stale : List Appointment}
    (h : stale.foldlM (fun db a => updateAppointment env a.id (expiry a) db) s =
      .ok s') : Grows Appointment.Continues s.appointments s'.appointments := by
  induction stale generalizing s with
  | nil =>
      obtain rfl := Except.ok.inj h
      exact grows_refl Appointment.Continues.refl _
  | cons a stale ih =>
      rw [List.foldlM_cons, bind_eq_ok_iff] at h
      obtain ⟨t, ht, h⟩ := h
      exact (grows_updateAppointment ht).trans
        (fun _ _ _ => Appointment.Continues.trans) (ih h)

theorem grows_revokeTokens (ids : List Uuid) (moment : ℤ) (s : Database) :
    Grows RefreshToken.Kept s.refreshTokens
      (revokeTokens ids moment s).refreshTokens := by
  apply grows_map
  intro token _
  split
  · exact ⟨rfl, fun _ => by simp⟩
  · exact .refl token

/-- Promoting an account or rehashing its password. -/
theorem grows_promote {userId : Uuid} (h : promote userId s = .ok s') :
    Grows User.Kept s.users s'.users := by
  rw [promote] at h
  split at h
  · obtain rfl := Except.ok.inj h
    exact grows_updateAt User.Kept.refl fun user _ _ => rfl
  · simp at h

theorem flushRehash_frame {env : Env} {user : User} {password salt : String}
    (h : flushRehash env user password salt s = .ok s') :
    s' = { s with users := s'.users } ∧ Grows User.Kept s.users s'.users := by
  rw [flushRehash] at h
  split at h
  · rw [updatePasswordHash] at h
    split at h
    · obtain rfl := Except.ok.inj h
      exact ⟨rfl, grows_updateAt User.Kept.refl fun user _ _ => rfl⟩
    · simp at h
  · obtain rfl := Except.ok.inj h
    exact ⟨rfl, grows_refl User.Kept.refl _⟩

theorem keepsRecords_flushBarber {id : Uuid} {u : BarberUpdate}
    (h : flushBarber id u s = .ok s') : s.KeepsRecords s' := by
  intro hkeys
  rw [flushBarber] at h
  split at h
  · obtain rfl := Except.ok.inj h
    exact isRely_keepsRecords.refl s hkeys
  · simp only [bind_eq_ok_iff] at h
    obtain ⟨_, -, barbers, hrows, h⟩ := h
    obtain rfl := Except.ok.inj h
    have happly : ∀ row new, u.apply row = .ok new →
        Barber.Kept row new ∧ new.id = row.id := by
      intro row new happly
      obtain ⟨hid, huser, hshop, -⟩ := BarberUpdate.apply_eq_ok happly
      refine ⟨?_, hid⟩
      rw [Barber.Kept, Barber.place, Barber.place, hid, huser, hshop]
    obtain ⟨hunique, hgrows⟩ := grows_updateRow (R := Barber.Kept)
      hkeys.barbers Barber.Kept.refl happly hrows
    exact ⟨⟨hkeys.barbershops, hunique, hkeys.services⟩,
      { RecordsKept.refl s with barbers := hgrows }⟩

theorem keepsRecords_flushService {env : Env} {id : Uuid} {u : ServiceUpdate}
    (h : flushService env id u s = .ok s') : s.KeepsRecords s' := by
  intro hkeys
  rw [flushService] at h
  split at h
  · obtain rfl := Except.ok.inj h
    exact isRely_keepsRecords.refl s hkeys
  · simp only [bind_eq_ok_iff] at h
    obtain ⟨_, -, services, hrows, h⟩ := h
    obtain rfl := Except.ok.inj h
    have happly : ∀ row new, u.apply row = .ok new →
        Service.Kept row new ∧ new.id = row.id := by
      intro row new happly
      obtain ⟨hid, hshop, -⟩ := ServiceUpdate.apply_eq_ok happly
      exact ⟨⟨hid, hshop⟩, hid⟩
    obtain ⟨hunique, hgrows⟩ := grows_updateRow (R := Service.Kept)
      hkeys.services Service.Kept.refl happly hrows
    exact ⟨⟨hkeys.barbershops, hkeys.barbers, hunique⟩,
      { RecordsKept.refl s with services := hgrows }⟩

theorem keepsRecords_flushShop {id : Uuid} {u : BarbershopUpdate}
    (h : flushShop id u s = .ok s') : s.KeepsRecords s' := by
  intro hkeys
  rw [flushShop] at h
  split at h
  · obtain rfl := Except.ok.inj h
    exact isRely_keepsRecords.refl s hkeys
  · simp only [bind_eq_ok_iff] at h
    obtain ⟨_, -, barbershops, hrows, h⟩ := h
    obtain rfl := Except.ok.inj h
    have happly : ∀ row new, u.apply row = .ok new →
        Barbershop.Kept row new ∧ new.id = row.id := by
      intro row new happly
      obtain ⟨hid, howner, -⟩ := BarbershopUpdate.apply_eq_ok happly
      exact ⟨⟨hid, howner⟩, hid⟩
    obtain ⟨hunique, hgrows⟩ := grows_updateRow (R := Barbershop.Kept)
      hkeys.barbershops Barbershop.Kept.refl happly hrows
    exact ⟨⟨hunique, hkeys.barbers, hkeys.services⟩,
      { RecordsKept.refl s with barbershops := hgrows }⟩

theorem keepsRecords_insertShop {row : Barbershop}
    (h : insertShop row s = .ok s') : s.KeepsRecords s' := by
  intro hkeys
  have hframe := insertShop_eq_ok h
  rw [insertShop] at h
  obtain ⟨_, hfresh, -⟩ := bind_eq_ok_iff.mp h
  have hunique := hkeys.barbershops.append_singleton
    (lookup_eq_none_iff.mp (enforce_eq_ok hfresh))
  rw [hframe]
  exact ⟨⟨hunique, hkeys.barbers, hkeys.services⟩, { RecordsKept.refl s with
    barbershops := grows_append Barbershop.Kept.refl _ _ }⟩

theorem keepsRecords_insertService {env : Env} {row : Service}
    (h : insertService env row s = .ok s') : s.KeepsRecords s' := by
  intro hkeys
  obtain ⟨rfl, hfresh, -⟩ := insertService_eq_ok h
  exact ⟨⟨hkeys.barbershops, hkeys.barbers,
    hkeys.services.append_singleton hfresh⟩, { RecordsKept.refl s with
      services := grows_append Service.Kept.refl _ _ }⟩

theorem grows_flushNewBarber {row : Barber} {account : User}
    (h : flushNewBarber row account s = .ok s') :
    Grows User.Kept s.users s'.users := by
  rw [flushNewBarber] at h
  obtain ⟨inserted, hinsert, h⟩ := bind_eq_ok_iff.mp h
  obtain ⟨rfl, -⟩ := insertBarber_eq_ok hinsert
  split at h
  · have husers := grows_promote h
    exact husers
  · obtain rfl := Except.ok.inj h
    exact grows_refl User.Kept.refl _

theorem keepsRecords_flushNewBarber {row : Barber} {account : User}
    (h : flushNewBarber row account s = .ok s') : s.KeepsRecords s' := by
  intro hkeys
  have husers := grows_flushNewBarber h
  obtain ⟨hframe, hfresh, -⟩ := flushNewBarber_eq_ok h
  rw [hframe]
  exact ⟨⟨hkeys.barbershops, hkeys.barbers.append_singleton hfresh,
    hkeys.services⟩, { RecordsKept.refl s with
      users := husers
      barbers := grows_append Barber.Kept.refl _ _ }⟩

theorem keepsRecords_noted (h : s.Noted s') : s.KeepsRecords s' := by
  intro hkeys
  obtain ⟨rate, hrate, hbarbers⟩ := h.barbers
  have hplace : ∀ b, (rate b).place = b.place := by
    intro b
    rw [hrate b, Barber.place, Barber.place]
  have hunique : UniqueKeys Barber.id s'.barbers := by
    apply uniqueKeys_of_map_place Prod.fst ?_ hkeys.barbers
    rw [hbarbers, List.map_map]
    exact List.map_congr_left fun b _ => hplace b
  have hgrows : Grows Barber.Kept s.barbers s'.barbers := by
    rw [hbarbers]
    exact grows_map fun b _ => hplace b
  refine ⟨⟨?_, hunique, ?_⟩, ?_⟩
  · rw [h.frame]
    exact hkeys.barbershops
  · rw [h.frame]
    exact hkeys.services
  · have hreviews := h.reviews
    have hreminders := h.reminders
    rw [h.frame]
    exact { RecordsKept.refl s with
      barbers := hgrows, reviews := hreviews, reminders := hreminders }

/-- Every statement keeps the records. -/
theorem keepsRecords_of_statement {env : Env} {work : Work}
    (h : Statement env work s s') :
    s.KeepsRecords s' := by
  cases h with
  | insertedAppointment customer row hwork hcustomer hnew h =>
      obtain ⟨rfl, -⟩ := insertAppointment_eq_ok h
      exact keepsRecords_of_appointments rfl
        (grows_append Appointment.Continues.refl _ _)
  | updatedAppointment id u h =>
      refine keepsRecords_of_appointments ?_ (grows_updateAppointment h)
      rw [updateAppointment_eq_ok h]
  | expiredAppointments stale h =>
      exact keepsRecords_of_appointments (expired_frame h) (grows_expired h)
  | queued task h =>
      intro hkeys
      rw [h]
      exact ⟨⟨hkeys.barbershops, hkeys.barbers, hkeys.services⟩,
      { RecordsKept.refl s with queue := List.prefix_append _ _ }⟩
  | flushedBarber id u h => exact keepsRecords_flushBarber h
  | flushedService id u h => exact keepsRecords_flushService h
  | flushedShop id u h => exact keepsRecords_flushShop h
  | flushedBarberServices barberId removed added h =>
      apply keepsRecords_of_schedule
      rw [(flushBarberServices_eq_ok h).1]
  | insertedShop owner row hwork howner h => exact keepsRecords_insertShop h
  | insertedService row h => exact keepsRecords_insertService h
  | flushedNewBarber user shopId payload id hwork row account haccount h =>
      exact keepsRecords_flushNewBarber h
  | flushedWorkingHours deleted rows h =>
      apply keepsRecords_of_schedule
      rw [flushWorkingHours_eq_ok h]
  | insertedBreak row h =>
      apply keepsRecords_of_schedule
      rw [insertBreak_eq_ok h]
  | deletedBreak id h =>
      apply keepsRecords_of_schedule
      rw [← Except.ok.inj h]
  | insertedClosure row h =>
      apply keepsRecords_of_schedule
      rw [insertClosure_eq_ok h]
  | deletedClosure id h =>
      apply keepsRecords_of_schedule
      rw [← Except.ok.inj h]
  | registered user token t hrole haccount htoken =>
      obtain rfl := flushAccount_eq_ok haccount
      obtain ⟨-, rfl⟩ := insertRefreshToken_eq_ok htoken
      exact keepsRecords_of_accounts rfl (grows_append User.Kept.refl _ _)
        (grows_append RefreshToken.Kept.refl _ _)
  | signedIn user password salt token t hrehash htoken =>
      obtain ⟨hframe, husers⟩ := flushRehash_frame hrehash
      obtain ⟨-, rfl⟩ := insertRefreshToken_eq_ok htoken
      have htokens : t.refreshTokens = s.refreshTokens :=
        refreshTokens_flushRehash hrehash
      refine keepsRecords_of_accounts ?_ husers ?_
      · rw [hframe]
      · rw [htokens]
        exact grows_append RefreshToken.Kept.refl _ _
  | rotated id moment token h =>
      rw [rotateToken] at h
      split at h
      · obtain ⟨-, rfl⟩ := insertRefreshToken_eq_ok h
        refine keepsRecords_of_accounts rfl (grows_refl User.Kept.refl _) ?_
        exact (grows_revokeTokens [id] moment s).trans
          (fun _ _ _ => RefreshToken.Kept.trans)
          (grows_append RefreshToken.Kept.refl _ _)
      · simp at h
  | revoked ids moment h =>
      rw [h]
      exact keepsRecords_of_accounts rfl (grows_refl User.Kept.refl _)
        (grows_revokeTokens ids moment s)
  | noted hwork h => exact keepsRecords_noted h

end Database

/-! ## Every run -/

open Database

variable {ι : Type} [DecidableEq ι]

/-- In whatever order the statements of requests and tasks are executed, every
record of an earlier state is in its table in every later one. -/
theorem records_kept
    (env : Env) (works : ι → Work) (db : Database) (hdb : db.EditedKeys)
    (first rest : List ι) :
    ((workPool env works db).exec first).committed.RecordsKept
      ((workPool env works db).exec (first ++ rest)).committed := by
  have hworks : ∀ i, ((workPool env works db).running i).WritesWithin
      KeepsRecords := fun i => (work_writesWithin (works i)).mono
    fun _ _ => keepsRecords_of_statement
  have hfirst := (related_exec isRely_keepsRecords hworks first).1 hdb
  have hrest := related_exec_append isRely_keepsRecords hworks first rest
  exact (hrest hfirst.1).2

/-- The customer cancels the only booking, and an administrator closes
the shop. -/
def cancelAndClose : Bool → Work
  | false => .booking (.cancel Sample.customer 40 none (Sample.clock 6 0))
  | true => .management (.deactivateShop Sample.admin 10) (Sample.clock 8 30)

/-- Statements enough for both. -/
def bothToTheEnd : List Bool :=
  List.replicate 20 false ++ List.replicate 20 true

/-- Both rows are still there. -/
theorem records_kept_closing :
    let closed := (workPool Sample.env cancelAndClose Sample.bookedDb).exec
      bothToTheEnd
    Sample.bookedDb.RecordsKept closed.committed ∧
      closed.committed.appointments.map Appointment.status = [.cancelled] ∧
      closed.committed.barbershops.map Barbershop.isActive = [false] := by
  refine ⟨?_, by decide +kernel, by decide +kernel⟩
  exact records_kept Sample.env cancelAndClose Sample.bookedDb
    (Valid.editedKeys Sample.bookedDb_valid) [] bothToTheEnd

end BarberHub
