import BarberHub.System.Records
import BarberHub.System.Routes

/-!
# Promote, never demote

What happens to the roles of accounts while requests and tasks run: a customer
may become a barber, and no other role is ever written over another.  So owners,
barbers and customers are what their roles say in every state, although a
customer whom the gate of a route has let past may have become a barber when the
handler commits.
-/

namespace BarberHub

open KeyedTable ReadCommitted Program Pool Fallible Database

/-! ## Promotion -/

/-- The same account, as it was or promoted. -/
structure User.Promoted (user user' : User) : Prop where
  id_eq : user'.id = user.id
  role : user'.role = user.role ∨ user.role = .customer ∧ user'.role = .barber

theorem User.Promoted.refl (user : User) : user.Promoted user :=
  ⟨rfl, Or.inl rfl⟩

theorem User.Promoted.trans {a b c : User} (h : a.Promoted b)
    (h' : b.Promoted c) : a.Promoted c := by
  refine ⟨h'.id_eq.trans h.id_eq, ?_⟩
  rcases h.role with hab | ⟨ha, hb⟩
  · rw [← hab]
    exact h'.role
  · rcases h'.role with hbc | ⟨hb', -⟩
    · exact Or.inr ⟨ha, hbc.trans hb⟩
    · simp [hb] at hb'

namespace Database

/-- Accounts are promoted at most, and nobody new is an admin. -/
structure RolesKept (s s' : Database) : Prop where
  users : Grows User.Promoted s.users s'.users
  admins : ∀ user' ∈ s'.users, user'.role = .admin →
    ∃ user ∈ s.users, user.id = user'.id ∧ user.role = .admin

/-- The account is stored, as it was or promoted. -/
def StillHas (db : Database) (user : User) : Prop :=
  ∃ user', db.user? user.id = some user' ∧ user.Promoted user'

/-- The account with the id has such a role. -/
def HasRole (db : Database) (P : UserRole → Prop) (id : Uuid) : Prop :=
  ∃ user, db.user? id = some user ∧ P user.role

def owners (db : Database) : List Uuid := db.barbershops.map Barbershop.ownerId
def hired (db : Database) : List Uuid := db.barbers.map Barber.userId
def customers (db : Database) : List Uuid :=
  db.appointments.map Appointment.customerId

/-- Everybody has the role that goes with what they do. -/
structure Staffed (db : Database) : Prop where
  users : UniqueKeys User.id db.users
  edited : db.EditedKeys
  owners : ∀ id ∈ db.owners,
    db.HasRole (fun role => role = .shopOwner ∨ role = .admin) id
  hired : ∀ id ∈ db.hired, db.HasRole (· ≠ .customer) id
  customers : ∀ id ∈ db.customers, db.HasRole (· ≠ .shopOwner) id

/-- Where everybody has the role that goes with what they do, it stays so. -/
def KeepsStaff (s s' : Database) : Prop :=
  s.Staffed → s'.Staffed ∧ s.RolesKept s'

variable {s s' : Database} {user : User} {id : Uuid} {P : UserRole → Prop}

theorem RolesKept.refl (s : Database) : s.RolesKept s where
  users := grows_refl User.Promoted.refl _
  admins user huser hadmin := ⟨user, huser, rfl, hadmin⟩

theorem RolesKept.trans {t : Database} (h : s.RolesKept t)
    (h' : t.RolesKept s') : s.RolesKept s' where
  users := h.users.trans (fun _ _ _ => User.Promoted.trans) h'.users
  admins user' huser' hadmin := by
    obtain ⟨mid, hmid, hid, hmidAdmin⟩ := h'.admins user' huser' hadmin
    obtain ⟨user, huser, hid', huserAdmin⟩ := h.admins mid hmid hmidAdmin
    exact ⟨user, huser, hid'.trans hid, huserAdmin⟩

theorem isRely_keepsStaff : IsRely KeepsStaff where
  refl s h := ⟨h, RolesKept.refl s⟩
  trans h h' hs := by
    obtain ⟨ht, hkept⟩ := h hs
    obtain ⟨hu, hkept'⟩ := h' ht
    exact ⟨hu, hkept.trans hkept'⟩

theorem RolesKept.lookup (h : s.RolesKept s') (huser : s.user? id = some user) :
    ∃ user', s'.user? id = some user' ∧ user.Promoted user' :=
  h.users.lookup_of_some (fun _ _ hpromoted => hpromoted.id_eq) huser

theorem StillHas.stable (h : s.StillHas user) (hs : s.RolesKept s') :
    s'.StillHas user := by
  obtain ⟨user', huser', hpromoted⟩ := h
  obtain ⟨user'', huser'', hpromoted'⟩ := hs.lookup huser'
  exact ⟨user'', huser'', hpromoted.trans hpromoted'⟩

theorem stillHas_of_mem (hs : s.Staffed) (huser : user ∈ s.users) :
    s.StillHas user :=
  ⟨user, hs.users.lookup_eq_some_iff.mpr ⟨huser, rfl⟩, .refl user⟩

/-- A role that promotion keeps is still there. -/
theorem StillHas.hasRole (h : s.StillHas user) (hP : P user.role)
    (hbarber : user.role = .customer → P .barber) : s.HasRole P user.id := by
  obtain ⟨user', huser', hpromoted⟩ := h
  refine ⟨user', huser', ?_⟩
  rcases hpromoted.role with hsame | ⟨hcustomer, hrole⟩
  · rw [hsame]
    exact hP
  · rw [hrole]
    exact hbarber hcustomer

theorem HasRole.stable (h : s.HasRole P id) (hs : s.RolesKept s')
    (hbarber : P .customer → P .barber) : s'.HasRole P id := by
  obtain ⟨user, huser, hP⟩ := h
  have hstill : s.StillHas user :=
    ⟨user, by rwa [← key_of_lookup huser] at huser, .refl user⟩
  have hlater := (hstill.stable hs).hasRole hP fun hcustomer =>
    hbarber (hcustomer ▸ hP)
  rwa [key_of_lookup huser] at hlater

/-- Nobody else does anything, and the roles are kept. -/
theorem Staffed.next (h : s.Staffed) (hkept : s.RolesKept s')
    (husers : UniqueKeys User.id s'.users) (hedited : s'.EditedKeys)
    (howners : ∀ id ∈ s'.owners, id ∈ s.owners ∨
      s'.HasRole (fun role => role = .shopOwner ∨ role = .admin) id)
    (hhired : ∀ id ∈ s'.hired, id ∈ s.hired ∨ s'.HasRole (· ≠ .customer) id)
    (hcustomers : ∀ id ∈ s'.customers, id ∈ s.customers ∨
      s'.HasRole (· ≠ .shopOwner) id) : s'.Staffed where
  users := husers
  edited := hedited
  owners id hid := by
    rcases howners id hid with hold | hnew
    · exact (h.owners id hold).stable hkept (by simp)
    · exact hnew
  hired id hid := by
    rcases hhired id hid with hold | hnew
    · exact (h.hired id hold).stable hkept (by simp)
    · exact hnew
  customers id hid := by
    rcases hcustomers id hid with hold | hnew
    · exact (h.customers id hold).stable hkept (by simp)
    · exact hnew

/-! ## What a statement does to the staff -/

/-- Nobody opens a shop, is hired or books. -/
structure SameParties (s s' : Database) : Prop where
  owners : s'.owners = s.owners
  hired : s'.hired = s.hired
  customers : s'.customers = s.customers

/-- The accounts with their roles. -/
def roster (db : Database) : List (Uuid × UserRole) :=
  db.users.map fun user => (user.id, user.role)

theorem sameParties_of_frame
    (hframe : s' = { s with
      users := s'.users
      services := s'.services
      barberServices := s'.barberServices
      workingHours := s'.workingHours
      barberBreaks := s'.barberBreaks
      shopClosures := s'.shopClosures
      refreshTokens := s'.refreshTokens
      queue := s'.queue }) : s.SameParties s' := by
  rw [hframe]
  exact ⟨rfl, rfl, rfl⟩

theorem hired_of_places
    (h : s'.barbers.map Barber.place = s.barbers.map Barber.place) :
    s'.hired = s.hired := by
  have hmap : ∀ t : Database,
      t.hired = (t.barbers.map Barber.place).map fun place => place.2.1 := by
    intro t
    rw [List.map_map]
    rfl
  rw [hmap, hmap, h]

theorem owners_flushShop {u : BarbershopUpdate} (hs : s.EditedKeys)
    (h : flushShop id u s = .ok s') : s'.owners = s.owners := by
  rw [flushShop] at h
  split at h
  · rw [← Except.ok.inj h]
  simp only [bind_eq_ok_iff] at h
  obtain ⟨_, -, barbershops, hrows, h⟩ := h
  obtain rfl := Except.ok.inj h
  obtain ⟨row, new, hrow, hnew, -, rfl⟩ := updateRow_eq_ok hrows
  apply map_updateAt
  intro old hold hid
  obtain rfl := hs.barbershops.eq_of_mem hold (mem_of_lookup hrow)
    (hid.trans (key_of_lookup hrow).symm)
  exact (BarbershopUpdate.apply_eq_ok hnew).2.1

theorem customers_updateAppointment {env : Env} {u : AppointmentUpdate}
    (h : updateAppointment env id u s = .ok s') :
    s'.customers = s.customers := by
  rw [updateAppointment_eq_ok h]
  exact map_updateAt fun _ _ _ => rfl

theorem customers_expired {env : Env} {stale : List Appointment}
    (h : stale.foldlM (fun db a => updateAppointment env a.id (expiry a) db) s =
      .ok s') : s'.customers = s.customers := by
  induction stale generalizing s with
  | nil => rw [← Except.ok.inj h]
  | cons a stale ih =>
      rw [List.foldlM_cons, bind_eq_ok_iff] at h
      obtain ⟨t, ht, h⟩ := h
      rw [ih h, customers_updateAppointment ht]

theorem fresh_of_flushAccount {env : Env} {row : User}
    (h : flushAccount env row s = .ok s') :
    ∀ other ∈ s.users, other.id ≠ row.id := by
  rw [flushAccount] at h
  split at h
  · simp at h
  · rw [insertUser] at h
    obtain ⟨_, hfresh, -⟩ := bind_eq_ok_iff.mp h
    exact lookup_eq_none_iff.mp (enforce_eq_ok hfresh)

theorem roster_flushRehash {env : Env} {password salt : String}
    (h : flushRehash env user password salt s = .ok s') :
    s'.roster = s.roster := by
  rw [flushRehash] at h
  split at h
  · rw [updatePasswordHash] at h
    split at h
    · rw [← Except.ok.inj h]
      exact map_updateAt fun _ _ _ => rfl
    · simp at h
  · rw [← Except.ok.inj h]

/-- What a statement of a work does to the staff. -/
inductive Staffing (work : Work) (s s' : Database) : Prop where
  | unchanged (hparties : s.SameParties s') (hroster : s'.roster = s.roster)
  | registered (row : User) (hrole : row.role = .customer ∨ row.role = .shopOwner)
      (hfresh : ∀ other ∈ s.users, other.id ≠ row.id)
      (hparties : s.SameParties s') (husers : s'.users = s.users ++ [row])
  | booked (customer : User) (hwork : work.customer? = some customer)
      (hframe : s' = { s with appointments := s'.appointments })
      (hcustomers : s'.customers = s.customers ++ [customer.id])
  | opened (owner : User) (hwork : work.owner? = some owner)
      (hframe : s' = { s with barbershops := s'.barbershops })
      (howners : s'.owners = s.owners ++ [owner.id])
  | hired (boss : User) (shopId : Uuid) (payload : BarberCreate) (id : Uuid)
      (hwork : work = .directory (.addBarber boss shopId payload id))
      (row : Barber) (account : User) (haccount : row.userId = account.id)
      (h : flushNewBarber row account s = .ok s')

theorem staffing_of_statement {env : Env} {work : Work} (hs : s.EditedKeys)
    (h : Statement env work s s') : Staffing work s s' := by
  cases h with
  | insertedAppointment customer row hwork hcustomer hnew h =>
      obtain ⟨rfl, -⟩ := insertAppointment_eq_ok h
      refine .booked customer hwork rfl ?_
      rw [customers, List.map_append, List.map_singleton, hcustomer]
      rfl
  | updatedAppointment id u h =>
      have hcustomers := customers_updateAppointment h
      rw [updateAppointment_eq_ok h] at hcustomers ⊢
      exact .unchanged ⟨rfl, rfl, hcustomers⟩ rfl
  | expiredAppointments stale h =>
      have hcustomers := customers_expired h
      rw [expired_frame h] at hcustomers ⊢
      exact .unchanged ⟨rfl, rfl, hcustomers⟩ rfl
  | queued task h =>
      rw [h]
      exact .unchanged (sameParties_of_frame rfl) rfl
  | flushedBarber id u h =>
      have hhired := hired_of_places (map_place_flushBarber hs.barbers h)
      rw [(flushBarber_eq_ok h).1] at hhired ⊢
      exact .unchanged ⟨rfl, hhired, rfl⟩ rfl
  | flushedService id u h =>
      rw [(flushService_eq_ok h).1]
      exact .unchanged (sameParties_of_frame rfl) rfl
  | flushedShop id u h =>
      have howners := owners_flushShop hs h
      rw [(flushShop_eq_ok h).1] at howners ⊢
      exact .unchanged ⟨howners, rfl, rfl⟩ rfl
  | flushedBarberServices barberId removed added h =>
      rw [(flushBarberServices_eq_ok h).1]
      exact .unchanged (sameParties_of_frame rfl) rfl
  | insertedShop owner row hwork howner h =>
      rw [insertShop_eq_ok h]
      refine .opened owner hwork rfl ?_
      rw [owners, List.map_append, List.map_singleton, howner]
      rfl
  | insertedService row h =>
      rw [(insertService_eq_ok h).1]
      exact .unchanged (sameParties_of_frame rfl) rfl
  | flushedNewBarber boss shopId payload id hwork row account haccount h =>
      exact .hired boss shopId payload id hwork row account haccount h
  | flushedWorkingHours deleted rows h =>
      rw [flushWorkingHours_eq_ok h]
      exact .unchanged (sameParties_of_frame rfl) rfl
  | insertedBreak row h =>
      rw [insertBreak_eq_ok h]
      exact .unchanged (sameParties_of_frame rfl) rfl
  | deletedBreak id h =>
      rw [← Except.ok.inj h]
      exact .unchanged (sameParties_of_frame rfl) rfl
  | insertedClosure row h =>
      rw [insertClosure_eq_ok h]
      exact .unchanged (sameParties_of_frame rfl) rfl
  | deletedClosure id h =>
      rw [← Except.ok.inj h]
      exact .unchanged (sameParties_of_frame rfl) rfl
  | registered row token t hrole haccount htoken =>
      obtain ⟨-, rfl⟩ := insertRefreshToken_eq_ok htoken
      have hfresh := fresh_of_flushAccount haccount
      obtain rfl := flushAccount_eq_ok haccount
      exact .registered row hrole hfresh (sameParties_of_frame rfl) rfl
  | signedIn user password salt token t hrehash htoken =>
      obtain ⟨-, rfl⟩ := insertRefreshToken_eq_ok htoken
      have hroster := roster_flushRehash hrehash
      rw [(flushRehash_frame hrehash).1] at hroster ⊢
      exact .unchanged (sameParties_of_frame rfl) hroster
  | rotated id moment token h =>
      rw [rotateToken] at h
      split at h
      · obtain ⟨-, rfl⟩ := insertRefreshToken_eq_ok h
        exact .unchanged (sameParties_of_frame rfl) rfl
      · simp at h
  | revoked ids moment h =>
      rw [h]
      exact .unchanged (sameParties_of_frame rfl) rfl
  | noted hwork h =>
      obtain ⟨rate, hrate, hbarbers⟩ := h.barbers
      have hhired : s'.hired = s.hired := by
        rw [Database.hired, hbarbers, List.map_map]
        exact List.map_congr_left fun b _ => by rw [Function.comp, hrate b]
      rw [h.frame] at hhired ⊢
      exact .unchanged ⟨rfl, hhired, rfl⟩ rfl

/-! ## Statements of those who were let in -/

theorem rolesKept_of_roster (h : s'.roster = s.roster) : s.RolesKept s' := by
  have hsame : List.Forall₂
      (fun a b : User => (a.id, a.role) = (b.id, b.role)) s.users s'.users := by
    have hmap : List.Forall₂ Eq s.roster s'.roster := by
      rw [List.forall₂_eq_eq_eq, h]
    rwa [roster, roster, List.forall₂_map_left_iff,
      List.forall₂_map_right_iff] at hmap
  constructor
  · refine ⟨s'.users, [], (List.append_nil _).symm, hsame.imp ?_⟩
    intro a b hab
    obtain ⟨hid, hrole⟩ := Prod.mk.inj hab
    exact ⟨hid.symm, Or.inl hrole.symm⟩
  · intro user' huser' hadmin
    have hmem : (user'.id, user'.role) ∈ s.roster := by
      rw [← h]
      exact List.mem_map_of_mem huser'
    obtain ⟨user, huser, hrow⟩ := List.mem_map.mp hmem
    obtain ⟨hid, hrole⟩ := Prod.mk.inj hrow
    exact ⟨user, huser, hid, hrole.trans hadmin⟩

theorem uniqueKeys_of_roster (h : s'.roster = s.roster)
    (hs : UniqueKeys User.id s.users) : UniqueKeys User.id s'.users := by
  have hmap : ∀ t : Database, t.users.map User.id = t.roster.map Prod.fst := by
    intro t
    rw [roster, List.map_map]
    rfl
  rw [UniqueKeys, hmap, h, ← hmap]
  exact hs

theorem rolesKept_of_registered {row : User}
    (hrole : row.role = .customer ∨ row.role = .shopOwner)
    (h : s'.users = s.users ++ [row]) : s.RolesKept s' := by
  constructor
  · rw [h]
    exact grows_append User.Promoted.refl _ _
  · intro user' huser' hadmin
    rw [h] at huser'
    rcases List.mem_append.mp huser' with hold | hnew
    · exact ⟨user', hold, rfl, hadmin⟩
    · obtain rfl := List.mem_singleton.mp hnew
      simp [hadmin] at hrole

/-- Promotion, of an account that was a customer when it was read. -/
theorem rolesKept_promote {account : User} (hs : UniqueKeys User.id s.users)
    (hstill : s.StillHas account) (hcustomer : account.role = .customer)
    (h : promote account.id s = .ok s') :
    UniqueKeys User.id s'.users ∧ s.RolesKept s' ∧
      s'.HasRole (· ≠ .customer) account.id := by
  obtain ⟨user', huser', hpromoted⟩ := hstill
  rw [promote] at h
  split at h
  · obtain rfl := Except.ok.inj h
    have hrow : ∀ row ∈ s.users, row.id = account.id →
        row.role = .customer ∨ row.role = .barber := by
      intro row hrow hid
      obtain rfl := hs.eq_of_mem hrow (mem_of_lookup huser')
        (hid.trans (key_of_lookup huser').symm)
      rcases hpromoted.role with hsame | ⟨-, hbarber⟩
      · exact Or.inl (hsame.trans hcustomer)
      · exact Or.inr hbarber
    refine ⟨hs.updateAt fun _ _ _ => rfl,
      ⟨grows_updateAt User.Promoted.refl ?_, ?_⟩, ?_⟩
    · intro row hmem hid
      refine ⟨rfl, ?_⟩
      rcases hrow row hmem hid with hrole | hrole
      · exact Or.inr ⟨hrole, rfl⟩
      · exact Or.inl hrole.symm
    · intro new hnew hadmin
      rcases mem_updateAt.mp hnew with ⟨hold, -⟩ | ⟨old, -, -, rfl⟩
      · exact ⟨new, hold, rfl, hadmin⟩
      · simp at hadmin
    · refine ⟨{ user' with role := .barber }, ?_, by simp⟩
      have hself : lookup User.id (updateAt User.id account.id
          (fun user => { user with role := .barber }) s.users) account.id =
          (lookup User.id s.users account.id).map
            fun user => { user with role := .barber } :=
        lookup_updateAt_self fun _ hid => hid
      rw [user?] at huser'
      rw [huser'] at hself
      exact hself
  · simp at h

theorem roles_flushNewBarber {row : Barber} {account : User}
    (hs : UniqueKeys User.id s.users) (hstill : s.StillHas account)
    (h : flushNewBarber row account s = .ok s') :
    UniqueKeys User.id s'.users ∧ s.RolesKept s' ∧
      s'.HasRole (· ≠ .customer) account.id := by
  rw [flushNewBarber] at h
  obtain ⟨t, hinsert, h⟩ := bind_eq_ok_iff.mp h
  have hroster : t.roster = s.roster := by
    rw [(insertBarber_eq_ok hinsert).1]
    rfl
  have ht := uniqueKeys_of_roster hroster hs
  have hkept := rolesKept_of_roster hroster
  split at h
  · rename_i hcustomer
    obtain ⟨husers, hlater, hrole⟩ :=
      rolesKept_promote ht (hstill.stable hkept) hcustomer h
    exact ⟨husers, hkept.trans hlater, hrole⟩
  · rename_i hrole
    obtain rfl := Except.ok.inj h
    exact ⟨ht, hkept, (hstill.stable hkept).hasRole hrole
      fun hcustomer => absurd hcustomer hrole⟩

/-- A new barber, whose account was read before. -/
theorem flushNewBarber_keepsStaff {row : Barber} {account : User}
    (hs : s.Staffed) (hstill : s.StillHas account)
    (haccount : row.userId = account.id)
    (h : flushNewBarber row account s = .ok s') :
    s'.Staffed ∧ s.RolesKept s' := by
  have hedited := (keepsRecords_flushNewBarber h hs.edited).1
  obtain ⟨hframe, -⟩ := flushNewBarber_eq_ok h
  have hhired : s'.hired = s.hired ++ [account.id] := by
    rw [hframe, Database.hired, List.map_append, List.map_singleton, haccount]
    rfl
  obtain ⟨husers, hkept, hrole⟩ :=
    roles_flushNewBarber hs.users hstill h
  refine ⟨hs.next hkept husers hedited ?_ ?_ ?_, hkept⟩
  · intro id hid
    rw [hframe] at hid
    exact Or.inl hid
  · intro id hid
    rw [hhired] at hid
    rcases List.mem_append.mp hid with hold | hnew
    · exact Or.inl hold
    · rw [List.mem_singleton.mp hnew]
      exact Or.inr hrole
  · intro id hid
    rw [hframe] at hid
    exact Or.inl hid

/-- Every other statement, of somebody who was let in. -/
theorem Staffing.keepsStaff {work : Work} (h : Staffing work s s')
    (hs : s.Staffed) (hedited : s'.EditedKeys)
    (hcustomer : ∀ customer, work.customer? = some customer →
      s.StillHas customer ∧
        (customer.role = .customer ∨ customer.role = .admin))
    (howner : ∀ owner, work.owner? = some owner →
      s.StillHas owner ∧ (owner.role = .shopOwner ∨ owner.role = .admin))
    (hhires : ∀ boss shopId payload id,
      work ≠ .directory (.addBarber boss shopId payload id)) :
    s'.Staffed ∧ s.RolesKept s' := by
  cases h with
  | unchanged hparties hroster =>
      have hkept := rolesKept_of_roster hroster
      refine ⟨hs.next hkept (uniqueKeys_of_roster hroster hs.users) hedited
        ?_ ?_ ?_, hkept⟩
      · exact fun id hid => Or.inl (hparties.owners ▸ hid)
      · exact fun id hid => Or.inl (hparties.hired ▸ hid)
      · exact fun id hid => Or.inl (hparties.customers ▸ hid)
  | registered row hrole hfresh hparties husers =>
      have hkept := rolesKept_of_registered hrole husers
      have hunique : UniqueKeys User.id s'.users := by
        rw [husers]
        exact hs.users.append_singleton hfresh
      refine ⟨hs.next hkept hunique hedited ?_ ?_ ?_, hkept⟩
      · exact fun id hid => Or.inl (hparties.owners ▸ hid)
      · exact fun id hid => Or.inl (hparties.hired ▸ hid)
      · exact fun id hid => Or.inl (hparties.customers ▸ hid)
  | booked customer hwork hframe hcustomers =>
      obtain ⟨hstill, hrole⟩ := hcustomer customer hwork
      have hroster : s'.roster = s.roster := by
        rw [hframe]
        rfl
      have hkept := rolesKept_of_roster hroster
      have hnew : s'.HasRole (· ≠ .shopOwner) customer.id := by
        apply (hstill.stable hkept).hasRole
        · rcases hrole with hrole | hrole <;> simp [hrole]
        · simp
      refine ⟨hs.next hkept (uniqueKeys_of_roster hroster hs.users) hedited
        ?_ ?_ ?_, hkept⟩
      · intro id hid
        rw [hframe] at hid
        exact Or.inl hid
      · intro id hid
        rw [hframe] at hid
        exact Or.inl hid
      · intro id hid
        rw [hcustomers] at hid
        rcases List.mem_append.mp hid with hold | hlast
        · exact Or.inl hold
        · rw [List.mem_singleton.mp hlast]
          exact Or.inr hnew
  | opened owner hwork hframe howners =>
      obtain ⟨hstill, hrole⟩ := howner owner hwork
      have hroster : s'.roster = s.roster := by
        rw [hframe]
        rfl
      have hkept := rolesKept_of_roster hroster
      have hnew : s'.HasRole (fun role => role = .shopOwner ∨ role = .admin)
          owner.id := by
        apply (hstill.stable hkept).hasRole hrole
        intro hcustomer
        simp [hcustomer] at hrole
      refine ⟨hs.next hkept (uniqueKeys_of_roster hroster hs.users) hedited
        ?_ ?_ ?_, hkept⟩
      · intro id hid
        rw [howners] at hid
        rcases List.mem_append.mp hid with hold | hlast
        · exact Or.inl hold
        · rw [List.mem_singleton.mp hlast]
          exact Or.inr hnew
      · intro id hid
        rw [hframe] at hid
        exact Or.inl hid
      · intro id hid
        rw [hframe] at hid
        exact Or.inl hid
  | hired boss shopId payload id hwork row account haccount h =>
      exact absurd hwork (hhires boss shopId payload id)

/-! ## Requests -/

section

variable {route : Route} {now : ℤ}

/-- Appointments are added for callers that passed the gate for customers. -/
theorem gate_of_customer {customer : User}
    (h : (route.work user now).customer? = some customer) :
    customer = user ∧ route.roles = some [.customer] := by
  cases route <;> simp_all [Route.work, Work.customer?, Route.roles]

theorem gate_of_owner {owner : User}
    (h : (route.work user now).owner? = some owner) :
    owner = user ∧ route.roles = some [.shopOwner] := by
  cases route <;> simp_all [Route.work, Work.owner?, Route.roles]

end

section

variable {env : Env} {jwt : Jwt}

/-- The caller of a request is an account that is still there, with a role the
route is gated on. -/
theorem learns_caller (route : Route) (moment : ℤ) (credentials : Option String)
    (hs : s.Staffed) :
    (route.caller jwt moment credentials).Learns KeepsStaff KeepsStaff
      (fun user t => route.Admits user ∧ t.Staffed ∧ t.StillHas user) s := by
  have hrely : ∀ (t u : Database) (user : User), t.Staffed → t.StillHas user →
      t.KeepsStaff u → u.Staffed ∧ u.StillHas user := by
    intro t u user ht hstill hkeep
    obtain ⟨hu, hkept⟩ := hkeep ht
    exact ⟨hu, hstill.stable hkept⟩
  have huser : (getCurrentUser jwt moment credentials).Learns KeepsStaff
      KeepsStaff (fun user t => t.Staffed ∧ t.StillHas user) s := by
    cases credentials with
    | none => exact learns_done fun user t hnone => by simp at hnone
    | some token =>
        apply (readOnly_ofExcept _).learns_bind isRely_keepsStaff
        intro payload t hst
        apply (readOnly_rowOr _ _).learns_bind isRely_keepsStaff
        intro userId u htu
        have hu := (htu (hst hs).1).1
        refine Learns.bind isRely_keepsStaff (learns_query (Q := fun found v =>
          v.Staffed ∧ ∀ user, found = some user → v.StillHas user) ?_) ?_
        · intro v w huv hvw
          have hv := (huv hu).1
          refine ⟨(hvw hv).1, ?_⟩
          intro user huser
          exact (hrely v w user hv
            (stillHas_of_mem hv (mem_of_lookup huser)) hvw).2
        rintro found v ⟨hv, hfound⟩
        refine Learns.bind isRely_keepsStaff (learns_rowOr (Q := fun user w =>
          w.Staffed ∧ w.StillHas user) ?_) ?_
        · exact fun user w huser hvw => hrely v w user hv (hfound user huser) hvw
        rintro user w ⟨hw, hstill⟩
        refine Learns.bind isRely_keepsStaff (learns_require (Q := fun _ x =>
          x.Staffed ∧ x.StillHas user) ?_) ?_
        · exact fun x _ hwx => hrely w x user hw hstill hwx
        rintro _ x ⟨hx, hstill⟩
        apply learns_done
        intro user' y huser hxy
        obtain rfl := Except.ok.inj huser
        exact hrely x y user hx hstill hxy
  refine Learns.bind isRely_keepsStaff huser ?_
  rintro user t ⟨ht, hstill⟩
  cases hroles : route.roles with
  | none =>
      apply learns_done
      intro user' u huser htu
      obtain rfl := Except.ok.inj huser
      refine ⟨?_, hrely t u user ht hstill htu⟩
      intro roles hsome
      simp [hroles] at hsome
  | some roles =>
      refine Learns.bind isRely_keepsStaff (learns_require (Q := fun _ u =>
        (user.role ∈ roles ∨ user.role = .admin) ∧ u.Staffed ∧
          u.StillHas user) ?_) ?_
      · exact fun u hallowed htu => ⟨hallowed, hrely t u user ht hstill htu⟩
      rintro _ u ⟨hallowed, hu, hstill⟩
      apply learns_done
      intro user' v huser huv
      obtain rfl := Except.ok.inj huser
      refine ⟨?_, hrely u v user hu hstill huv⟩
      intro roles' hsome
      obtain rfl := Option.some.inj (hroles.symm.trans hsome)
      exact hallowed

/-- The users a work names were let in, and are still there. -/
structure LetIn (work : Work) (s : Database) : Prop where
  staffed : s.Staffed
  customer : ∀ customer, work.customer? = some customer → s.StillHas customer ∧
    (customer.role = .customer ∨ customer.role = .admin)
  owner : ∀ owner, work.owner? = some owner → s.StillHas owner ∧
    (owner.role = .shopOwner ∨ owner.role = .admin)

theorem LetIn.next {work : Work} (h : LetIn work s) (hs' : s'.Staffed)
    (hkept : s.RolesKept s') : LetIn work s' where
  staffed := hs'
  customer user huser :=
    ⟨(h.customer user huser).1.stable hkept, (h.customer user huser).2⟩
  owner user huser :=
    ⟨(h.owner user huser).1.stable hkept, (h.owner user huser).2⟩

theorem learns_letIn {work : Work} (h : LetIn work s)
    (hhires : ∀ boss shopId payload id,
      work ≠ .directory (.addBarber boss shopId payload id)) :
    (work.program env).Learns KeepsStaff KeepsStaff (fun _ _ => True) s := by
  have hstep : ∀ t u, LetIn work t → Statement env work t u →
      u.Staffed ∧ t.RolesKept u := by
    intro t u ht hstatement
    exact (staffing_of_statement ht.staffed.edited hstatement).keepsStaff
      ht.staffed (keepsRecords_of_statement hstatement ht.staffed.edited).1
      ht.customer ht.owner hhires
  refine WritesWithin.learns (F := LetIn work) (work_writesWithin work)
    ?_ ?_ ?_ h
  · intro t u ht hkeep
    exact ht.next (hkeep ht.staffed).1 (hkeep ht.staffed).2
  · intro t u ht hstatement
    exact ht.next (hstep t u ht hstatement).1 (hstep t u ht hstatement).2
  · exact fun t u ht hstatement _ => hstep t u ht hstatement

/-- The account that is taken on is still there when it is. -/
theorem learns_addBarber (boss : User) (shopId : Uuid) (payload : BarberCreate)
    (id : Uuid) (hs : s.Staffed) :
    (addBarber env boss shopId payload id).Learns KeepsStaff KeepsStaff
      (fun _ _ => True) s := by
  apply (readOnly_getShopOr404 _ _).learns_bind isRely_keepsStaff
  intro shop t hst
  apply (readOnly_ensureCanManageShop _ _).learns_bind isRely_keepsStaff
  intro _ u htu
  have hu := (htu (hst hs).1).1
  refine Learns.bind isRely_keepsStaff (learns_query (Q := fun found w =>
    w.Staffed ∧ ∀ account, found = some account → w.StillHas account) ?_) ?_
  · intro v w huv hvw
    have hv := (huv hu).1
    refine ⟨(hvw hv).1, ?_⟩
    intro account haccount
    exact (stillHas_of_mem hv (mem_of_lookup haccount)).stable (hvw hv).2
  rintro found v ⟨hv, hfound⟩
  refine Learns.bind isRely_keepsStaff (learns_rowOr (Q := fun account w =>
    w.Staffed ∧ w.StillHas account) ?_) ?_
  · exact fun account w haccount hvw =>
      ⟨(hvw hv).1, (hfound account haccount).stable (hvw hv).2⟩
  rintro account w ⟨hw, hstill⟩
  apply (readOnly_require _ _).learns_bind isRely_keepsStaff
  intro _ x hwx
  apply learns_commitOrConflict
  intro y y' hxy hflush _
  obtain ⟨hx, hwx⟩ := hwx hw
  obtain ⟨hy, hxy⟩ := hxy hx
  exact flushNewBarber_keepsStaff hy ((hstill.stable hwx).stable hxy) rfl hflush

theorem learns_route (route : Route) (user : User) (now : ℤ)
    (hadmits : route.Admits user) (hs : s.Staffed) (hstill : s.StillHas user) :
    ((route.work user now).program env).Learns KeepsStaff KeepsStaff
      (fun _ _ => True) s := by
  have hletIn : LetIn (route.work user now) s := by
    refine ⟨hs, ?_, ?_⟩
    · intro customer hwork
      obtain ⟨rfl, hroles⟩ := gate_of_customer hwork
      exact ⟨hstill, by simpa using hadmits _ hroles⟩
    · intro owner hwork
      obtain ⟨rfl, hroles⟩ := gate_of_owner hwork
      exact ⟨hstill, by simpa using hadmits _ hroles⟩
  by_cases hhires : ∃ shopId payload id, route = .addBarber shopId payload id
  · obtain ⟨shopId, payload, id, rfl⟩ := hhires
    exact learns_addBarber user shopId payload id hs
  · apply learns_letIn hletIn
    intro boss shopId payload id hwork
    cases route <;> simp_all [Route.work]

end

end Database

/-! ## Every run -/

section

variable {ι : Type} [DecidableEq ι]

theorem learns_job (env : Env) (jwt : Jwt) (job : Job) {s : Database}
    (hs : s.Staffed) :
    (job.program env jwt).Learns KeepsStaff KeepsStaff (fun _ _ => True) s := by
  have htask : ∀ work : Work, work.customer? = none → work.owner? = none →
      (∀ boss shopId payload id,
        work ≠ .directory (.addBarber boss shopId payload id)) →
      (work.program env).Learns KeepsStaff KeepsStaff (fun _ _ => True) s := by
    intro work hcustomer howner hhires
    refine learns_letIn ⟨hs, ?_, ?_⟩ hhires
    · intro customer hwork
      simp [hcustomer] at hwork
    · intro owner hwork
      simp [howner] at hwork
  cases job with
  | request route credentials moment now =>
      refine Learns.bind isRely_keepsStaff
        (learns_caller route moment credentials hs) ?_
      rintro user t ⟨hadmits, ht, hstill⟩
      exact learns_route route user now hadmits ht hstill
  | account op => exact htask (.account op) rfl rfl (by simp)
  | expireStalePending now =>
      exact htask (.booking (.expire now)) rfl rfl (by simp)
  | recomputeBarberRatings =>
      exact htask (.rating .recompute) rfl rfl (by simp)
  | sendAppointmentReminders moment =>
      exact htask (.reminders moment) rfl rfl (by simp)

/-- In whatever order the statements of requests and tasks are executed, roles
are only ever promoted, nobody becomes an admin, and everybody has the role that
goes with what they do. -/
theorem roles_kept
    (env : Env) (jwt : Jwt) (jobs : ι → Job) (db : Database) (hdb : db.Staffed)
    (first rest : List ι) :
    ((jobPool env jwt jobs db).exec first).committed.RolesKept
        ((jobPool env jwt jobs db).exec (first ++ rest)).committed ∧
      ((jobPool env jwt jobs db).exec (first ++ rest)).committed.Staffed := by
  have hverified : (jobPool env jwt jobs db).Verified Staffed
      (fun _ _ => True) (fun _ => KeepsStaff) (fun _ => KeepsStaff)
      (fun _ _ _ => True) (fun _ _ _ => True) :=
    { isRely := fun _ => isRely_keepsStaff
      init := hdb
      begin_init := fun _ => trivial
      start := fun i s hs _ => Ensures.mono (learns_job env jwt (jobs i) hs)
        (fun _ _ h => h) fun _ _ _ => trivial
      inv := fun _ _ _ hs hkeep => (hkeep hs).1
      begin_keep := fun _ _ _ _ _ _ _ _ => trivial
      compat := fun _ _ _ _ _ _ hkeep _ => hkeep
      answer := fun _ _ _ _ _ _ _ _ _ => trivial }
  have htolerant : ∀ schedule, (jobPool env jwt jobs db).Tolerant
      (fun _ _ _ => True) schedule := fun _ _ _ _ _ _ _ => trivial
  have hrelated := hverified.related isRely_keepsStaff
    (fun _ _ _ _ hkeep => hkeep) (htolerant (first ++ rest))
  have hfirst := hverified.invariant (htolerant first)
  exact ⟨(hrelated hfirst).2, (hrelated hfirst).1⟩

end

/-- A token for an account, signed at eight. -/
def tokenOf (id : Uuid) (role : UserRole) : Option String :=
  some (Sample.jwt.encode ⟨id, role, timestamp (Sample.clock 8 0),
    timestamp (Sample.clock 8 0 + minutes 15), 60⟩)

/-- The customer books a time, and the owner takes the customer on. -/
def bookAndTakeOn : Bool → Job
  | false => .request (.createAppointment ⟨20, 30, Sample.start 12 0⟩ 41
      (Sample.clock 8 1)) (tokenOf 4 .customer) (Sample.clock 8 1)
      (Sample.clock 8 1)
  | true => .request (.addBarber 10 ⟨"Cara", none, 0⟩ 21) (tokenOf 2 .shopOwner)
      (Sample.clock 8 1) (Sample.clock 8 1)

/-- The customer is promoted after the gate and before the insertion. -/
def promotedMeanwhile : List Bool :=
  [false] ++ List.replicate 8 true ++ List.replicate 20 false

theorem Sample.db_staffed : Sample.db.Staffed where
  users := Sample.db_valid.keys.users
  edited := Sample.db_valid.editedKeys
  owners id hid := by
    obtain rfl := List.mem_singleton.mp hid
    exact ⟨Sample.owner, rfl, Or.inl rfl⟩
  hired id hid := by
    obtain rfl := List.mem_singleton.mp hid
    exact ⟨Sample.stylist, rfl, by decide⟩
  customers id hid := absurd hid List.not_mem_nil

theorem roles_kept_meanwhile :
    let final := (jobPool Sample.env Sample.jwt bookAndTakeOn Sample.db).exec
      promotedMeanwhile
    (Sample.db.RolesKept final.committed ∧ final.committed.Staffed) ∧
      (final.committed.user? 4).map User.role = some .barber ∧
      final.committed.customers = [4] := by
  refine ⟨?_, by decide +kernel, by decide +kernel⟩
  exact roles_kept Sample.env Sample.jwt bookAndTakeOn Sample.db
    Sample.db_staffed [] promotedMeanwhile

end BarberHub
