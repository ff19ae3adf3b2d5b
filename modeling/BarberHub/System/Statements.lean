import BarberHub.Support.WriteFrames
import BarberHub.System.Beside

/-!
# The statements that write

Every statement with which a request or a task writes to the database, with the
checks of the schema it goes through, and the proof that no work writes in any
other way, whatever it has read and whatever is committed between its
statements.
-/

namespace BarberHub

open KeyedTable ReadCommitted Program Fallible

/-! ## The list -/

/-- The customer of the appointment a work may add. -/
def Work.customer? : Work → Option User
  | booking (.create customer _ _ _ _) => some customer
  | _ => none

/-- The owner of the shop a work may add. -/
def Work.owner? : Work → Option User
  | directory (.createShop owner _ _ _) => some owner
  | _ => none

/-- A work that reviews, rates or reminds. -/
def Work.Notes : Work → Prop
  | rating _ | reminders _ => True
  | _ => False

/-- A statement of a work that is accepted, with what it leaves. -/
inductive Statement (env : Env) (work : Work) (s s' : Database) : Prop where
  | insertedAppointment (customer : User) (row : Appointment)
      (hwork : work.customer? = some customer)
      (hcustomer : row.customerId = customer.id)
      (hnew : row.cancelledById = none)
      (h : insertAppointment env row s = .ok s')
  | updatedAppointment (id : Uuid) (u : AppointmentUpdate)
      (h : updateAppointment env id u s = .ok s')
  | expiredAppointments (stale : List Appointment)
      (h : stale.foldlM (fun db a =>
        updateAppointment env a.id (expiry a) db) s = .ok s')
  | queued (task : Event × Uuid)
      (h : s' = { s with queue := s.queue ++ [task] })
  | flushedBarber (id : Uuid) (u : BarberUpdate)
      (h : flushBarber id u s = .ok s')
  | flushedService (id : Uuid) (u : ServiceUpdate)
      (h : flushService env id u s = .ok s')
  | flushedShop (id : Uuid) (u : BarbershopUpdate)
      (h : flushShop id u s = .ok s')
  | flushedBarberServices (barberId : Uuid) (removed added : List Uuid)
      (h : flushBarberServices barberId removed added s = .ok s')
  | insertedShop (owner : User) (row : Barbershop)
      (hwork : work.owner? = some owner) (howner : row.ownerId = owner.id)
      (h : insertShop row s = .ok s')
  | insertedService (row : Service) (h : insertService env row s = .ok s')
  | flushedNewBarber (user : User) (shopId : Uuid) (payload : BarberCreate)
      (id : Uuid) (hwork : work = .directory (.addBarber user shopId payload id))
      (row : Barber) (account : User) (haccount : row.userId = account.id)
      (h : flushNewBarber row account s = .ok s')
  | flushedWorkingHours (deleted : List Uuid) (rows : List WorkingHours)
      (h : flushWorkingHours deleted rows s = .ok s')
  | insertedBreak (row : BarberBreak) (h : insertBreak row s = .ok s')
  | deletedBreak (id : Uuid) (h : deleteBreakRow id s = .ok s')
  | insertedClosure (row : ShopClosure) (h : insertClosure row s = .ok s')
  | deletedClosure (id : Uuid) (h : deleteClosureRow id s = .ok s')
  | registered (user : User) (token : RefreshToken) (t : Database)
      (hrole : user.role = .customer ∨ user.role = .shopOwner)
      (haccount : flushAccount env user s = .ok t)
      (htoken : insertRefreshToken token t = .ok s')
  | signedIn (user : User) (password salt : String) (token : RefreshToken)
      (t : Database) (hrehash : flushRehash env user password salt s = .ok t)
      (htoken : insertRefreshToken token t = .ok s')
  | rotated (id : Uuid) (moment : ℤ) (token : RefreshToken)
      (h : rotateToken id moment token s = .ok s')
  | revoked (ids : List Uuid) (moment : ℤ)
      (h : s' = revokeTokens ids moment s)
  | noted (hwork : work.Notes) (h : s.Noted s')

/-! ## Wrappers -/

section

variable {R : Database → Database → Prop}

theorem writesWithin_discard {α : Type} {p : Request α}
    (h : p.WritesWithin R) : (discard p).WritesWithin R :=
  h.bind fun _ => trivial

theorem writesWithin_commitOrConflict
    {message : String} {w : Database → Except Raised Database}
    (h : ∀ s s', w s = .ok s' → R s s') :
    (commitOrConflict message w).WritesWithin R := by
  rw [commitOrConflict]
  apply writesWithin_write
  intro s s' hw
  apply h
  split at hw
  · simp at hw
  · exact hw

theorem writesWithin_appointmentEvent (env : Env) (event : Event) (id : Uuid)
    (h : ∀ s, R s { s with queue := s.queue ++ [(event, id)] }) :
    (appointmentEvent env event id).WritesWithin R := by
  rw [appointmentEvent]
  split
  · apply writesWithin_write
    intro s s' hw
    rw [← Except.ok.inj hw]
    exact h s
  · trivial

end

/-! ## Bookings -/

section

variable {env : Env} {work : Work}

theorem writesWithin_updateAppointment (id : Uuid) (u : AppointmentUpdate) :
    (write (updateAppointment env id u)).WritesWithin (Statement env work) :=
  writesWithin_write fun _ _ hw => .updatedAppointment id u hw

theorem writesWithin_createTransaction
    (customer : User) (payload : AppointmentCreate) (now : ℤ) (id : Uuid)
    (createdAt : ℤ) {R : Database → Database → Prop}
    (h : ∀ s s' row, row.customerId = customer.id → row.cancelledById = none →
      insertAppointment env row s = .ok s' → R s s') :
    (createTransaction env customer payload now id createdAt).WritesWithin
      R := by
  rw [createTransaction]
  apply (respects_resolveBarberAndService _ _).readOnly.writesWithin_bind
  rintro ⟨barber, service⟩
  apply (readOnly_query _).writesWithin_bind
  intro shop
  apply (readOnly_ofExcept _).writesWithin_bind
  intro stop
  apply (readOnly_assertOnOffer _ _ _ _ _ _).writesWithin_bind
  intro _
  apply (readOnly_ofExcept _).writesWithin_bind
  intro startTime
  apply (readOnly_ofExcept _).writesWithin_bind
  intro endTime
  rw [commitOrSlotTaken_eq]
  apply writesWithin_write
  intro s s' hw
  exact h s s' _ (by rfl) (by rfl) (orSlotTaken_eq_ok_iff.mp hw)

theorem writesWithin_closeOut (user : User) (id : Uuid)
    (target : AppointmentStatus) (now : ℤ) :
    (closeOutTransaction env user id target now).WritesWithin
      (Statement env work) := by
  rw [closeOutTransaction]
  apply (readOnly_loadForAction _ _).writesWithin_bind
  rintro ⟨loaded, isStaff⟩
  apply (readOnly_require _ _).writesWithin_bind
  intro _
  apply (readOnly_requireStatus _ _ _).writesWithin_bind
  intro _
  apply (readOnly_require _ _).writesWithin_bind
  intro _
  exact writesWithin_updateAppointment _ _

theorem writesWithin_reschedule (user : User) (id : Uuid)
    (newStart : AwareDatetime) (now : ℤ) :
    (rescheduleTransaction env user id newStart now).WritesWithin
      (Statement env work) := by
  apply (readOnly_loadForAction _ _).writesWithin_bind
  rintro ⟨loaded, isStaff⟩
  apply (readOnly_requireStatus _ _ _).writesWithin_bind
  intro _
  apply (readOnly_assertWithinCutoff _ _ _ _).writesWithin_bind
  intro _
  apply (respects_resolveBarberAndService _ _).readOnly.writesWithin_bind
  rintro ⟨barber, service⟩
  apply (readOnly_assertOnOffer _ _ _ _ _ _).writesWithin_bind
  intro _
  apply (readOnly_ofExcept _).writesWithin_bind
  intro newEnd
  apply (readOnly_ofExcept _).writesWithin_bind
  intro startTime
  apply (readOnly_ofExcept _).writesWithin_bind
  intro endTime
  rw [commitOrSlotTaken_eq]
  apply writesWithin_write
  intro s s' hw
  exact .updatedAppointment _ _ (orSlotTaken_eq_ok_iff.mp hw)

theorem writesWithin_cancel (user : User) (id : Uuid) (reason : Option String)
    (now : ℤ) :
    (cancelTransaction env user id reason now).WritesWithin
      (Statement env work) := by
  apply (readOnly_loadForAction _ _).writesWithin_bind
  rintro ⟨loaded, isStaff⟩
  apply (readOnly_requireStatus _ _ _).writesWithin_bind
  intro _
  apply (readOnly_assertWithinCutoff _ _ _ _).writesWithin_bind
  intro _
  exact writesWithin_updateAppointment _ _

theorem writesWithin_confirm (user : User) (id : Uuid) :
    (confirmTransaction env user id).WritesWithin (Statement env work) := by
  apply (readOnly_loadForAction _ _).writesWithin_bind
  rintro ⟨loaded, isStaff⟩
  apply (readOnly_require _ _).writesWithin_bind
  intro _
  apply (readOnly_requireStatus _ _ _).writesWithin_bind
  intro _
  exact writesWithin_updateAppointment _ _

theorem writesWithin_expireStalePending (now : ℤ) :
    (expireStalePending env now).WritesWithin (Statement env work) := by
  rw [expireStalePending]
  apply (readOnly_ofExcept _).writesWithin_bind
  intro cutoff
  apply (readOnly_query _).writesWithin_bind
  intro stale
  apply WritesWithin.bind
  · exact writesWithin_write fun s s' hw => .expiredAppointments stale hw
  · exact fun _ => trivial

/-- What follows the transaction of a request queues at most a task. -/
theorem writesWithin_followUp {R : Database → Database → Prop}
    {transaction : Request Unit} (event : Event) (user : User) (id : Uuid)
    (hqueue : ∀ s, R s { s with queue := s.queue ++ [(event, id)] })
    (h : transaction.WritesWithin R) :
    (discard (do
      transaction
      appointmentEvent env event id
      getAppointment user id)).WritesWithin R := by
  apply writesWithin_discard
  apply h.bind
  intro _
  apply (writesWithin_appointmentEvent env event id hqueue).bind
  intro _
  exact (readOnly_getAppointment user id).writesWithin

theorem writesWithin_bookingOp (op : BookingOp) :
    (op.program env).WritesWithin (Statement env (.booking op)) := by
  have hqueue : ∀ (event : Event) (id : Uuid) (s : Database),
      Statement env (.booking op) s { s with queue := s.queue ++ [(event, id)] } :=
    fun event id s => .queued (event, id) rfl
  have hcloseOut : ∀ user id target now,
      (discard (closeOut env user id target now)).WritesWithin
        (Statement env (.booking op)) := fun user id target now =>
    writesWithin_discard ((writesWithin_closeOut user id target now).bind
      fun _ => (readOnly_getAppointment user id).writesWithin)
  cases op with
  | create customer payload now id createdAt =>
      exact writesWithin_followUp .created customer id (hqueue .created id)
        (writesWithin_createTransaction customer payload now id createdAt
          fun _ _ row hrow hnew h =>
            .insertedAppointment customer row (by rfl) hrow hnew h)
  | reschedule user id newStart now =>
      exact writesWithin_followUp .rescheduled user id (hqueue .rescheduled id)
        (writesWithin_reschedule user id newStart now)
  | cancel user id reason now =>
      exact writesWithin_followUp .cancelled user id (hqueue .cancelled id)
        (writesWithin_cancel user id reason now)
  | confirm user id =>
      exact writesWithin_followUp .created user id (hqueue .created id)
        (writesWithin_confirm user id)
  | complete user id now => exact hcloseOut user id .completed now
  | noShow user id now => exact hcloseOut user id .noShow now
  | expire now =>
      exact writesWithin_discard (writesWithin_expireStalePending now)

/-! ## The staff -/

theorem readOnly_appointmentsOverlapping (barberId : Uuid) (start stop : ℤ) :
    (appointmentsOverlapping barberId start stop).ReadOnly :=
  (readOnly_ofExcept _).bind fun _ => (readOnly_ofExcept _).bind fun _ =>
    (readOnly_query _).bind fun _ => trivial

theorem writesWithin_managementOp (op : ManagementOp) (now : ℤ) :
    (op.program env now).WritesWithin (Statement env work) := by
  cases op with
  | updateBarber user id payload =>
      apply (readOnly_loadBarber _).writesWithin_bind
      intro barber
      apply (readOnly_ensureCanManageBarber _ _).writesWithin_bind
      intro _
      exact writesWithin_write fun _ _ hw => .flushedBarber _ _ hw
  | deactivateBarber user id =>
      apply (readOnly_loadBarber _).writesWithin_bind
      intro barber
      apply (readOnly_getShopOr404 _ _).writesWithin_bind
      intro shop
      apply (readOnly_ensureCanManageShop _ _).writesWithin_bind
      intro _
      apply (readOnly_refuseUpcoming _ _ _).writesWithin_bind
      intro _
      exact writesWithin_write fun _ _ hw => .flushedBarber _ _ hw
  | updateService user id payload =>
      apply (readOnly_getManageableService _ _).writesWithin_bind
      intro service
      exact writesWithin_commitOrConflict fun _ _ hw => .flushedService _ _ hw
  | deactivateService user id =>
      apply (readOnly_getManageableService _ _).writesWithin_bind
      intro service
      apply (readOnly_refuseUpcoming _ _ _).writesWithin_bind
      intro _
      exact writesWithin_write fun _ _ hw => .flushedService _ _ hw
  | updateShop user id payload =>
      apply (readOnly_getShopOr404 _ _).writesWithin_bind
      intro shop
      apply (readOnly_ensureCanManageShop _ _).writesWithin_bind
      intro _
      exact writesWithin_write fun _ _ hw => .flushedShop _ _ hw
  | deactivateShop user id =>
      apply (readOnly_getShopOr404 _ _).writesWithin_bind
      intro shop
      apply (readOnly_ensureCanManageShop _ _).writesWithin_bind
      intro _
      apply (readOnly_refuseUpcoming _ _ _).writesWithin_bind
      intro _
      exact writesWithin_write fun _ _ hw => .flushedShop _ _ hw
  | replaceWorkingHours user barberId items newId =>
      apply (readOnly_loadBarber _).writesWithin_bind
      intro barber
      apply (readOnly_ensureCanManageBarber _ _).writesWithin_bind
      intro _
      apply (readOnly_query _).writesWithin_bind
      intro deleted
      exact writesWithin_write fun _ _ hw => .flushedWorkingHours _ _ hw
  | createBreak user barberId payload id =>
      apply (readOnly_loadBarber _).writesWithin_bind
      intro barber
      apply (readOnly_ensureCanManageBarber _ _).writesWithin_bind
      intro _
      apply (readOnly_appointmentsOverlapping _ _ _).writesWithin_bind
      intro clashing
      apply (readOnly_require _ _).writesWithin_bind
      intro _
      exact writesWithin_write fun _ _ hw => .insertedBreak _ hw
  | deleteBreak user id =>
      apply (readOnly_query _).writesWithin_bind
      intro found
      apply (readOnly_rowOr _ _).writesWithin_bind
      intro row
      apply (readOnly_loadBarber _).writesWithin_bind
      intro barber
      apply (readOnly_ensureCanManageBarber _ _).writesWithin_bind
      intro _
      exact writesWithin_write fun _ _ hw => .deletedBreak _ hw
  | createClosure user shopId payload id =>
      apply (readOnly_getShopOr404 _ _).writesWithin_bind
      intro shop
      apply (readOnly_ensureCanManageShop _ _).writesWithin_bind
      intro _
      apply (readOnly_ofExcept _).writesWithin_bind
      intro windowStart
      apply (readOnly_ofExcept _).writesWithin_bind
      intro windowEnd
      apply (readOnly_ofExcept _).writesWithin_bind
      intro start
      apply (readOnly_ofExcept _).writesWithin_bind
      intro stop
      apply (readOnly_query _).writesWithin_bind
      intro rows
      apply (readOnly_require _ _).writesWithin_bind
      intro _
      exact writesWithin_commitOrConflict fun _ _ hw => .insertedClosure _ hw
  | deleteClosure user id =>
      apply (readOnly_query _).writesWithin_bind
      intro found
      apply (readOnly_rowOr _ _).writesWithin_bind
      intro row
      apply (readOnly_getShopOr404 _ _).writesWithin_bind
      intro shop
      apply (readOnly_ensureCanManageShop _ _).writesWithin_bind
      intro _
      exact writesWithin_write fun _ _ hw => .deletedClosure _ hw

/-! ## The directory -/

theorem readOnly_servicesResolved (barber : Barber) (serviceIds : List Uuid) :
    (resolveServices barber serviceIds).ReadOnly := by
  rw [resolveServices]
  split
  · trivial
  · exact (readOnly_query _).bind fun _ => (readOnly_require _ _).bind
      fun _ => trivial

theorem writesWithin_directoryOp (op : DirectoryOp) :
    (op.program env).WritesWithin (Statement env (.directory op)) := by
  cases op with
  | createShop owner payload id createdAt =>
      exact writesWithin_write fun _ _ hw =>
        .insertedShop owner _ (by rfl) (by rfl) hw
  | createService user shopId payload id quoted =>
      apply (readOnly_getShopOr404 _ _).writesWithin_bind
      intro shop
      apply (readOnly_ensureCanManageShop _ _).writesWithin_bind
      intro _
      exact writesWithin_commitOrConflict fun _ _ hw => .insertedService _ hw
  | addBarber user shopId payload id =>
      apply (readOnly_getShopOr404 _ _).writesWithin_bind
      intro shop
      apply (readOnly_ensureCanManageShop _ _).writesWithin_bind
      intro _
      apply (readOnly_query _).writesWithin_bind
      intro found
      apply (readOnly_rowOr _ _).writesWithin_bind
      intro account
      apply (readOnly_require _ _).writesWithin_bind
      intro _
      exact writesWithin_commitOrConflict fun _ _ hw =>
        .flushedNewBarber user shopId payload id (by rfl) _ account (by rfl) hw
  | setServices user barberId serviceIds =>
      apply (readOnly_loadBarber _).writesWithin_bind
      intro barber
      apply (readOnly_query _).writesWithin_bind
      intro loaded
      apply (readOnly_getShopOr404 _ _).writesWithin_bind
      intro shop
      apply (readOnly_ensureCanManageShop _ _).writesWithin_bind
      intro _
      apply (readOnly_servicesResolved _ _).writesWithin_bind
      intro services
      exact writesWithin_write fun _ _ hw => .flushedBarberServices _ _ _ hw

/-! ## Accounts -/

theorem readOnly_tokenLoaded (rawToken : String) :
    (loadRefreshToken env rawToken).ReadOnly :=
  (readOnly_query _).bind fun _ => readOnly_rowOr _ _

theorem writesWithin_register (payload : RegisterRequest) (id : Uuid)
    (salt : String) (createdAt : ℤ) (draw : TokenDraw) :
    (register env payload id salt createdAt draw).WritesWithin
      (Statement env work) := by
  rw [register]
  apply WritesWithin.bind
  · apply writesWithin_write
    intro s s' hw
    obtain ⟨t, haccount, hw⟩ := bind_eq_ok_iff.mp hw
    obtain ⟨⟨row, pair⟩, -, hw⟩ := bind_eq_ok_iff.mp hw
    exact .registered _ row t payload.role_selfAssignable haccount hw
  · intro _
    exact (readOnly_ofExcept _).writesWithin_bind fun _ => trivial

theorem writesWithin_login (email password salt : String) (draw : TokenDraw) :
    (login env email password salt draw).WritesWithin (Statement env work) := by
  rw [login]
  apply (readOnly_query _).writesWithin_bind
  intro found
  apply (readOnly_rowOr _ _).writesWithin_bind
  intro user
  apply (readOnly_require _ _).writesWithin_bind
  intro _
  apply (readOnly_ofExcept _).writesWithin_bind
  rintro ⟨row, pair⟩
  apply WritesWithin.bind
  · apply writesWithin_write
    intro s s' hw
    obtain ⟨t, hrehash, hw⟩ := bind_eq_ok_iff.mp hw
    exact .signedIn user password salt row t hrehash hw
  · exact fun _ => trivial

theorem writesWithin_refresh (rawToken : String) (draw : TokenDraw) :
    (refresh env rawToken draw).WritesWithin (Statement env work) := by
  rw [refresh]
  apply (readOnly_tokenLoaded _).writesWithin_bind
  intro stored
  split
  · apply WritesWithin.bind
    · apply (readOnly_query _).writesWithin_bind
      intro live
      apply writesWithin_write
      intro s s' hw
      exact .revoked live draw.revokedAt (Except.ok.inj hw).symm
    · exact fun _ => trivial
  · apply (readOnly_require _ _).writesWithin_bind
    intro _
    apply (readOnly_query _).writesWithin_bind
    intro found
    apply (readOnly_rowOr _ _).writesWithin_bind
    intro user
    apply (readOnly_ofExcept _).writesWithin_bind
    rintro ⟨row, pair⟩
    apply WritesWithin.bind
    · exact writesWithin_write fun _ _ hw => .rotated _ _ row hw
    · exact fun _ => trivial

theorem writesWithin_logout (rawToken : String) (moment : ℤ) :
    (logout env rawToken moment).WritesWithin (Statement env work) := by
  rw [logout]
  apply (readOnly_tokenLoaded _).writesWithin_bind
  intro stored
  split
  · trivial
  · apply writesWithin_write
    intro s s' hw
    rw [revokeToken] at hw
    split at hw
    · exact .revoked [stored.id] moment (Except.ok.inj hw).symm
    · simp at hw

theorem writesWithin_authOp (op : AuthOp) :
    (op.transaction env).WritesWithin (Statement env work) := by
  have hanswer : ∀ answer : AuthAnswer,
      (pure answer : Request AuthAnswer).WritesWithin (Statement env work) :=
    fun _ => trivial
  cases op with
  | register payload id salt createdAt draw =>
      exact (writesWithin_register payload id salt createdAt draw).bind
        fun _ => hanswer _
  | session op =>
      cases op with
      | login email password salt draw =>
          exact (writesWithin_login email password salt draw).bind
            fun _ => hanswer _
      | refresh rawToken draw =>
          exact (writesWithin_refresh rawToken draw).bind fun _ => hanswer _
      | logout rawToken moment =>
          exact (writesWithin_logout rawToken moment).bind fun _ => hanswer _

end

/-! ## Ratings and reminders -/

section

open LockedTransactions

variable {env : Env} {work : Work}

theorem writesWithin_unlocked {κ μ α : Type}
    {p : Transaction Database κ μ Raised α} (hwork : work.Notes)
    (h : p.Writes Database.Noted) :
    (p.unlocked id).WritesWithin (Statement env work) :=
  (h.writesWithin_unlocked isRely_noted fun s => isRely_noted.refl s).mono
    fun _ _ hnoted => .noted hwork hnoted

/-- No work writes otherwise. -/
theorem work_writesWithin (work : Work) :
    (work.program env).WritesWithin (Statement env work) := by
  cases work with
  | booking op => exact writesWithin_bookingOp op
  | management op now => exact writesWithin_managementOp op now
  | directory op => exact writesWithin_directoryOp op
  | account op => exact writesWithin_discard (writesWithin_authOp op)
  | rating work =>
      exact writesWithin_discard
        (writesWithin_unlocked trivial (noted_ratingWork work))
  | reminders moment =>
      exact writesWithin_discard
        (writesWithin_unlocked trivial (noted_sendAppointmentReminders moment))

end

end BarberHub
