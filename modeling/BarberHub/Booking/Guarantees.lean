import BarberHub.Booking.Transitions
import BarberHub.Slots.Interference
import BarberHub.Support.Fallible

/-!
# What the booking transactions commit

One lemma for each transaction: whatever it commits is justified by rows it
saw earlier, at moments from which the other transactions have come to the
present one by what they may commit.  With nothing committed by others this is
the specification of the operation alone; with a larger `rely` it is the
starting point for reasoning about interleavings.
-/

namespace BarberHub

open HalfOpen KeyedTable ReadCommitted Program Fallible

/-- The transaction, begun at `s`, has seen the appointment at a moment between
`s` and `u`. -/
def Saw (rely : Database → Database → Prop) (s : Database) (id : Uuid)
    (a : Appointment) (u : Database) : Prop :=
  ∃ t, rely s t ∧ rely t u ∧ t.appointment? id = some a

/-- The transaction, begun at `s`, has seen the start on offer: in the database
as its statements saw it between `s` and `u`. -/
def SawOffer (rely : Database → Database → Prop) (env : Env) (s : Database)
    (barber : Barber) (service : Service) (start now : ℤ)
    (exclude : Option Uuid) (u : Database) : Prop :=
  ∃ t c a b, rely s t ∧ rely t c ∧ rely c a ∧ rely a b ∧ rely b u ∧
    ∃ shop, t.Sells barber.id service.id barber shop service ∧
      Bookable env (t.seenAs c a b) barber.id shop service
        (localDate (env.shopTimezone shop) start) now exclude false start

/-- Staff may change an appointment at any time, its customer before the
cutoff. -/
def Env.InTime (env : Env) (a : Appointment) (now : ℤ) (isStaff : Bool) : Prop :=
  isStaff = true ∨
    now < a.startTime - minutes env.settings.appointmentChangeCutoffMinutes

/-- The barber and the service can be booked together. -/
structure Database.Resolves (db : Database) (barberId serviceId : Uuid)
    (barber : Barber) (service : Service) : Prop where
  barber_eq : db.barber? barberId = some barber
  barber_active : barber.isActive
  service_eq : db.service? serviceId = some service
  service_active : service.isActive
  same_shop : service.shopId = barber.shopId
  performs : service.id ∈ db.servicesOf barber.id

theorem Database.Resolves.barber_id
    {db : Database} {barberId serviceId : Uuid} {barber : Barber}
    {service : Service}
    (h : db.Resolves barberId serviceId barber service) :
    barber.id = barberId :=
  key_of_lookup h.barber_eq

theorem Database.Resolves.service_id
    {db : Database} {barberId serviceId : Uuid} {barber : Barber}
    {service : Service}
    (h : db.Resolves barberId serviceId barber service) :
    service.id = serviceId :=
  key_of_lookup h.service_eq

theorem Database.Resolves.barber_self
    {db : Database} {barberId serviceId : Uuid} {barber : Barber}
    {service : Service}
    (h : db.Resolves barberId serviceId barber service) :
    db.barber? barber.id = some barber :=
  h.barber_id ▸ h.barber_eq

theorem Database.Resolves.service_self
    {db : Database} {barberId serviceId : Uuid} {barber : Barber}
    {service : Service}
    (h : db.Resolves barberId serviceId barber service) :
    db.service? service.id = some service :=
  h.service_id ▸ h.service_eq

theorem Database.Resolves.of_sameDirectory
    {a b : Database} {barberId serviceId : Uuid} {barber : Barber}
    {service : Service}
    (h : a.Resolves barberId serviceId barber service)
    (hab : a.SameDirectory b) :
    b.Resolves barberId serviceId barber service where
  barber_eq := hab.barber? ▸ h.barber_eq
  barber_active := h.barber_active
  service_eq := hab.service? ▸ h.service_eq
  service_active := h.service_active
  same_shop := h.same_shop
  performs := hab.servicesOf ▸ h.performs

theorem run_resolveBarberAndService_eq_ok_iff
    {barberId serviceId : Uuid} {barber : Barber} {service : Service}
    {db db' : Database} :
    (resolveBarberAndService barberId serviceId).run db =
        (.ok (barber, service), db') ↔
      db.Resolves barberId serviceId barber service ∧ db' = db := by
  rw [resolveBarberAndService]
  simp only [query_bind, run_read, run_rowOr_bind_eq_ok_iff,
    run_require_bind_eq_ok_iff, pure_eq_done, run_done, Prod.mk.injEq,
    Except.ok.injEq]
  constructor
  · rintro ⟨⟨b, services⟩, hb, v, hv, hsame, hperforms, ⟨rfl, rfl⟩, rfl⟩
    obtain ⟨hbarber, hbactive, rfl⟩ := Database.activeBarber_eq_some_iff.mp hb
    obtain ⟨hservice, hvactive⟩ := Option.filter_eq_some_iff.mp hv
    exact ⟨⟨hbarber, hbactive, hservice, hvactive, hsame, hperforms⟩, rfl⟩
  · rintro ⟨h, rfl⟩
    exact ⟨(barber, _),
      Database.activeBarber_eq_some_iff.mpr
        ⟨h.barber_eq, h.barber_active, rfl⟩,
      service, Option.filter_eq_some_iff.mpr ⟨h.service_eq, h.service_active⟩,
      h.same_shop, h.performs, ⟨rfl, rfl⟩, rfl⟩

theorem respects_resolveBarberAndService (barberId serviceId : Uuid) :
    (resolveBarberAndService barberId serviceId).Respects
      Database.SameDirectory := by
  rw [resolveBarberAndService]
  refine (respects_query fun a b h => by rw [h.activeBarber]).bind fun found => ?_
  apply (respects_rowOr _ _ _).bind
  intro pair
  refine (respects_query fun a b h => by rw [h.activeService]).bind fun row => ?_
  apply (respects_rowOr _ _ _).bind
  intro service
  apply (respects_require _ _ _).bind
  intro _
  exact (respects_require _ _ _).bind fun _ => trivial

theorem Database.loadedAppointment?_appointment
    {db : Database} {id : Uuid} {loaded : LoadedAppointment}
    (h : db.loadedAppointment? id = some loaded) :
    db.appointment? id = some loaded.appointment := by
  rw [loadedAppointment?] at h
  obtain ⟨a, ha, rfl⟩ := Option.map_eq_some_iff.mp h
  exact ha

theorem Database.loadedAppointment?_barber
    {db : Database} {id : Uuid} {loaded : LoadedAppointment}
    (h : db.loadedAppointment? id = some loaded) :
    loaded.barber = db.barber? loaded.appointment.barberId := by
  rw [loadedAppointment?] at h
  obtain ⟨a, -, rfl⟩ := Option.map_eq_some_iff.mp h
  rfl

/-! ## The UPDATEs of one expiry run -/

/-- The row cancelled by the confirmation timeout. -/
structure Appointment.Expired (b b' : Appointment) : Prop where
  continues : b.Continues b'
  start_eq : b'.startTime = b.startTime
  end_eq : b'.endTime = b.endTime
  cancelledBy_eq : b'.cancelledById = b.cancelledById
  status_eq : b'.status = .cancelled

theorem Appointment.Expired.trans
    {a b c : Appointment} (h : a.Expired b) (h' : b.Expired c) : a.Expired c :=
  ⟨h.continues.trans h'.continues, h'.start_eq.trans h.start_eq,
    h'.end_eq.trans h.end_eq, h'.cancelledBy_eq.trans h.cancelledBy_eq,
    h'.status_eq⟩

theorem expired_apply {a : Appointment} (h : a.status = .pending)
    (b : Appointment) : b.Expired ((expiry a).apply b) := by
  refine ⟨AppointmentUpdate.continues_apply _ _, ?_, ?_, ?_, ?_⟩ <;>
    simp [expiry, AppointmentUpdate.apply, AppointmentUpdate.ofChange,
      changedTo, h]

/-- The UPDATEs of one expiry run cancel the rows they name and leave the
others. -/
theorem expired_rows
    {env : Env} {stale : List Appointment} {s s' : Database} (id : Uuid)
    (hpending : ∀ a ∈ stale, a.status = .pending)
    (h : stale.foldlM (fun db a => updateAppointment env a.id (expiry a) db) s =
      .ok s') :
    s.SameDirectory s' ∧
      s'.appointments.map Appointment.id =
        s.appointments.map Appointment.id ∧
      ∀ b, s.appointment? id = some b → ∃ b', s'.appointment? id = some b' ∧
        (b' = b ∨ (b.Expired b' ∧ ∃ a ∈ stale, a.id = id)) := by
  induction stale generalizing s with
  | nil =>
      obtain rfl := Except.ok.inj h
      exact ⟨.refl _, rfl, fun b hb => ⟨b, hb, Or.inl rfl⟩⟩
  | cons a stale ih =>
      rw [List.foldlM_cons, bind_eq_ok_iff] at h
      obtain ⟨t, ht, h⟩ := h
      obtain rfl := updateAppointment_eq_ok ht
      obtain ⟨hdir, hids, hrow⟩ :=
        ih (fun c hc => hpending c (List.mem_cons_of_mem _ hc)) h
      have hsame : s.SameDirectory { s with
          appointments :=
            updateAt Appointment.id a.id (expiry a).apply s.appointments } :=
        ⟨rfl, rfl, rfl, rfl, rfl, rfl⟩
      refine ⟨hsame.trans hdir, hids.trans (map_id_updateAt _ _ _), ?_⟩
      intro b hb
      by_cases ha : a.id = id
      · subst ha
        have hexpired := expired_apply (hpending a List.mem_cons_self) b
        obtain ⟨b', hb', hcases⟩ := hrow ((expiry a).apply b) (by
          rw [appointment?_updateAt, hb]
          rfl)
        refine ⟨b', hb', Or.inr ⟨?_, a, List.mem_cons_self, rfl⟩⟩
        rcases hcases with rfl | ⟨hagain, -⟩
        · exact hexpired
        · exact hexpired.trans hagain
      · obtain ⟨b', hb', hcases⟩ := hrow b (by
          rw [appointment?_updateAt_of_ne _ _ (Ne.symm ha), hb])
        refine ⟨b', hb', hcases.imp_right ?_⟩
        rintro ⟨hexpired, c, hc, hid⟩
        exact ⟨hexpired, c, List.mem_cons_of_mem _ hc, hid⟩

/-- The UPDATEs of one expiry run touch no other table. -/
theorem expired_frame
    {env : Env} {stale : List Appointment} {s s' : Database}
    (h : stale.foldlM (fun db a => updateAppointment env a.id (expiry a) db) s =
      .ok s') : s' = { s with appointments := s'.appointments } := by
  induction stale generalizing s with
  | nil =>
      obtain rfl := Except.ok.inj h
      rfl
  | cons a stale ih =>
      rw [List.foldlM_cons, bind_eq_ok_iff] at h
      obtain ⟨t, ht, h⟩ := h
      obtain rfl := updateAppointment_eq_ok ht
      have hrest := ih h
      exact hrest

/-! ## Reads between the statements that matter -/

theorem readOnly_isStaffFor (user : User) (loaded : LoadedAppointment) :
    (isStaffFor user loaded).ReadOnly := by
  rw [isStaffFor]
  split
  · trivial
  · apply (readOnly_rowOr _ _).bind
    intro barber
    split
    · trivial
    · exact (readOnly_query _).bind fun shop => trivial

theorem readOnly_loadForAction (user : User) (id : Uuid) :
    (loadForAction user id).ReadOnly := by
  rw [loadForAction, load]
  apply ((readOnly_query _).bind fun _ => readOnly_rowOr _ _).bind
  intro loaded
  exact (readOnly_isStaffFor user loaded).bind fun _ =>
    (readOnly_require _ _).bind fun _ => trivial

theorem readOnly_requireStatus (a : Appointment)
    (allowed : AppointmentStatus → Bool) (refusal : String) :
    (requireStatus a allowed refusal).ReadOnly :=
  readOnly_require _ _

theorem readOnly_assertWithinCutoff (env : Env) (a : Appointment) (now : ℤ)
    (isStaff : Bool) : (assertWithinCutoff env a now isStaff).ReadOnly := by
  rw [assertWithinCutoff]
  split
  · trivial
  · exact (readOnly_ofExcept _).bind fun cutoff => readOnly_require _ _

theorem readOnly_assertOnOffer (env : Env) (barber : Barber)
    (service : Service) (start : AwareDatetime) (now : ℤ)
    (exclude : Option Uuid) :
    (assertOnOffer env barber service start now exclude).ReadOnly := by
  rw [assertOnOffer]
  refine (readOnly_query _).bind fun found => (readOnly_rowOr _ _).bind
    fun shop => (readOnly_ofExcept _).bind fun instant =>
      (readOnly_ofExcept _).bind fun localStart => ?_
  apply (readOnly_availableSlots _ _ _ _ _ _ _).bind
  intro offer
  split
  · trivial
  apply (readOnly_availableSlots _ _ _ _ _ _ _).bind
  intro ifEmpty
  split
  · exact readOnly_raise _
  · exact readOnly_raise _

/-! ## What the transactions see and commit -/

section

variable {rely guar : Database → Database → Prop}

theorem Saw.stable
    (hrely : IsRely rely) {s u v : Database} {id : Uuid} {a : Appointment}
    (h : Saw rely s id a u) (huv : rely u v) : Saw rely s id a v := by
  obtain ⟨t, hst, htu, ha⟩ := h
  exact ⟨t, hst, hrely.trans htu huv, ha⟩

theorem SawOffer.stable
    (hrely : IsRely rely) {env : Env} {s u v : Database} {barber : Barber}
    {service : Service} {start now : ℤ} {exclude : Option Uuid}
    (h : SawOffer rely env s barber service start now exclude u)
    (huv : rely u v) :
    SawOffer rely env s barber service start now exclude v := by
  obtain ⟨t, c, a, b, hst, htc, hca, hab, hbu, hoffer⟩ := h
  exact ⟨t, c, a, b, hst, htc, hca, hab, hrely.trans hbu huv, hoffer⟩

theorem SawOffer.since
    (hrely : IsRely rely) {env : Env} {r s u : Database} {barber : Barber}
    {service : Service} {start now : ℤ} {exclude : Option Uuid}
    (h : SawOffer rely env s barber service start now exclude u)
    (hrs : rely r s) :
    SawOffer rely env r barber service start now exclude u := by
  obtain ⟨t, c, a, b, hst, hoffer⟩ := h
  exact ⟨t, c, a, b, hrely.trans hrs hst, hoffer⟩

theorem SawOffer.since_begun
    (hrely : IsRely rely) {env : Env} {s u : Database} {barber : Barber}
    {service : Service} {start now : ℤ} {exclude : Option Uuid}
    (h : SawOffer rely env s barber service start now exclude u) :
    rely s u := by
  obtain ⟨t, c, a, b, hst, htc, hca, hab, hbu, -⟩ := h
  exact hrely.trans hst (hrely.trans htc (hrely.trans hca (hrely.trans hab hbu)))

/-- What the transaction, begun at `s`, has found out about its caller. -/
structure Entitled (rely : Database → Database → Prop) (s : Database)
    (user : User) (a : Appointment) (isStaff : Bool) (u : Database) : Prop where
  participant : isStaff = true ∨ a.customerId = user.id
  staff : isStaff = true → user.role = .admin ∨
    ∃ t barber, rely s t ∧ rely t u ∧ t.barber? a.barberId = some barber ∧
      (barber.userId = user.id ∨ ∃ v shop, rely t v ∧ rely v u ∧
        v.barbershop? barber.shopId = some shop ∧ shop.ownerId = user.id)

theorem Entitled.stable
    (hrely : IsRely rely) {s u v : Database} {user : User} {a : Appointment}
    {isStaff : Bool} (h : Entitled rely s user a isStaff u) (huv : rely u v) :
    Entitled rely s user a isStaff v := by
  refine ⟨h.participant, fun hstaff => (h.staff hstaff).imp_right ?_⟩
  rintro ⟨t, barber, hst, htu, hbarber, hrole⟩
  refine ⟨t, barber, hst, hrely.trans htu huv, hbarber, hrole.imp_right ?_⟩
  rintro ⟨w, shop, htw, hwu, hshop, howner⟩
  exact ⟨w, shop, htw, hrely.trans hwu huv, hshop, howner⟩

/-- The row a transaction of the user has loaded, and the caller's role. -/
structure Loaded (rely : Database → Database → Prop) (s : Database)
    (user : User) (id : Uuid) (a : Appointment) (isStaff : Bool)
    (u : Database) : Prop where
  saw : Saw rely s id a u
  entitled : Entitled rely s user a isStaff u

theorem Loaded.stable
    (hrely : IsRely rely) {s u v : Database} {user : User} {id : Uuid}
    {a : Appointment} {isStaff : Bool}
    (h : Loaded rely s user id a isStaff u) (huv : rely u v) :
    Loaded rely s user id a isStaff v :=
  ⟨h.saw.stable hrely huv, h.entitled.stable hrely huv⟩

/-- The role of the caller, from the row of the barber loaded at `t`. -/
theorem learns_isStaffFor
    (hrely : IsRely rely) (user : User) {loaded : LoadedAppointment}
    {t : Database} (u : Database) (htu : rely t u)
    (hbarber : loaded.barber = t.barber? loaded.appointment.barberId) :
    (isStaffFor user loaded).Learns rely guar
      (fun isStaff v => rely t v ∧ (isStaff = true → user.role = .admin ∨
        ∃ barber, t.barber? loaded.appointment.barberId = some barber ∧
          (barber.userId = user.id ∨ ∃ w shop, rely t w ∧ rely w v ∧
            w.barbershop? barber.shopId = some shop ∧
            shop.ownerId = user.id))) u := by
  rw [isStaffFor]
  split
  next hadmin =>
    exact learns_done fun _ v _ huv =>
      ⟨hrely.trans htu huv, fun _ => Or.inl hadmin⟩
  · apply Learns.bind hrely (learns_rowOr (Q := fun barber v =>
      rely t v ∧ t.barber? loaded.appointment.barberId = some barber)
        fun barber v hrow huv => ⟨hrely.trans htu huv, hbarber ▸ hrow⟩)
    rintro barber v ⟨htv, hrow⟩
    split
    next hself =>
      exact learns_done fun _ w _ hvw =>
        ⟨hrely.trans htv hvw, fun _ => Or.inr ⟨barber, hrow, Or.inl hself⟩⟩
    · apply Learns.bind hrely (learns_query (Q := fun shop x =>
        ∃ w, rely t w ∧ rely w x ∧ shop = w.barbershop? barber.shopId)
          fun w x hvw hwx => ⟨w, hrely.trans htv hvw, hwx, rfl⟩)
      rintro shop x ⟨w, htw, hwx, hshop⟩
      refine learns_done fun isStaff y heq hxy =>
        ⟨hrely.trans htw (hrely.trans hwx hxy), fun hstaff => Or.inr ?_⟩
      obtain rfl := Except.ok.inj heq
      obtain ⟨row, rfl, howner⟩ := (Option.any_eq_true _ _).mp hstaff
      exact ⟨barber, hrow, Or.inr ⟨w, row, htw, hrely.trans hwx hxy,
        hshop.symm, by simpa using howner⟩⟩

theorem learns_loadForAction
    (hrely : IsRely rely) (user : User) (id : Uuid) (s : Database) :
    (loadForAction user id).Learns rely guar
      (fun p u => Loaded rely s user id p.1.appointment p.2 u) s := by
  rw [loadForAction, load]
  refine Learns.bind hrely (Q := fun loaded u => ∃ t, rely s t ∧ rely t u ∧
    t.loadedAppointment? id = some loaded) ?_ ?_
  · apply Learns.bind hrely (learns_query (Q := fun found u =>
      ∃ t, rely s t ∧ rely t u ∧ found = t.loadedAppointment? id)
        fun t u hst htu => ⟨t, hst, htu, rfl⟩)
    rintro found u ⟨t, hst, htu, hfound⟩
    exact learns_rowOr fun loaded v hl huv =>
      ⟨t, hst, hrely.trans htu huv, hfound.symm.trans hl⟩
  · rintro loaded u ⟨t, hst, htu, hloaded⟩
    have hsaw : ∀ v, rely t v → Saw rely s id loaded.appointment v :=
      fun v htv => ⟨t, hst, htv, Database.loadedAppointment?_appointment hloaded⟩
    apply Learns.bind hrely (learns_isStaffFor hrely user u htu
      (Database.loadedAppointment?_barber hloaded))
    rintro isStaff v ⟨htv, hstaff⟩
    apply Learns.bind hrely (learns_require (Q := fun _ w => rely v w ∧
      (isStaff = true ∨ loaded.appointment.customerId = user.id))
        fun w h hvw => ⟨hvw, h⟩)
    rintro _ w ⟨hvw, hparticipant⟩
    apply learns_done
    intro p x hp hwx
    obtain rfl := Except.ok.inj hp
    have hvx := hrely.trans hvw hwx
    refine ⟨hsaw x (hrely.trans htv hvx), hparticipant, ?_⟩
    intro h
    apply (hstaff h).imp_right
    rintro ⟨barber, hbarber, hrole⟩
    refine ⟨t, barber, hst, hrely.trans htv hvx, hbarber, hrole.imp_right ?_⟩
    rintro ⟨y, shop, hty, hyv, hshop, howner⟩
    exact ⟨y, shop, hty, hrely.trans hyv hvx, hshop, howner⟩

/-- Arithmetic that stays in the calendar. -/
theorem learns_representable
    (hrely : IsRely rely) (x : ℤ) {s t : Database} (hst : rely s t) :
    (ofExcept (representable x)).Learns rely guar
      (fun y u => y = x ∧ rely s u) t :=
  learns_ofExcept hrely (fun _ hy => (representable_eq_ok_iff.mp hy).2.symm) hst

theorem learns_add
    (hrely : IsRely rely) (x : AwareDatetime) (duration : ℤ) {s t : Database}
    (hst : rely s t) :
    (ofExcept (x.add duration)).Learns rely guar
      (fun y u => y.instant = x.instant + duration ∧ rely s u) t :=
  learns_ofExcept hrely (fun _ hy => (AwareDatetime.add_eq_ok hy).2) hst

theorem learns_bindParam
    (hrely : IsRely rely) (x : ℤ) {s t : Database} (hst : rely s t) :
    (ofExcept (bindParam x)).Learns rely guar
      (fun y u => x = y ∧ rely s u) t :=
  learns_ofExcept hrely (fun _ => bindParam_eq_ok) hst

/-- The check against the offer passes only when the start was seen on
offer. -/
theorem learns_assertOnOffer
    (hrely : IsRely rely) (hdir : ∀ a b, rely a b → a.SameDirectory b)
    (env : Env) {barber : Barber} {service : Service} (start : AwareDatetime)
    (now : ℤ) (exclude : Option Uuid) {s : Database}
    (hbarber : s.barber? barber.id = some barber)
    (hservice : s.service? service.id = some service) :
    (assertOnOffer env barber service start now exclude).Learns rely guar
      (fun _ u => SawOffer rely env s barber service start.instant now exclude
        u) s := by
  rw [assertOnOffer]
  refine Learns.bind hrely (learns_query (Q := fun found u =>
    rely s u ∧ found = s.barbershop? barber.shopId)
      fun t u hst htu => ⟨hrely.trans hst htu, ?_⟩) ?_
  · rw [(hdir s t hst).barbershop?]
  intro found t₁ h₁
  obtain ⟨hst₁, rfl⟩ := h₁
  apply Learns.bind hrely (learns_rowOr (Q := fun shop u =>
    rely s u ∧ s.barbershop? barber.shopId = some shop)
      fun shop u hshop hu => ⟨hrely.trans hst₁ hu, hshop⟩)
  intro shop t₂ h₂
  obtain ⟨hst₂, hshop⟩ := h₂
  apply Learns.bind hrely (learns_representable hrely start.instant hst₂)
  intro x t₃ h₃
  obtain ⟨rfl, hst₃⟩ := h₃
  apply Learns.bind hrely (learns_representable hrely
    ((env.shopTimezone shop).toWall start.instant) hst₃)
  intro w t h₄
  obtain ⟨rfl, hst⟩ := h₄
  have hday : dateOf ((env.shopTimezone shop).toWall start.instant) =
      localDate (env.shopTimezone shop) start.instant := rfl
  dsimp only
  rw [hday]
  refine Ensures.bind hrely
    ((availableSlots_ensures hdir hrely env barber.id _ service.id now
      exclude false t).mono (fun _ _ h => h) ?_)
  rintro r u ⟨c, a, b, htc, hca, hab, hbu, rfl⟩
  cases hanswer : ((availableSlots env barber.id
      (localDate (env.shopTimezone shop) start.instant) service.id now exclude
      false).run (t.seenAs c a b)).1 with
  | error e => exact fun y hy => by simp at hy
  | ok offer =>
      dsimp only
      split
      next hoffers =>
        apply learns_done
        intro _ v _ huv
        obtain ⟨barber', shop', service', hans⟩ := answers_of_run
          (Prod.ext hanswer rfl)
        have hdirt := hdir s t hst
        have hsells := (t.sameDirectory_seenAs c a b).symm.sells_iff.mp
          hans.sells
        -- the rows behind the offer are the ones resolved before
        obtain rfl : barber' = barber := by
          have h := hsells.barber_eq
          rw [← hdirt.barber?, hbarber] at h
          exact (Option.some.inj h).symm
        obtain rfl : service' = service := by
          have h := hsells.service_eq
          rw [← hdirt.service?, hservice] at h
          exact (Option.some.inj h).symm
        obtain rfl : shop' = shop := by
          have h := hsells.shop_eq
          rw [← hdirt.barbershop?, hshop] at h
          exact (Option.some.inj h).symm
        exact ⟨t, c, a, b, hst, htc, hca, hab, hrely.trans hbu huv, shop',
          hsells, (hans.starts_iff start.instant).mp hoffers⟩
      next hmissing =>
        -- both refusals answer an error
        refine Ensures.bind hrely
          ((availableSlots_ensures hdir hrely env barber.id _ service.id now
            none true u).mono (fun _ _ h => h) ?_)
        rintro r' v -
        cases r' with
        | error e => exact fun y hy => by simp at hy
        | ok ifEmpty =>
            dsimp only
            split
            · exact learns_done fun _ _ h => by simp at h
            · exact learns_done fun _ _ h => by simp at h

theorem learns_resolveBarberAndService
    (hrely : IsRely rely) (hdir : ∀ a b, rely a b → a.SameDirectory b)
    (barberId serviceId : Uuid) (s : Database) :
    (resolveBarberAndService barberId serviceId).Learns rely guar
      (fun p u => s.Resolves barberId serviceId p.1 p.2 ∧ rely s u) s := by
  have hrespects := respects_resolveBarberAndService barberId serviceId
  apply (hrespects.learns hrely hdir).mono
  rintro ⟨barber, service⟩ u ⟨hrun, hu⟩
  have hstate := hrespects.readOnly.run_state s
  exact ⟨(run_resolveBarberAndService_eq_ok_iff.mp
    (Prod.ext hrun hstate)).1, hu⟩

/-- What `_commit_or_slot_taken` makes of a flush. -/
def orSlotTaken (w : Database → Except Raised Database) (db : Database) :
    Except Raised Database :=
  match w db with
  | .error (.integrityError .exclusion) => .error slotTaken
  | result => result

theorem commitOrSlotTaken_eq (w : Database → Except Raised Database) :
    commitOrSlotTaken w = write (orSlotTaken w) := rfl

theorem orSlotTaken_eq_ok_iff
    {w : Database → Except Raised Database} {db db' : Database} :
    orSlotTaken w db = .ok db' ↔ w db = .ok db' := by
  rw [orSlotTaken]
  split
  next hrefused => simp [hrefused]
  · rfl

/-- A refusal by the exclusion constraint is reported as a taken slot, any
other as it is. -/
theorem orSlotTaken_eq_error
    {w : Database → Except Raised Database} {db : Database} {e : Raised}
    (h : orSlotTaken w db = .error e) :
    e = slotTaken ∨ (w db = .error e ∧ e ≠ .integrityError .exclusion) := by
  rw [orSlotTaken] at h
  split at h
  · exact Or.inl (Except.error.inj h).symm
  next hother =>
    refine Or.inr ⟨h, ?_⟩
    rintro rfl
    exact hother h

/-- The check of the status is passed by the statuses it allows. -/
theorem learns_requireStatus
    {a : Appointment} {allowed : AppointmentStatus → Bool} {refusal : String}
    {P : Database → Prop} {s : Database}
    (hP : ∀ t u, P t → rely t u → P u) (hs : P s) :
    (requireStatus a allowed refusal).Learns rely guar
      (fun _ u => allowed a.status = true ∧ P u) s :=
  learns_require fun u h hsu => ⟨h, hP s u hs hsu⟩

/-- The cutoff is passed by staff, and by customers who are early enough. -/
theorem learns_assertWithinCutoff
    (hrely : IsRely rely) {env : Env} {a : Appointment} {now : ℤ}
    {isStaff : Bool} {P : Database → Prop} {s : Database}
    (hP : ∀ t u, P t → rely t u → P u) (hs : P s) :
    (assertWithinCutoff env a now isStaff).Learns rely guar
      (fun _ u => env.InTime a now isStaff ∧ P u) s := by
  rw [assertWithinCutoff]
  split
  next hstaff =>
    exact learns_done fun _ u _ hsu => ⟨Or.inl hstaff, hP s u hs hsu⟩
  · apply Learns.bind hrely (learns_representable hrely _ (hrely.refl s))
    intro cutoff t h
    obtain ⟨rfl, hst⟩ := h
    exact learns_require fun u hnow htu =>
      ⟨Or.inr hnow, hP t u (hP s t hs hst) htu⟩

/-! ## What the transactions commit -/

section

variable {K : (Database → Except Raised Database) → Database → Prop}

/-- `create_appointment` inserts a row for a start it saw on offer. -/
theorem atCommits_createTransaction
    (hrely : IsRely rely) (hdir : ∀ a b, rely a b → a.SameDirectory b)
    {env : Env} {customer : User} {payload : AppointmentCreate} {now : ℤ}
    {id : Uuid} {createdAt : ℤ} {s : Database}
    (hcommit : ∀ barber service u,
      s.Resolves payload.barberId payload.serviceId barber service →
      SawOffer rely env s barber service payload.startTime.instant now none
        u →
      K (orSlotTaken (insertAppointment env (newAppointment customer barber
        (s.barbershop? barber.shopId) service payload.startTime.instant
        (payload.startTime.instant + service.duration) id createdAt))) u) :
    (createTransaction env customer payload now id createdAt).AtCommits rely K
      s := by
  rw [createTransaction]
  apply AtCommits.after hrely (respects_resolveBarberAndService _ _).readOnly
    (learns_resolveBarberAndService hrely hdir _ _ s)
  rintro ⟨barber, service⟩ t h
  obtain ⟨hres, hst⟩ := h
  refine AtCommits.after hrely (readOnly_query _) (learns_query (Q := fun shop u =>
    shop = s.barbershop? barber.shopId ∧ rely s u)
      fun u v htu huv => ⟨?_, hrely.trans hst (hrely.trans htu huv)⟩) ?_
  · rw [(hdir s u (hrely.trans hst htu)).barbershop?]
  intro shop u h
  obtain ⟨rfl, hsu⟩ := h
  apply AtCommits.after hrely (readOnly_ofExcept _) (learns_add hrely
    payload.startTime service.duration hsu)
  intro stop v h
  obtain ⟨hstop, hsv⟩ := h
  have hbarber : v.barber? barber.id = some barber := by
    rw [← (hdir s v hsv).barber?]
    exact hres.barber_self
  have hservice : v.service? service.id = some service := by
    rw [← (hdir s v hsv).service?]
    exact hres.service_self
  apply AtCommits.after hrely (readOnly_assertOnOffer _ _ _ _ _ _)
    (learns_assertOnOffer hrely hdir env payload.startTime now none hbarber
      hservice)
  intro _ x hoffer
  apply AtCommits.after hrely (readOnly_ofExcept _)
    (learns_bindParam hrely payload.startTime.instant (hrely.refl x))
  intro startTime y h
  obtain ⟨rfl, hxy⟩ := h
  apply AtCommits.after hrely (readOnly_ofExcept _)
    (learns_bindParam hrely stop.instant hxy)
  intro endTime z h
  obtain ⟨rfl, hxz⟩ := h
  rw [commitOrSlotTaken_eq, hstop]
  apply atCommits_write
  intro w hzw
  exact hcommit barber service w hres
    ((hoffer.stable hrely (hrely.trans hxz hzw)).since hrely hsv)

theorem atCommits_loadForAction_bind
    (hrely : IsRely rely) {user : User} {id : Uuid} {s : Database} {α : Type}
    {f : LoadedAppointment × Bool → Request α}
    (hf : ∀ loaded isStaff t, Loaded rely s user id loaded.appointment isStaff t →
      (f (loaded, isStaff)).AtCommits rely K t) :
    (loadForAction user id >>= f).AtCommits rely K s := by
  apply AtCommits.after hrely (readOnly_loadForAction user id)
    (learns_loadForAction hrely user id s)
  rintro ⟨loaded, isStaff⟩ t h
  exact hf loaded isStaff t h

/-- What follows a check is done with it passed, and with what was loaded. -/
theorem atCommits_require_bind
    (hrely : IsRely rely) {user : User} {id : Uuid} {a : Appointment}
    {isStaff : Bool} {s t : Database} (h : Loaded rely s user id a isStaff t)
    {p : Prop} [Decidable p] {e : Raised} {α : Type} {f : Unit → Request α}
    (hf : ∀ u, p → Loaded rely s user id a isStaff u →
      (f ()).AtCommits rely K u) :
    (require p e >>= f).AtCommits rely K t := by
  apply AtCommits.after hrely (readOnly_require _ _)
    (learns_require (Q := fun _ u => p ∧ Loaded rely s user id a isStaff u)
      fun u hp htu => ⟨hp, h.stable hrely htu⟩)
  rintro _ u ⟨hp, hu⟩
  exact hf u hp hu

/-- `cancel_appointment` cancels a row it saw active. -/
theorem atCommits_cancelTransaction
    (hrely : IsRely rely) {env : Env} {user : User} {id : Uuid}
    {reason : Option String} {now : ℤ} {s : Database}
    (hcommit : ∀ a isStaff u, Saw rely s id a u →
      Entitled rely s user a isStaff u → a.status.blocksSlot = true →
      env.InTime a now isStaff →
      K (updateAppointment env id (.ofChange a
        { a with
          status := .cancelled
          cancelledById := some user.id
          cancellationReason := reason })) u) :
    (cancelTransaction env user id reason now).AtCommits rely K s := by
  rw [cancelTransaction]
  apply atCommits_loadForAction_bind hrely
  intro loaded isStaff t h
  apply atCommits_require_bind hrely h
  intro u hactive h
  apply AtCommits.after hrely (readOnly_assertWithinCutoff env _ now isStaff)
    (learns_assertWithinCutoff hrely (fun _ _ h => h.stable hrely) h)
  rintro _ v ⟨hintime, h⟩
  apply atCommits_write
  intro w hvw
  obtain ⟨hsaw, hentitled⟩ := h.stable hrely hvw
  exact hcommit _ isStaff w hsaw hentitled hactive hintime

/-- `confirm_appointment` confirms a row it saw pending. -/
theorem atCommits_confirmTransaction
    (hrely : IsRely rely) {env : Env} {user : User} {id : Uuid} {s : Database}
    (hcommit : ∀ a u, Saw rely s id a u → Entitled rely s user a true u →
      a.status = .pending →
      K (updateAppointment env id (.ofChange a
        { a with status := .confirmed })) u) :
    (confirmTransaction env user id).AtCommits rely K s := by
  rw [confirmTransaction]
  apply atCommits_loadForAction_bind hrely
  intro loaded isStaff t h
  apply atCommits_require_bind hrely h
  intro u hstaff h
  subst hstaff
  apply atCommits_require_bind hrely h
  intro v hpending h
  apply atCommits_write
  intro w hvw
  obtain ⟨hsaw, hentitled⟩ := h.stable hrely hvw
  exact hcommit _ w hsaw hentitled (by simpa using hpending)

/-- `_close_out` closes out a row it saw active and started. -/
theorem atCommits_closeOutTransaction
    (hrely : IsRely rely) {env : Env} {user : User} {id : Uuid}
    {target : AppointmentStatus} {now : ℤ} {s : Database}
    (hcommit : ∀ a u, Saw rely s id a u → Entitled rely s user a true u →
      a.status.blocksSlot = true → a.startTime ≤ now →
      K (updateAppointment env id (.ofChange a { a with status := target }))
        u) :
    (closeOutTransaction env user id target now).AtCommits rely K s := by
  rw [closeOutTransaction]
  apply atCommits_loadForAction_bind hrely
  intro loaded isStaff t h
  apply atCommits_require_bind hrely h
  intro u hstaff h
  subst hstaff
  apply atCommits_require_bind hrely h
  intro v hactive h
  apply atCommits_require_bind hrely h
  intro w hstarted h
  apply atCommits_write
  intro x hwx
  obtain ⟨hsaw, hentitled⟩ := h.stable hrely hwx
  exact hcommit _ x hsaw hentitled hactive hstarted

/-- `reschedule_appointment` moves a row it saw active to a start it saw on
offer for that row. -/
theorem atCommits_rescheduleTransaction
    (hrely : IsRely rely) (hdir : ∀ a b, rely a b → a.SameDirectory b)
    {env : Env} {user : User} {id : Uuid} {newStart : AwareDatetime} {now : ℤ}
    {s : Database}
    (hcommit : ∀ a isStaff barber service t u, rely s t → rely t u →
      t.appointment? id = some a → Entitled rely s user a isStaff u →
      a.status.blocksSlot = true → env.InTime a now isStaff →
      t.Resolves a.barberId a.serviceId barber service →
      SawOffer rely env t barber service newStart.instant now (some a.id) u →
      K (orSlotTaken (updateAppointment env id (.ofChange a
        { a with
          startTime := newStart.instant
          endTime := newStart.instant + service.duration }))) u) :
    (rescheduleTransaction env user id newStart now).AtCommits rely K s := by
  rw [rescheduleTransaction]
  apply atCommits_loadForAction_bind hrely
  intro loaded isStaff t h
  apply atCommits_require_bind hrely h
  intro u hactive h
  apply AtCommits.after hrely (readOnly_assertWithinCutoff env _ now isStaff)
    (learns_assertWithinCutoff hrely (fun _ _ h => h.stable hrely) h)
  rintro _ v ⟨hintime, h⟩
  apply AtCommits.after hrely (respects_resolveBarberAndService _ _).readOnly
    (learns_resolveBarberAndService hrely hdir _ _ v)
  rintro ⟨barber, service⟩ w ⟨hres, hvw⟩
  obtain ⟨⟨r, hsr, hrv, hrow⟩, hentitled⟩ := h
  have hbarber : w.barber? barber.id = some barber := by
    rw [← (hdir v w hvw).barber?]
    exact hres.barber_self
  have hservice : w.service? service.id = some service := by
    rw [← (hdir v w hvw).service?]
    exact hres.service_self
  apply AtCommits.after hrely (readOnly_assertOnOffer _ _ _ _ _ _)
    (learns_assertOnOffer hrely hdir env newStart now
      (some loaded.appointment.id) hbarber hservice)
  intro _ x hoffer
  apply AtCommits.after hrely (readOnly_ofExcept _)
    (learns_add hrely newStart service.duration (hrely.refl x))
  intro newEnd y₁ h
  obtain ⟨hend, hxy₁⟩ := h
  apply AtCommits.after hrely (readOnly_ofExcept _)
    (learns_bindParam hrely newStart.instant hxy₁)
  intro startTime y₂ h
  obtain ⟨rfl, hxy₂⟩ := h
  apply AtCommits.after hrely (readOnly_ofExcept _)
    (learns_bindParam hrely newEnd.instant hxy₂)
  intro endTime y h
  obtain ⟨rfl, hxy⟩ := h
  rw [commitOrSlotTaken_eq, hend]
  apply atCommits_write
  intro z hyz
  have hwx := hoffer.since_begun hrely
  have hxz := hrely.trans hxy hyz
  have hrw := hrely.trans hrv hvw
  have hvz := hrely.trans hvw (hrely.trans hwx hxz)
  exact hcommit loaded.appointment isStaff barber service r z hsr
    (hrely.trans hrv hvz) hrow (hentitled.stable hrely hvz) hactive hintime
    (hres.of_sameDirectory (hdir r v hrv).symm)
    ((hoffer.stable hrely hxz).since hrely hrw)

/-- `expire_stale_pending` expires rows it saw pending, and old enough. -/
theorem atCommits_expireStalePending
    (hrely : IsRely rely) {env : Env} {now : ℤ} {s : Database}
    (hcommit : ∀ (stale : List Appointment) t u, rely s t → rely t u →
      (∀ a ∈ stale, a ∈ t.appointments ∧ a.status = .pending ∧
        a.createdAt < now - minutes 30) →
      K (fun db => stale.foldlM
        (fun db a => updateAppointment env a.id (expiry a) db) db) u) :
    (expireStalePending env now).AtCommits rely K s := by
  rw [expireStalePending]
  apply AtCommits.after hrely (readOnly_ofExcept _) (learns_representable hrely
    (now - minutes 30) (hrely.refl s))
  intro cutoff t h
  obtain ⟨rfl, hst⟩ := h
  refine AtCommits.after hrely (readOnly_query _) (learns_query (Q := fun stale v =>
    ∃ u, rely s u ∧ rely u v ∧ ∀ a ∈ stale, a ∈ u.appointments ∧
      a.status = .pending ∧ a.createdAt < now - minutes 30)
        fun u v htu huv => ⟨u, hrely.trans hst htu, huv, fun _ ha =>
          Database.mem_stalePending.mp ha⟩) ?_
  rintro stale v ⟨u, hsu, huv, hstale⟩
  refine AtCommits.before (atCommits_write ?_) fun _ t => atCommits_done _ t
  intro w hvw
  exact hcommit stale u w hsu (hrely.trans huv hvw) hstale

end

/-! ## What the transactions commit when they succeed -/

theorem learns_createTransaction
    (hrely : IsRely rely) (hdir : ∀ a b, rely a b → a.SameDirectory b)
    {env : Env} {customer : User} {payload : AppointmentCreate} {now : ℤ}
    {id : Uuid} {createdAt : ℤ} {s : Database}
    (hcommit : ∀ barber service u u',
      s.Resolves payload.barberId payload.serviceId barber service →
      SawOffer rely env s barber service payload.startTime.instant now none
        u →
      insertAppointment env (newAppointment customer barber
        (s.barbershop? barber.shopId) service payload.startTime.instant
        (payload.startTime.instant + service.duration) id createdAt) u =
          .ok u' →
      guar u u') :
    (createTransaction env customer payload now id createdAt).Learns rely guar
      (fun _ _ => True) s :=
  AtCommits.learns (atCommits_createTransaction hrely hdir
    fun barber service u hres hoffer u' hw =>
      hcommit barber service u u' hres hoffer (orSlotTaken_eq_ok_iff.mp hw))

theorem learns_cancelTransaction
    (hrely : IsRely rely) {env : Env} {user : User} {id : Uuid}
    {reason : Option String} {now : ℤ} {s : Database}
    (hcommit : ∀ a u u', Saw rely s id a u → a.status.blocksSlot = true →
      updateAppointment env id (.ofChange a
        { a with
          status := .cancelled
          cancelledById := some user.id
          cancellationReason := reason }) u = .ok u' → guar u u') :
    (cancelTransaction env user id reason now).Learns rely guar
      (fun _ _ => True) s :=
  AtCommits.learns (atCommits_cancelTransaction hrely
    fun a _ u hsaw _ hactive _ u' hw => hcommit a u u' hsaw hactive hw)

theorem learns_confirmTransaction
    (hrely : IsRely rely) {env : Env} {user : User} {id : Uuid} {s : Database}
    (hcommit : ∀ a u u', Saw rely s id a u → a.status = .pending →
      updateAppointment env id (.ofChange a
        { a with status := .confirmed }) u = .ok u' → guar u u') :
    (confirmTransaction env user id).Learns rely guar
      (fun _ _ => True) s :=
  AtCommits.learns (atCommits_confirmTransaction hrely
    fun a u hsaw _ hpending u' hw => hcommit a u u' hsaw hpending hw)

theorem learns_closeOutTransaction
    (hrely : IsRely rely) {env : Env} {user : User} {id : Uuid}
    {target : AppointmentStatus} {now : ℤ} {s : Database}
    (hcommit : ∀ a u u', Saw rely s id a u → a.status.blocksSlot = true →
      a.startTime ≤ now →
      updateAppointment env id (.ofChange a
        { a with status := target }) u = .ok u' → guar u u') :
    (closeOutTransaction env user id target now).Learns rely guar
      (fun _ _ => True) s :=
  AtCommits.learns (atCommits_closeOutTransaction hrely
    fun a u hsaw _ hactive hstarted u' hw =>
      hcommit a u u' hsaw hactive hstarted hw)

theorem learns_rescheduleTransaction
    (hrely : IsRely rely) (hdir : ∀ a b, rely a b → a.SameDirectory b)
    {env : Env} {user : User} {id : Uuid} {newStart : AwareDatetime} {now : ℤ}
    {s : Database}
    (hcommit : ∀ a barber service t u u', rely s t → rely t u →
      t.appointment? id = some a → a.status.blocksSlot = true →
      t.Resolves a.barberId a.serviceId barber service →
      SawOffer rely env t barber service newStart.instant now (some a.id) u →
      updateAppointment env id (.ofChange a
        { a with
          startTime := newStart.instant
          endTime := newStart.instant + service.duration }) u = .ok u' →
      guar u u') :
    (rescheduleTransaction env user id newStart now).Learns rely guar
      (fun _ _ => True) s :=
  AtCommits.learns (atCommits_rescheduleTransaction hrely hdir
    fun a _ barber service t u hst htu hrow _ hactive _ hres hoffer u' hw =>
      hcommit a barber service t u u' hst htu hrow hactive hres hoffer
        (orSlotTaken_eq_ok_iff.mp hw))

theorem learns_expireStalePending
    (hrely : IsRely rely) {env : Env} {now : ℤ} {s : Database}
    (hcommit : ∀ (stale : List Appointment) t u u', rely s t → rely t u →
      (∀ a ∈ stale, a ∈ t.appointments ∧ a.status = .pending) →
      stale.foldlM (fun db a => updateAppointment env a.id (expiry a) db) u =
        .ok u' → guar u u') :
    (expireStalePending env now).Learns rely guar (fun _ _ => True) s :=
  AtCommits.learns (atCommits_expireStalePending hrely
    fun stale t u hst htu hstale u' hw => hcommit stale t u u' hst htu
      (fun a ha => ⟨(hstale a ha).1, (hstale a ha).2.1⟩) hw)

end

end BarberHub
