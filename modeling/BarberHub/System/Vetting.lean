import BarberHub.System.Sequential

/-!
# Shops that vet their bookings

At a shop that vets its bookings a booking waits until the staff confirm it.
Moving a booking leaves its status, so a customer who moves a confirmed booking
keeps it confirmed at a time the staff have not seen.  As long as customers move
confirmed bookings only to times the staff have agreed to, every confirmed
booking is at such a time.
-/

namespace BarberHub

open KeyedTable ReadCommitted Program Database

/-- The work, executed in `s`, is a request in which staff agree to the start of
an appointment: they confirm it as it is, or move it there. -/
def Work.Agrees (env : Env) (s : Database) (id : Uuid) (start : ℤ) : Work → Prop
  | .booking (.confirm user confirmed) =>
      confirmed = id ∧ (BookingOp.confirm user confirmed).Accepted env s ∧
        ∃ a, s.appointment? id = some a ∧ a.startTime = start
  | .booking (.reschedule user moved newStart now) =>
      moved = id ∧ newStart.instant = start ∧
        (BookingOp.reschedule user moved newStart now).Accepted env s ∧
        ∃ a, s.appointment? id = some a ∧ s.StaffFor user a
  | _ => False

/-- Staff have agreed to the start of the appointment in the run. -/
def Agreed (env : Env) (db : Database) (works : List Work) (id : Uuid)
    (start : ℤ) : Prop :=
  ∃ first work, first ++ [work] <+: works ∧
    work.Agrees env (workRun env db first) id start

/-- In every state of the run, every CONFIRMED appointment of the shop is at a
start that staff have agreed to. -/
def ConfirmedByStaff (env : Env) (db : Database) (shopId : Uuid)
    (works : List Work) : Prop :=
  ∀ first, first <+: works → ∀ id a,
    (workRun env db first).appointment? id = some a →
    (workRun env db first).AtShop shopId a = true → a.status = .confirmed →
      Agreed env db first id a.startTime

/-- The shop vets its bookings throughout the run. -/
def Vets (env : Env) (db : Database) (shopId : Uuid) (works : List Work) :
    Prop :=
  ∀ first, first <+: works → ∀ shop,
    (workRun env db first).barbershop? shopId = some shop →
      shop.requiresConfirmation = true

/-- Whoever moves a CONFIRMED appointment of the shop is staff, or moves it to a
start that staff have agreed to.  Moves that are refused do not count. -/
def MovesAgreed (env : Env) (db : Database) (shopId : Uuid)
    (works : List Work) : Prop :=
  ∀ first user id newStart now,
    first ++ [.booking (.reschedule user id newStart now)] <+: works →
    (BookingOp.reschedule user id newStart now).Accepted env
      (workRun env db first) → ∀ a,
    (workRun env db first).appointment? id = some a →
    (workRun env db first).AtShop shopId a = true → a.status = .confirmed →
      (workRun env db first).StaffFor user a ∨
        Agreed env db first id newStart.instant

/-! ## Histories -/

section

variable {env : Env} {db : Database} {first : List Work} {work : Work}
  {id : Uuid} {start : ℤ}

theorem Agreed.concat (h : Agreed env db first id start) (work : Work) :
    Agreed env db (first ++ [work]) id start := by
  obtain ⟨before, agreeing, hprefix, hagrees⟩ := h
  exact ⟨before, agreeing, hprefix.trans (List.prefix_append _ _), hagrees⟩

theorem agreed_of_agrees (h : work.Agrees env (workRun env db first) id start) :
    Agreed env db (first ++ [work]) id start :=
  ⟨first, work, List.prefix_refl _, h⟩

end

/-! ## One step -/

/-- The appointment was CONFIRMED at the shop before the work, and has its start
from then, or from a customer who has moved it. -/
def WasConfirmed (env : Env) (s : Database) (work : Work) (shopId id : Uuid)
    (start : ℤ) : Prop :=
  ∃ a, s.appointment? id = some a ∧ s.AtShop shopId a = true ∧
    a.status = .confirmed ∧ (a.startTime = start ∨ ∃ user newStart now,
      newStart.instant = start ∧
        work = .booking (.reschedule user id newStart now) ∧
        (BookingOp.reschedule user id newStart now).Accepted env s ∧
        ¬ s.StaffFor user a)

section

variable {env : Env} {s s' : Database} {op : BookingOp} {shopId id : Uuid}
  {a' : Appointment}

/-- A booking leaves an appointment CONFIRMED, at a shop that vets its bookings,
only if it was CONFIRMED or staff agree to its start. -/
theorem BookingDone.confirmed_cases
    (hdone : BookingDone env s s' op) (haccepted : op.Accepted env s)
    (hvets : ∀ shop, s.barbershop? shopId = some shop →
      shop.requiresConfirmation = true)
    (ha' : s'.appointment? id = some a') (hat : s.AtShop shopId a' = true)
    (hconfirmed : a'.status = .confirmed) :
    WasConfirmed env s (.booking op) shopId id a'.startTime ∨
      (Work.booking op).Agrees env s id a'.startTime := by
  have hkept : s.appointment? id = some a' →
      WasConfirmed env s (.booking op) shopId id a'.startTime :=
    fun hrow => ⟨a', hrow, hat, hconfirmed, Or.inl rfl⟩
  cases hdone with
  | created customer payload now newId createdAt barber shop service hresolves
      hshop hinsert =>
      by_cases hid : id = newId
      · -- the new row waits for the staff
        subst hid
        obtain ⟨-, hsome⟩ := appointment?_created hinsert
        obtain rfl := Option.some.inj (ha'.symm.trans hsome)
        obtain ⟨userId, row, hrow, -, hrowShop⟩ := atShop_iff.mp hat
        obtain rfl := Option.some.inj (hresolves.barber_self.symm.trans hrow)
        rw [hrowShop] at hshop
        simp [newAppointment, hvets shop hshop] at hconfirmed
      · rw [appointment?_created_of_ne hinsert hid] at ha'
        exact Or.inl (hkept ha')
  | turned a a'' hrow hturns hupdate =>
      by_cases hid : id = a.id
      · subst hid
        have hsome := appointment?_turned hrow hturns hupdate
        obtain rfl := Option.some.inj (ha'.symm.trans hsome)
        cases hturns with
        | moved user newStart now stop hinvolved hactive =>
            by_cases hstaff : s.StaffFor user a
            · exact Or.inr ⟨rfl, rfl, haccepted, a, hrow, hstaff⟩
            · exact Or.inl ⟨a, hrow, hat, hconfirmed,
                Or.inr ⟨user, newStart, now, rfl, rfl, haccepted, hstaff⟩⟩
        | confirmed user hstaff hpending =>
            exact Or.inr ⟨rfl, haccepted, a, hrow, rfl⟩
        | cancelled | completed | missed => simp at hconfirmed
      · rw [appointment?_turned_of_ne hupdate hid] at ha'
        exact Or.inl (hkept ha')
  | expired now hupdate =>
      obtain ⟨-, hids, hrows⟩ := expired_rows id
        (fun a ha => (mem_stalePending.mp ha).2.1) hupdate
      obtain ⟨a, ha⟩ := exists_appointment?_of_ids hids.symm ha'
      obtain ⟨b, hb, hcases⟩ := hrows a ha
      obtain rfl := Option.some.inj (ha'.symm.trans hb)
      rcases hcases with rfl | ⟨hexpired, -⟩
      · exact Or.inl (hkept ha)
      · rw [hexpired.status_eq] at hconfirmed
        simp at hconfirmed

/-- The same for every work. -/
theorem workStep_confirmed_cases
    {work : Work} (hjoined : s.Joined)
    (hvets : ∀ shop, s.barbershop? shopId = some shop →
      shop.requiresConfirmation = true)
    (ha' : (workStep env s work).appointment? id = some a')
    (hat : (workStep env s work).AtShop shopId a' = true)
    (hconfirmed : a'.status = .confirmed) :
    WasConfirmed env s work shopId id a'.startTime ∨
      work.Agrees env s id a'.startTime := by
  have hsame : s.appointment? id = some a' →
      WasConfirmed env s work shopId id a'.startTime := by
    intro hrow
    rw [(workStep_persists env s work).atShop_eq hjoined (mem_of_lookup hrow)]
      at hat
    exact ⟨a', hrow, hat, hconfirmed, Or.inl rfl⟩
  rcases work.booking_or_beside with ⟨op, rfl⟩ | hwork
  · rcases bookingOp_alone env op s with ⟨-, hrefused⟩ |
      ⟨haccepted, s', hdone, hstate⟩
    · change workStep env s (.booking op) = s at hrefused
      rw [hrefused] at ha'
      exact Or.inl (hsame ha')
    · change workStep env s (.booking op) = s'.told env op.task? at hstate
      have hbarbers : (s'.told env op.task?).AtShop shopId a' =
          s.AtShop shopId a' := by
        rw [told_eq, hdone.frame]
        rfl
      rw [hstate, told_appointment?] at ha'
      rw [hstate, hbarbers] at hat
      exact hdone.confirmed_cases haccepted hvets ha' hat hconfirmed
  · rw [workStep_appointment? hwork] at ha'
    exact Or.inl (hsame ha')

end

/-! ## Whole runs -/

/-- In every run in which the shop vets its bookings and customers move
confirmed bookings only to times the staff have agreed to, every confirmed
booking of the shop is at such a time. -/
theorem confirmedByStaff_of_movesAgreed
    (env : Env) (db : Database) (shopId : Uuid) (works : List Work)
    (hvalid : db.Valid)
    (hnone : ∀ a ∈ db.appointments, db.AtShop shopId a = true →
      a.status ≠ .confirmed)
    (hvets : Vets env db shopId works)
    (hmoves : MovesAgreed env db shopId works) :
    ConfirmedByStaff env db shopId works := by
  intro first hfirst
  induction first using List.reverseRecOn with
  | nil =>
      intro id a ha hat hconfirmed
      exact absurd hconfirmed (hnone a (mem_of_lookup ha) hat)
  | append_singleton first work ih =>
      have hbefore : first <+: works := (List.prefix_append _ _).trans hfirst
      have hjoined : (workRun env db first).Joined :=
        workRun_keeps (fun _ _ _ hs h => h.joined hs) hvalid.joined first
      intro id a' ha' hat hconfirmed
      rw [workRun_concat] at ha' hat
      rcases workStep_confirmed_cases hjoined (hvets first hbefore) ha' hat
        hconfirmed with ⟨a, ha, hata, hstatus, hstart⟩ | hagrees
      · have hagreed := ih hbefore id a ha hata hstatus
        rcases hstart with hstart |
          ⟨user, newStart, now, hstart, rfl, haccepted, hcustomer⟩
        · rw [hstart] at hagreed
          exact hagreed.concat work
        · have hmove := hmoves first user id newStart now hfirst haccepted a ha
            hata hstatus
          rw [hstart] at hmove
          exact (hmove.resolve_left hcustomer).concat _
      · exact agreed_of_agrees hagrees

/-! ## The sample shop, vetting its bookings -/

/-- The customer books, the barber confirms, and the user moves the booking to
noon. -/
def bookedConfirmedMoved (user : User) : List Work :=
  [firstBooking, .booking (.confirm Sample.stylist 40),
    .booking (.reschedule user 40 (Sample.start 12 0) (Sample.clock 0 0))]

theorem vetted_valid : vettedDb.Valid := by
  decide +kernel

theorem vets_of_inits {works : List Work}
    (h : ∀ first ∈ works.inits,
      ∀ shop ∈ (workRun Sample.env vettedDb first).barbershop? 10,
        shop.requiresConfirmation = true) : Vets Sample.env vettedDb 10 works := by
  intro first hfirst shop hshop
  exact h first ((List.mem_inits _ _).mpr hfirst) shop hshop

/-- The barber moves the booking. -/
theorem confirmedByStaff_moved_by_barber :
    ConfirmedByStaff Sample.env vettedDb 10
      (bookedConfirmedMoved Sample.stylist) := by
  apply confirmedByStaff_of_movesAgreed Sample.env vettedDb 10 _ vetted_valid
  · intro a ha
    simp [vettedDb, Sample.db] at ha
  · apply vets_of_inits
    decide +kernel
  · intro first user id newStart now hfirst _ a ha _ _
    have hstaff : ∀ first ∈ (bookedConfirmedMoved Sample.stylist).inits,
        ∀ a ∈ (workRun Sample.env vettedDb first).appointment? 40,
          ∃ barber ∈ (workRun Sample.env vettedDb first).barber? a.barberId,
            barber.userId = 3 := by
      decide +kernel
    have hmem : Work.booking (.reschedule user id newStart now) ∈
        bookedConfirmedMoved Sample.stylist := hfirst.subset (by simp)
    simp only [bookedConfirmedMoved, firstBooking, List.mem_cons,
      Work.booking.injEq, reduceCtorEq, BookingOp.reschedule.injEq,
      List.not_mem_nil, or_false, false_or] at hmem
    obtain ⟨rfl, rfl, rfl, rfl⟩ := hmem
    have hinit := (List.mem_inits _ _).mpr
      ((List.prefix_append first _).trans hfirst)
    obtain ⟨barber, hbarber, huser⟩ := hstaff first hinit a ha
    exact Or.inl (Or.inr ⟨barber, hbarber, Or.inl huser⟩)

/-- The customer moves the booking, and holds it confirmed at a time nobody of
the staff has seen. -/
theorem not_confirmedByStaff_moved_by_customer :
    Vets Sample.env vettedDb 10 (bookedConfirmedMoved Sample.customer) ∧
      ¬ ConfirmedByStaff Sample.env vettedDb 10
        (bookedConfirmedMoved Sample.customer) := by
  have hvets : Vets Sample.env vettedDb 10
      (bookedConfirmedMoved Sample.customer) := by
    apply vets_of_inits
    decide +kernel
  refine ⟨hvets, ?_⟩
  intro h
  have hrow : ∃ a ∈ (workRun Sample.env vettedDb
        (bookedConfirmedMoved Sample.customer)).appointment? 40,
      (workRun Sample.env vettedDb (bookedConfirmedMoved Sample.customer)).AtShop
        10 a = true ∧ a.status = .confirmed ∧ a.startTime = Sample.clock 12 0 := by
    decide +kernel
  obtain ⟨a, ha, hat, hconfirmed, hstart⟩ := hrow
  obtain ⟨first, work, hfirst, hagrees⟩ :=
    h _ (List.prefix_refl _) 40 a ha hat hconfirmed
  have hinit := (List.mem_inits _ _).mpr
    ((List.prefix_append first _).trans hfirst)
  have hmem : work ∈ bookedConfirmedMoved Sample.customer :=
    hfirst.subset (by simp)
  simp only [bookedConfirmedMoved, List.mem_cons, List.not_mem_nil, or_false]
    at hmem
  rcases hmem with rfl | rfl | rfl
  · exact hagrees
  · -- the barber confirms the booking at nine
    have hnine : ∀ first ∈ (bookedConfirmedMoved Sample.customer).inits,
        (BookingOp.confirm Sample.stylist 40).Accepted Sample.env
          (workRun Sample.env vettedDb first) →
        ∀ b ∈ (workRun Sample.env vettedDb first).appointment? 40,
          b.startTime ≠ Sample.clock 12 0 := by
      decide +kernel
    obtain ⟨-, haccepted, b, hb, hnoon⟩ := hagrees
    exact hnine first hinit haccepted b hb (hnoon.trans hstart)
  · -- the customer is not staff
    have hnobody : ∀ first ∈ (bookedConfirmedMoved Sample.customer).inits,
        ∀ b ∈ (workRun Sample.env vettedDb first).appointment? 40,
        ∀ barber ∈ (workRun Sample.env vettedDb first).barber? b.barberId,
          barber.userId ≠ 4 ∧
            ∀ shop ∈ (workRun Sample.env vettedDb first).barbershop?
              barber.shopId, shop.ownerId ≠ 4 := by
      decide +kernel
    obtain ⟨-, -, -, b, hb, hadmin | ⟨barber, hbarber, hself | ⟨shop, hshop,
      howner⟩⟩⟩ := hagrees
    · simp [Sample.customer, Sample.account] at hadmin
    · exact (hnobody first hinit b hb barber hbarber).1 hself
    · exact (hnobody first hinit b hb barber hbarber).2 shop hshop howner

end BarberHub
