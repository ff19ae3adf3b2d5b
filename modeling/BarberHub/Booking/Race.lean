import BarberHub.Booking.Offers
import BarberHub.Booking.Exclusion
import BarberHub.Slots.Range
import BarberHub.Support.Pools

/-!
# A booking race

Any number of requests for one barber, each for a start that is on offer when
the race begins, interleaved in any order.  A request can lose at its first
read of the offer, or at its commit, and it finds out at the second read that
ignores appointments why it lost at the first.  Whichever way it loses, it is
told that the slot is taken, and it was taken by another request of the race.
-/

namespace BarberHub

open HalfOpen KeyedTable ReadCommitted Program Pool

/-- One request of the race. -/
structure BookingRequest where
  customer : User
  serviceId : Uuid
  startTime : AwareDatetime
  now : ℤ
  id : Uuid
  createdAt : ℤ
  deriving DecidableEq, Repr

namespace BookingRequest

def payload (r : BookingRequest) (barberId : Uuid) : AppointmentCreate where
  barberId := barberId
  serviceId := r.serviceId
  startTime := r.startTime

/-- The request up to its commit. -/
def program (r : BookingRequest) (env : Env) (barberId : Uuid) :
    Request Unit :=
  createTransaction env r.customer (r.payload barberId) r.now r.id r.createdAt

/-- The row the request adds when it is accepted. -/
def row (r : BookingRequest) (db : Database) (barberId : Uuid) :
    Option Appointment := do
  let barber ← db.barber? barberId
  let service ← db.service? r.serviceId
  some (newAppointment r.customer barber (db.barbershop? barber.shopId) service
    r.startTime.instant (r.startTime.instant + service.duration) r.id
    r.createdAt)

end BookingRequest

variable {ι : Type} [DecidableEq ι]

/-- The requests before any has begun. -/
def racePool (env : Env) (barberId : Uuid) (requests : ι → BookingRequest)
    (db : Database) : Pool ι Database Raised Unit where
  committed := db
  running i := (requests i).program env barberId

/-- The race: the requests are for new appointments of known customers, each
start is on offer at the moment of its request, the constraint is in force,
and the time zones leave room in the calendar. -/
structure Race (env : Env) (db : Database) (barberId : Uuid)
    (requests : ι → BookingRequest) : Prop where
  valid : db.Valid
  enforced : env.noDoubleBooking = true
  room : env.LeavesRoom
  customers : ∀ i, (db.user? (requests i).customer.id).isSome
  fresh : ∀ i, ∀ a ∈ db.appointments, a.id ≠ (requests i).id
  distinct : ∀ i j, (requests i).id = (requests j).id → i = j
  shown : ∀ i, db.Shows env barberId (requests i).serviceId
    (requests i).startTime.instant (requests i).now

/-! ## More appointments -/

/-- More appointments, each with a property, and nothing else. -/
def Database.Gains (P : Appointment → Prop) (s s' : Database) : Prop :=
  ∃ added, (∀ a ∈ added, P a) ∧
    s' = { s with appointments := s.appointments ++ added }

theorem isRely_gains (P : Appointment → Prop) : IsRely (Database.Gains P) where
  refl s := ⟨[], by simp, by simp⟩
  trans := by
    rintro s _ _ ⟨added, hadded, rfl⟩ ⟨added', hadded', rfl⟩
    refine ⟨added ++ added', fun a ha => ?_, by simp⟩
    rcases List.mem_append.mp ha with ha | ha
    · exact hadded a ha
    · exact hadded' a ha

namespace Database.Gains

variable {P : Appointment → Prop} {s s' : Database}

theorem sameDirectory (h : Gains P s s') : s.SameDirectory s' := by
  obtain ⟨added, -, rfl⟩ := h
  exact ⟨rfl, rfl, rfl, rfl, rfl, rfl⟩

theorem mem (h : Gains P s s') {a : Appointment} (ha : a ∈ s.appointments) :
    a ∈ s'.appointments := by
  obtain ⟨added, -, rfl⟩ := h
  exact List.mem_append_left _ ha

theorem cases (h : Gains P s s') {a : Appointment} (ha : a ∈ s'.appointments) :
    a ∈ s.appointments ∨ P a := by
  obtain ⟨added, hadded, rfl⟩ := h
  exact (List.mem_append.mp ha).imp_right (hadded a)

/-- What a computation saw while appointments were gained is the database with
the appointments of one moment. -/
theorem seenAs_eq {v c a b : Database} (hv : Gains P s v) (hc : Gains P v c)
    (hb : Gains P v b) :
    v.seenAs c a b = { s with appointments := a.appointments } := by
  obtain ⟨_, -, rfl⟩ := hv
  obtain ⟨_, -, rfl⟩ := hc
  obtain ⟨_, -, rfl⟩ := hb
  rfl

end Database.Gains

/-! ## One request of the race -/

/-- What a request of the race finds in the database before the race. -/
structure BookingRequest.Entry (r : BookingRequest) (env : Env) (db : Database)
    (barberId : Uuid) (barber : Barber) (shop : Barbershop)
    (service : Service) (offer : AvailabilityRead) : Prop where
  resolves : db.Resolves barberId r.serviceId barber service
  answers : Answers env db barberId
    (localDate (env.shopTimezone shop) r.startTime.instant) r.serviceId r.now
    none false offer barber shop service
  answered : (availableSlots env barberId
    (localDate (env.shopTimezone shop) r.startTime.instant) r.serviceId r.now
    none false).run db = (.ok offer, db)
  shown : offer.Offers r.startTime.instant

theorem exists_entry
    {env : Env} {db : Database} {barberId : Uuid} {r : BookingRequest}
    (h : db.Shows env barberId r.serviceId r.startTime.instant r.now) :
    ∃ barber shop service offer,
      r.Entry env db barberId barber shop service offer := by
  obtain ⟨barber, shop, offer, hbarber, hshop, hoffer, hshown⟩ := h
  obtain ⟨barber', shop', service, hans⟩ := answers_of_run hoffer
  have hsells := hans.sells
  obtain ⟨rfl, rfl⟩ := hsells.shop_unique hbarber hshop
  exact ⟨barber, shop, service, offer,
    ⟨hsells.barber_eq, hsells.barber_active, hsells.service_eq,
      hsells.service_active, hsells.same_shop, hsells.performs⟩,
    hans, hoffer, hshown⟩

/-- An appointment that can get in the way of the request: another request's,
with the same barber. -/
structure Rival (barberId : Uuid) (r : BookingRequest) (a : Appointment) :
    Prop where
  ordered : a.startTime < a.endTime
  barber_eq : a.barberId = barberId
  active : a.status.blocksSlot = true
  other : a.id ≠ r.id

/-- A rival's appointment is in the table and overlaps the booking asked for. -/
def Taken (P : Appointment → Prop) (r : BookingRequest) (service : Service)
    (s : Database) : Prop :=
  ∃ a ∈ s.appointments, P a ∧
    Overlap r.startTime.instant (r.startTime.instant + service.duration)
      a.startTime a.endTime

section

variable {env : Env} {db : Database} {barberId : Uuid} {r : BookingRequest}
  {barber : Barber} {shop : Barbershop} {service : Service}
  {offer : AvailabilityRead} {P : Appointment → Prop}
  {guar : Database → Database → Prop}

theorem Taken.stable {s s' : Database} (h : Taken P r service s)
    (hs : s.Gains P s') : Taken P r service s' := by
  obtain ⟨a, ha, hP, hoverlap⟩ := h
  exact ⟨a, hs.mem ha, hP, hoverlap⟩

namespace BookingRequest.Entry

theorem bookable
    (h : r.Entry env db barberId barber shop service offer) :
    Bookable env db barberId shop service
      (localDate (env.shopTimezone shop) r.startTime.instant) r.now none false
      r.startTime.instant :=
  (h.answers.starts_iff r.startTime.instant).mp h.shown

theorem onOffer
    (h : r.Entry env db barberId barber shop service offer) :
    db.OnOffer env barber service r.startTime.instant r.now none := by
  refine ⟨shop, ?_, ?_⟩
  · rw [h.resolves.barber_id, h.resolves.service_id]
    exact h.answers.sells
  · rw [h.resolves.barber_id]
    exact h.bookable

theorem row_eq
    (h : r.Entry env db barberId barber shop service offer) :
    r.row db barberId = some (newAppointment r.customer barber (some shop)
      service r.startTime.instant (r.startTime.instant + service.duration) r.id
      r.createdAt) := by
  rw [row]
  rw [h.resolves.barber_eq, h.resolves.service_eq]
  exact congrArg (fun shop => some (newAppointment r.customer barber shop
    service r.startTime.instant _ r.id r.createdAt)) h.answers.sells.shop_eq

/-- With rivals' appointments in the table the endpoint still answers, and it
shows the start unless one of them is in the way. -/
theorem answers_with
    (h : r.Entry env db barberId barber shop service offer)
    (hvalid : db.Valid) (hroom : env.LeavesRoom)
    (hrivals : ∀ a, P a → Rival barberId r a) {a : Database}
    (ha : db.Gains P a) (ignoreAppointments : Bool) :
    ∃ offer', ((availableSlots env barberId
        (localDate (env.shopTimezone shop) r.startTime.instant) r.serviceId
        r.now none ignoreAppointments).run { db with
          appointments := a.appointments }).1 = .ok offer' ∧
      (offer'.Offers r.startTime.instant ∨
        ignoreAppointments = false ∧ Taken P r service a) := by
  obtain ⟨slot, hslot, hstart⟩ := h.shown
  have hordered : ∀ b ∈ a.appointments, b.startTime < b.endTime := by
    intro b hb
    rcases ha.cases hb with hb | hb
    · exact (hvalid.checks.appointments b hb).1
    · exact (hrivals b hb).ordered
  obtain ⟨offer', hoffer'⟩ := exists_offer_of_appointments hroom
    hvalid.checks.services h.answered hslot hordered none ignoreAppointments
  refine ⟨offer', by rw [hoffer'], ?_⟩
  by_cases htaken : ignoreAppointments = false ∧ Taken P r service a
  · exact Or.inr htaken
  left
  obtain ⟨barber', shop', service', hans⟩ := answers_of_run hoffer'
  have hsells := h.answers.sells
  obtain ⟨rfl, rfl⟩ := hsells.shop_unique hans.sells.barber_eq hans.sells.shop_eq
  obtain rfl :=
    Option.some.inj (hans.sells.service_eq.symm.trans hsells.service_eq)
  have hbookable := h.bookable
  have hpositive := hbookable.positive
  refine (hans.starts_iff r.startTime.instant).mpr ⟨hpositive, hbookable.is_open,
    hbookable.lead, hbookable.on_grid, hbookable.in_day, hbookable.in_shift,
    hbookable.no_break, ?_⟩
  rintro hcounts x hx hx' ⟨b, hb, hbarber, hactive, hexclude, hbs, hbe⟩
  rcases ha.cases hb with hold | hrival
  · exact hbookable.no_appointment rfl x hx hx'
      ⟨b, hold, hbarber, hactive, hexclude, hbs, hbe⟩
  · refine htaken ⟨hcounts, b, hb, hrival, ?_⟩
    exact (overlap_iff_exists (by omega) (hrivals b hrival).ordered).mpr
      ⟨x, ⟨hx, hx'⟩, hbs, hbe⟩

/-- The check against the offer passes, or tells that the slot is taken. -/
theorem assertOnOffer_ensures
    (h : r.Entry env db barberId barber shop service offer)
    (hvalid : db.Valid) (hroom : env.LeavesRoom)
    (hrivals : ∀ a, P a → Rival barberId r a) {s : Database}
    (hs : db.Gains P s) :
    (assertOnOffer env barber service r.startTime r.now none).Ensures
      (Database.Gains P) guar
      (fun result t => db.Gains P t ∧ (result = .ok () ∨
        result = .error slotTaken ∧ Taken P r service t)) s := by
  have hrely := isRely_gains P
  have hdir : ∀ a b : Database, a.Gains P b → a.SameDirectory b :=
    fun _ _ hab => hab.sameDirectory
  obtain ⟨hstart, -, hwall⟩ := h.answers.representable h.shown
  rw [assertOnOffer]
  apply Ensures.query_bind
  intro t hst
  have hdt := hrely.trans hs hst
  rw [← hdt.sameDirectory.barbershop?, h.answers.sells.shop_eq]
  simp only [rowOr, toLocal, representable_of hstart, representable_of hwall,
    ofExcept_ok_bind, pure_eq_done, done_ok_bind, h.resolves.barber_id,
    h.resolves.service_id]
  refine Ensures.bind hrely ((availableSlots_ensures hdir hrely env barberId _
    r.serviceId r.now none false t).mono (fun _ _ hab => hab) ?_)
  rintro result u ⟨c, a, b, htc, hca, hab, hbu, rfl⟩
  have hta := hrely.trans htc hca
  rw [Database.Gains.seenAs_eq hdt htc (hrely.trans hta hab)]
  obtain ⟨first, hfirst, hshown⟩ := h.answers_with hvalid hroom hrivals
    (hrely.trans hdt hta) false
  rw [localDate] at hfirst
  rw [hfirst]
  have hau := hrely.trans hab hbu
  have hdu := hrely.trans hdt (hrely.trans hta hau)
  dsimp only
  split
  next hoffers =>
    exact fun v huv => ⟨hrely.trans hdu huv, Or.inl rfl⟩
  next hmissing =>
    -- the first read missed the start: a rival's appointment is in the way
    have htaken : Taken P r service a := by
      rcases hshown with hoffers | ⟨-, htaken⟩
      · exact absurd hoffers hmissing
      · exact htaken
    refine Ensures.bind hrely ((availableSlots_ensures hdir hrely env barberId
      _ r.serviceId r.now none true u).mono (fun _ _ hab => hab) ?_)
    rintro result v ⟨c', a', b', huc, hca', hab', hbv, rfl⟩
    have hua := hrely.trans huc hca'
    rw [Database.Gains.seenAs_eq hdu huc (hrely.trans hua hab')]
    obtain ⟨second, hsecond, hshown'⟩ := h.answers_with hvalid hroom hrivals
      (hrely.trans hdu hua) true
    rw [localDate] at hsecond
    rw [hsecond]
    have hoffers : second.Offers r.startTime.instant := by simpa using hshown'
    dsimp only
    rw [if_pos hoffers]
    intro w hvw
    have huw := hrely.trans hua (hrely.trans hab' (hrely.trans hbv hvw))
    exact ⟨hrely.trans hdu huw, Or.inr ⟨rfl,
      htaken.stable (hrely.trans hau huw)⟩⟩

/-- At the commit the row is added, or a rival's appointment is in the way. -/
theorem insert_cases
    (h : r.Entry env db barberId barber shop service offer)
    (hvalid : db.Valid) (henforced : env.noDoubleBooking = true)
    (hcustomer : (db.user? r.customer.id).isSome)
    (hfresh : ∀ a ∈ db.appointments, a.id ≠ r.id)
    (hrivals : ∀ a, P a → Rival barberId r a) {row : Appointment}
    (hrow : r.row db barberId = some row) {s : Database}
    (hs : db.Gains P s) :
    insertAppointment env row s =
        .ok { s with appointments := s.appointments ++ [row] } ∨
      insertAppointment env row s = .error (.integrityError .exclusion) ∧
        ∃ a ∈ s.appointments, P a ∧ row.Conflicts a := by
  rw [h.row_eq] at hrow
  obtain rfl := Option.some.inj hrow
  have hservice := hvalid.checks.services service
    (mem_of_lookup h.resolves.service_eq)
  have hpositive := h.bookable.positive
  have hnew : ∀ a ∈ s.appointments, a.id ≠ r.id := fun a ha =>
    (hs.cases ha).elim (hfresh a) fun hP => (hrivals a hP).other
  have hchecked : (newAppointment r.customer barber (some shop) service
      r.startTime.instant (r.startTime.instant + service.duration) r.id
      r.createdAt).Checked :=
    ⟨lt_add_of_pos_right _ hpositive, hservice.2.2⟩
  by_cases hconflict : ∃ a ∈ s.appointments,
      (newAppointment r.customer barber (some shop) service r.startTime.instant
        (r.startTime.instant + service.duration) r.id
        r.createdAt).Conflicts a
  · right
    refine ⟨insertAppointment_of_conflict hchecked hnew henforced hconflict, ?_⟩
    obtain ⟨a, ha, hconflict⟩ := hconflict
    refine ⟨a, ha, (hs.cases ha).resolve_left ?_, hconflict⟩
    intro hold
    exact h.onOffer.not_conflicts rfl rfl rfl hold
      (hvalid.checks.appointments a hold).1 (by simp) hconflict
  · left
    have hdir := hs.sameDirectory
    refine insertAppointment_of_free hchecked hnew
      (fun _ a ha hc => hconflict ⟨a, ha, hc⟩) ?_ ?_ ?_
    · rw [← hdir.user?]
      exact hcustomer
    · rw [← hdir.barber?]
      exact Option.isSome_iff_exists.mpr ⟨barber, h.resolves.barber_self⟩
    · rw [← hdir.service?]
      exact Option.isSome_iff_exists.mpr ⟨service, h.resolves.service_self⟩

end BookingRequest.Entry

/-- How the request ends: its row is in the table, or it is refused with
`SLOT_TAKEN`, nothing of it is there, and a rival's appointment is in the
way. -/
def Outcome (db : Database) (barberId : Uuid) (P : Appointment → Prop)
    (r : BookingRequest) (result : Except Raised Unit) (s : Database) : Prop :=
  ∃ row, r.row db barberId = some row ∧
    (result = .ok () ∧ row ∈ s.appointments ∨
      result = .error slotTaken ∧ (∀ a ∈ s.appointments, a.id ≠ r.id) ∧
        ∃ a ∈ s.appointments, P a ∧ row.Conflicts a)

/-- What the request commits. -/
def Inserts (env : Env) (db : Database) (barberId : Uuid) (r : BookingRequest)
    (s s' : Database) : Prop :=
  ∃ row, r.row db barberId = some row ∧ insertAppointment env row s = .ok s'

/-- One request, while rivals book. -/
theorem bookingRequest_ensures
    (hentry : r.Entry env db barberId barber shop service offer)
    (hvalid : db.Valid) (hroom : env.LeavesRoom)
    (henforced : env.noDoubleBooking = true)
    (hcustomer : (db.user? r.customer.id).isSome)
    (hfresh : ∀ a ∈ db.appointments, a.id ≠ r.id)
    (hfits : (r.payload barberId).Fits db)
    (hrivals : ∀ a, P a → Rival barberId r a) {s : Database}
    (hs : db.Gains P s) :
    (r.program env barberId).Ensures (Database.Gains P)
      (Inserts env db barberId r) (Outcome db barberId P r) s := by
  have hrely := isRely_gains P
  have hdir : ∀ a b : Database, a.Gains P b → a.SameDirectory b :=
    fun _ _ hab => hab.sameDirectory
  have hnew : ∀ t, db.Gains P t → ∀ a ∈ t.appointments, a.id ≠ r.id :=
    fun t ht a ha => (ht.cases ha).elim (hfresh a) fun hP => (hrivals a hP).other
  obtain ⟨hstart, hstop, -⟩ := hentry.answers.representable hentry.shown
  obtain ⟨stop, hadd, hinstant⟩ := AwareDatetime.add_of
    (hfits service hentry.resolves.service_eq)
  have hrow := hentry.row_eq
  rw [BookingRequest.program, createTransaction]
  have hresolve := respects_resolveBarberAndService (r.payload barberId).barberId
    (r.payload barberId).serviceId
  refine Ensures.bind hrely
    ((hresolve.ensures hrely hdir).mono (fun _ _ h => h) ?_)
  rintro result t ⟨rfl, hst⟩
  have hresolved : (run (resolveBarberAndService (r.payload barberId).barberId
      (r.payload barberId).serviceId) s).1 = .ok (barber, service) :=
    congrArg Prod.fst (run_resolveBarberAndService_eq_ok_iff.mpr
      ⟨hentry.resolves.of_sameDirectory hs.sameDirectory, rfl⟩)
  rw [hresolved]
  apply Ensures.query_bind
  intro u htu
  have hdu := hrely.trans hs (hrely.trans hst htu)
  rw [← hdu.sameDirectory.barbershop?, hentry.answers.sells.shop_eq]
  dsimp only [BookingRequest.payload] at hadd ⊢
  rw [hadd, ofExcept_ok_bind]
  refine Ensures.bind hrely ((hentry.assertOnOffer_ensures hvalid hroom hrivals
    hdu).mono (fun _ _ h => h) ?_)
  rintro result v ⟨hdv, rfl | ⟨rfl, a, ha, hP, hoverlap⟩⟩
  · -- the start was on offer: the constraint decides
    dsimp only [BookingRequest.payload] at hinstant ⊢
    rw [bindParam_eq_ok_iff.mpr ⟨hstart, rfl⟩, ofExcept_ok_bind, hinstant,
      bindParam_eq_ok_iff.mpr ⟨hstop, rfl⟩, ofExcept_ok_bind]
    intro w hvw
    have hdw := hrely.trans hdv hvw
    rcases hentry.insert_cases hvalid henforced hcustomer hfresh hrivals hrow hdw
      with hok | ⟨hrefused, a, ha, hP, hconflict⟩
    · dsimp only
      rw [hok]
      refine ⟨⟨_, hrow, hok⟩, fun x hwx => ⟨_, hrow, Or.inl ⟨rfl, hwx.mem ?_⟩⟩⟩
      exact List.mem_append_right _ (List.mem_singleton_self _)
    · dsimp only
      rw [hrefused]
      exact fun x hwx => ⟨_, hrow, Or.inr ⟨rfl, hnew x (hrely.trans hdw hwx), a,
        hwx.mem ha, hP, hconflict⟩⟩
  · refine ⟨_, hrow, Or.inr ⟨rfl, hnew v hdv, a, ha, hP, ?_, ?_,
      (hrivals a hP).active, hoverlap⟩⟩
    · exact hentry.resolves.barber_id.trans (hrivals a hP).barber_eq.symm
    · exact newAppointment_blocksSlot _ _ _ _ _ _ _ _

end

/-! ## The race -/

/-- The appointment is the row of some request of the race. -/
def OfRace (db : Database) (barberId : Uuid) (requests : ι → BookingRequest)
    (a : Appointment) : Prop :=
  ∃ j, (requests j).row db barberId = some a

/-- The appointment is the row of another request of the race. -/
def OfOthers (db : Database) (barberId : Uuid) (requests : ι → BookingRequest)
    (i : ι) (a : Appointment) : Prop :=
  ∃ j, j ≠ i ∧ (requests j).row db barberId = some a

section

variable {env : Env} {db : Database} {barberId : Uuid}
  {requests : ι → BookingRequest}

omit [DecidableEq ι] in
/-- The rows of the race, as the requests ask for them. -/
theorem Race.row_spec
    (h : Race env db barberId requests) {i : ι} {row : Appointment}
    (hrow : (requests i).row db barberId = some row) :
    row.id = (requests i).id ∧ row.barberId = barberId ∧
      row.status.blocksSlot = true ∧ row.startTime < row.endTime ∧
      ∃ service, db.service? (requests i).serviceId = some service ∧
        row.Fulfils (requests i).customer ((requests i).payload barberId)
          service := by
  obtain ⟨barber, shop, service, offer, hentry⟩ := exists_entry (h.shown i)
  rw [hentry.row_eq] at hrow
  obtain rfl := Option.some.inj hrow
  have hpositive := hentry.bookable.positive
  have hactive := newAppointment_blocksSlot (requests i).customer barber
    (some shop) service (requests i).startTime.instant
    ((requests i).startTime.instant + service.duration) (requests i).id
    (requests i).createdAt
  refine ⟨rfl, hentry.resolves.barber_id, hactive, ?_, service,
    hentry.resolves.service_eq, rfl, hentry.resolves.barber_id,
    hentry.resolves.service_id, rfl, rfl, rfl, hactive⟩
  exact lt_add_of_pos_right _ hpositive

omit [DecidableEq ι] in
theorem Race.rival
    (h : Race env db barberId requests) (i : ι) (a : Appointment)
    (ha : OfOthers db barberId requests i a) :
    Rival barberId (requests i) a := by
  obtain ⟨j, hji, hrow⟩ := ha
  obtain ⟨hid, hbarber, hactive, hordered, -⟩ := h.row_spec hrow
  refine ⟨hordered, hbarber, hactive, fun heq => hji ?_⟩
  exact h.distinct j i (hid.symm.trans heq)

omit [DecidableEq ι] in
/-- The requests of the race, verified together. -/
theorem Race.verified
    (h : Race env db barberId requests)
    (hfits : ∀ i, ((requests i).payload barberId).Fits db) :
    (racePool env barberId requests db).Verified
      (fun s => s.Calendar ∧ db.Gains (OfRace db barberId requests) s)
      (fun i s => ∀ a ∈ s.appointments, a.id ≠ (requests i).id)
      (fun i => Database.Gains (OfOthers db barberId requests i))
      (fun i => Inserts env db barberId (requests i))
      (fun _ _ _ => True)
      (fun i => Outcome db barberId (OfOthers db barberId requests i)
        (requests i)) where
  isRely i := isRely_gains _
  init := ⟨h.valid.calendar, (isRely_gains _).refl db⟩
  begin_init i := h.fresh i
  start i s hs hbefore := by
    obtain ⟨barber, shop, service, offer, hentry⟩ := exists_entry (h.shown i)
    refine bookingRequest_ensures hentry h.valid h.room h.enforced
      (h.customers i) (h.fresh i) (hfits i) (h.rival i) ?_
    -- none of the rows gained before the request began is its own
    obtain ⟨added, hadded, rfl⟩ := hs.2
    refine ⟨added, ?_, rfl⟩
    intro a ha
    obtain ⟨j, hrow⟩ := hadded a ha
    refine ⟨j, ?_, hrow⟩
    rintro rfl
    exact hbefore a (List.mem_append_right _ ha) (h.row_spec hrow).1
  inv i s s' hs hguar := by
    obtain ⟨row, hrow, hinsert⟩ := hguar
    obtain ⟨rfl, -, hfree⟩ := insertAppointment_eq_ok hinsert
    refine ⟨hs.1.insert (hfree h.enforced) hinsert,
      (isRely_gains _).trans hs.2 ⟨[row], ?_, rfl⟩⟩
    intro a ha
    obtain rfl := List.mem_singleton.mp ha
    exact ⟨i, hrow⟩
  begin_keep i j s s' hij _ hguar hbefore := by
    obtain ⟨row, hrow, hinsert⟩ := hguar
    obtain ⟨rfl, -, -⟩ := insertAppointment_eq_ok hinsert
    intro a ha
    rcases List.mem_append.mp ha with hold | ha
    · exact hbefore a hold
    · obtain rfl := List.mem_singleton.mp ha
      rw [(h.row_spec hrow).1]
      exact fun heq => hij (h.distinct j i heq).symm
  compat i j s s' hij _ hguar _ := by
    obtain ⟨row, hrow, hinsert⟩ := hguar
    obtain ⟨rfl, -, -⟩ := insertAppointment_eq_ok hinsert
    refine ⟨[row], ?_, rfl⟩
    intro a ha
    obtain rfl := List.mem_singleton.mp ha
    exact ⟨j, hij.symm, hrow⟩
  answer i j s s' result hij _ hguar houtcome := by
    obtain ⟨row', hrow', hinsert⟩ := hguar
    obtain ⟨rfl, -, -⟩ := insertAppointment_eq_ok hinsert
    obtain ⟨row, hrow, ⟨hok, hmem⟩ | ⟨hrefused, hnone, a, ha, hother, hconflict⟩⟩ :=
      houtcome
    · exact ⟨row, hrow, Or.inl ⟨hok, List.mem_append_left _ hmem⟩⟩
    · refine ⟨row, hrow, Or.inr ⟨hrefused, ?_, a,
        List.mem_append_left _ ha, hother, hconflict⟩⟩
      intro b hb
      rcases List.mem_append.mp hb with hold | hb
      · exact hnone b hold
      · obtain rfl := List.mem_singleton.mp hb
        rw [(h.row_spec hrow').1]
        exact fun heq => hij (h.distinct j i heq).symm

/-- A request that has answered has ended in one of the two ways. -/
theorem Race.outcome
    (h : Race env db barberId requests)
    (hfits : ∀ i, ((requests i).payload barberId).Fits db)
    (schedule : List ι) {i : ι}
    {result : Except Raised Unit}
    (hdone : ((racePool env barberId requests db).exec schedule).running i =
      .done result) :
    Outcome db barberId (OfOthers db barberId requests i) (requests i) result
      ((racePool env barberId requests db).exec schedule).committed := by
  have htol : (racePool env barberId requests db).Tolerant
      (fun _ _ _ => True) schedule := fun _ _ _ _ _ _ => trivial
  exact (h.verified hfits).answered_of_unfinished htol id hdone

end

/-- What the race has come to once the threads have executed a schedule. -/
structure RaceResult (env : Env) (db : Database) (barberId : Uuid)
    (requests : ι → BookingRequest) (final : Pool ι Database Raised Unit) :
    Prop where
  /-- All appointments are apart, those of the race among them. -/
  disjoint : final.committed.appointments.Pairwise fun a b => ¬ a.Conflicts b
  /-- What was added is what requests of the race asked for. -/
  booked : ∃ added, final.committed.appointments = db.appointments ++ added ∧
    ∀ a ∈ added, ∃ j service, a.id = (requests j).id ∧
      db.service? (requests j).serviceId = some service ∧
      a.Fulfils (requests j).customer ((requests j).payload barberId) service
  /-- An accepted request has its row in the table. -/
  accepted : ∀ i, final.running i = .done (.ok ()) →
    ∃ a ∈ final.committed.appointments, a.id = (requests i).id
  /-- A refused request is refused with `SLOT_TAKEN`, has no row in the table,
  and overlaps the row of another request. -/
  refused : ∀ i e, final.running i = .done (.error e) →
    e = slotTaken ∧
      (∀ a ∈ final.committed.appointments, a.id ≠ (requests i).id) ∧
      ∃ service j, db.service? (requests i).serviceId = some service ∧
        ∃ a ∈ final.committed.appointments, a.id = (requests j).id ∧
          Overlap (requests i).startTime.instant
            ((requests i).startTime.instant + service.duration)
            a.startTime a.endTime
  /-- Of requests for one start, one succeeds and all others are told that the
  slot is taken. -/
  one_winner : Nonempty ι →
    (∀ i j, (requests i).startTime.instant =
      (requests j).startTime.instant) →
    (∀ i, (final.running i).Finished) →
    ∃ i, final.running i = .done (.ok ()) ∧
      ∀ j, j ≠ i → final.running j = .done (.error slotTaken)

section

variable {env : Env} {db : Database} {barberId : Uuid}
  {requests : ι → BookingRequest}

theorem Race.one_winner
    (h : Race env db barberId requests)
    (hfits : ∀ i, ((requests i).payload barberId).Fits db)
    (schedule : List ι)
    (hcalendar : ((racePool env barberId requests db).exec
      schedule).committed.Calendar) (hsome : Nonempty ι)
    (hstart : ∀ i j, (requests i).startTime.instant =
      (requests j).startTime.instant)
    (hdone : ∀ i, (((racePool env barberId requests db).exec
      schedule).running i).Finished) :
    ∃ i, ((racePool env barberId requests db).exec schedule).running i =
        .done (.ok ()) ∧
      ∀ j, j ≠ i → ((racePool env barberId requests db).exec
        schedule).running j = .done (.error slotTaken) := by
  have hanswer : ∀ i, ∃ result, ((racePool env barberId requests db).exec
      schedule).running i = .done result := by
    intro i
    have hfinished := hdone i
    cases hrunning : ((racePool env barberId requests db).exec
        schedule).running i with
    | done result => exact ⟨result, rfl⟩
    | read next => rw [hrunning] at hfinished; exact hfinished.elim
    | commit w next => rw [hrunning] at hfinished; exact hfinished.elim
  -- some request succeeds: a refused one is in the way of nothing
  obtain ⟨i, hi⟩ : ∃ i, ((racePool env barberId requests db).exec
      schedule).running i = .done (.ok ()) := by
    obtain ⟨i⟩ := hsome
    obtain ⟨result, hresult⟩ := hanswer i
    obtain ⟨row, -, ⟨rfl, -⟩ | ⟨-, -, a, ha, ⟨j, -, hrowj⟩, -⟩⟩ :=
      h.outcome hfits schedule hresult
    · exact ⟨i, hresult⟩
    · obtain ⟨result', hresult'⟩ := hanswer j
      obtain ⟨row', -, ⟨rfl, -⟩ | ⟨-, hnone, -⟩⟩ :=
        h.outcome hfits schedule hresult'
      · exact ⟨j, hresult'⟩
      · exact absurd (h.row_spec hrowj).1 (hnone a ha)
  refine ⟨i, hi, ?_⟩
  intro j hji
  obtain ⟨result, hresult⟩ := hanswer j
  obtain ⟨row, hrow, ⟨rfl, hmem⟩ | ⟨rfl, -⟩⟩ := h.outcome hfits schedule hresult
  · -- two rows with one start cannot both be in the table
    obtain ⟨rowi, hrowi, ⟨-, hmemi⟩ | ⟨hrefused, -⟩⟩ :=
      h.outcome hfits schedule hi
    · obtain ⟨hid, hbarber, hactive, hordered, _, -, hfulfils⟩ := h.row_spec hrow
      obtain ⟨hidi, hbarberi, hactivei, horderedi, _, -, hfulfilsi⟩ :=
        h.row_spec hrowi
      have hsame : row.startTime = rowi.startTime := by
        rw [hfulfils.start_eq, hfulfilsi.start_eq]
        exact hstart j i
      have hne : row.id ≠ rowi.id := by
        rw [hid, hidi]
        exact fun heq => hji (h.distinct j i heq)
      exact absurd ⟨hbarber.trans hbarberi.symm, hactive, hactivei,
        by omega, by omega⟩ (hcalendar.disjoint row hmem rowi hmemi hne)
    · simp at hrefused
  · exact hresult

end

/-- A booking race of requests whose ends can be written on the clocks of their
starts has exactly one kind of loser, whatever the order of the requests'
statements; and any order can be continued until all have answered. -/
theorem race_result
    (env : Env) (db : Database) (barberId : Uuid)
    (requests : ι → BookingRequest) (h : Race env db barberId requests)
    (hfits : ∀ i, ((requests i).payload barberId).Fits db)
    (schedule : List ι) :
    RaceResult env db barberId requests
        ((racePool env barberId requests db).exec schedule) ∧
      ∀ threads : List ι, ∃ rest, ∀ i ∈ threads,
        (((racePool env barberId requests db).exec
          (schedule ++ rest)).running i).Finished := by
  refine ⟨?_, exists_completion _ _⟩
  have htol : (racePool env barberId requests db).Tolerant
      (fun _ _ _ => True) schedule := fun _ _ _ _ _ _ => trivial
  obtain ⟨hcalendar, hgains⟩ := (h.verified hfits).invariant htol
  refine ⟨hcalendar.pairwise, ?_, ?_, ?_, h.one_winner hfits schedule hcalendar⟩
  · obtain ⟨added, hadded, hcommitted⟩ := hgains
    refine ⟨added, by rw [hcommitted], fun a ha => ?_⟩
    obtain ⟨j, hrow⟩ := hadded a ha
    obtain ⟨hid, -, -, -, service, hservice, hfulfils⟩ := h.row_spec hrow
    exact ⟨j, service, hid, hservice, hfulfils⟩
  · intro i hi
    obtain ⟨row, hrow, ⟨-, hmem⟩ | ⟨hrefused, -⟩⟩ := h.outcome hfits schedule hi
    · exact ⟨row, hmem, (h.row_spec hrow).1⟩
    · simp at hrefused
  · intro i e hi
    obtain ⟨row, hrow, ⟨hok, -⟩ | ⟨hrefused, hnone, a, ha, ⟨j, -, hrowj⟩,
      hconflict⟩⟩ := h.outcome hfits schedule hi
    · simp at hok
    · obtain ⟨-, -, -, -, service, hservice, hfulfils⟩ := h.row_spec hrow
      refine ⟨Except.error.inj hrefused, hnone, service, j, hservice, a, ha,
        (h.row_spec hrowj).1, ?_⟩
      have hoverlap := hconflict.2.2.2
      rw [hfulfils.start_eq, hfulfils.stop_eq] at hoverlap
      exact hoverlap

/-- Two requests for overlapping half hours of the sample shop. -/
def halfHours : Bool → BookingRequest
  | false => ⟨Sample.customer, 30, Sample.start 9 0, Sample.clock 8 0, 50,
      Sample.clock 8 0⟩
  | true => ⟨Sample.owner, 30, Sample.start 9 15, Sample.clock 8 1, 51,
      Sample.clock 8 1⟩

theorem race_result_halfHours :
    RaceResult Sample.env Sample.db 20 halfHours
        ((racePool Sample.env 20 halfHours Sample.db).exec
          [false, true, true, false]) ∧
      ∀ threads : List Bool, ∃ rest, ∀ i ∈ threads,
        (((racePool Sample.env 20 halfHours Sample.db).exec
          ([false, true, true, false] ++ rest)).running i).Finished := by
  have hbarber : Sample.db.barber? 20 = some Sample.barber := rfl
  have hshop : Sample.db.barbershop? 10 = some Sample.shop := rfl
  refine race_result _ _ _ _ ⟨Sample.db_valid, rfl, Sample.env_leavesRoom,
    by decide, by decide, by decide, fun i => ?_⟩ (fun i => ?_) _
  · cases i
    · exact shows_of_any hbarber hshop (by decide +kernel)
    · exact shows_of_any hbarber hshop (by decide +kernel)
  · intro service hservice
    cases i <;>
    · obtain rfl := Option.some.inj hservice
      decide

/-- A request for eleven at night on 9999-12-30, written as the last half hour
of 9999-12-31 of another clock. -/
def lastRequest : Unit → BookingRequest := fun _ =>
  ⟨Sample.customer, 30, Sample.lastHalfHour, Sample.clock 8 0, 50,
    Sample.clock 8 0⟩

/-- The request has no rival, and is refused all the same, with another
error. -/
theorem not_race_result_lastRequest :
    Race Sample.lateEnv Sample.lateDb 20 lastRequest ∧
      ((racePool Sample.lateEnv 20 lastRequest Sample.lateDb).exec
        [(), (), ()]).running () = .done (.error .overflowError) ∧
      ¬ RaceResult Sample.lateEnv Sample.lateDb 20 lastRequest
        ((racePool Sample.lateEnv 20 lastRequest Sample.lateDb).exec
          [(), (), ()]) := by
  have hbarber : Sample.lateDb.barber? 20 = some Sample.barber := rfl
  have hshop : Sample.lateDb.barbershop? 10 = some Sample.lateShop := rfl
  have hanswer : ((racePool Sample.lateEnv 20 lastRequest Sample.lateDb).exec
      [(), (), ()]).running () = .done (.error .overflowError) := by
    rfl
  have hshows : Sample.lateDb.Shows Sample.lateEnv 20 30
      Sample.lastHalfHour.instant (Sample.clock 8 0) :=
    shows_of_any hbarber hshop (by decide +kernel)
  refine ⟨⟨by decide +kernel, rfl, ?_, fun _ => rfl,
    fun _ _ ha => absurd ha List.not_mem_nil, fun _ _ _ => rfl,
    fun _ => hshows⟩, hanswer, fun h => ?_⟩
  · exact Env.leavesRoom_of_fixed (fun _ htz => Sample.eq_of_knows_late htz)
      (by decide) (by decide)
  · have htaken := (h.refused () .overflowError hanswer).1
    simp [slotTaken] at htaken

end BarberHub
