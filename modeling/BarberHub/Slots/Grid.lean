import BarberHub.Availability.Exactness
import BarberHub.Slots.Interference

/-!
# What appointments take from a day

The answer of `available_slots` is the answer it would give if nobody had booked
anything, without the slots that overlap an active appointment.
-/

namespace BarberHub

open HalfOpen ReadCommitted Program Fallible

/-- The appointment takes the time from that barber. -/
def Appointment.Takes (a : Appointment) (barberId : Uuid) (start stop : ℤ) :
    Prop :=
  a.barberId = barberId ∧ a.status.blocksSlot = true ∧
    Overlap a.startTime a.endTime start stop

instance (a : Appointment) (barberId : Uuid) (start stop : ℤ) :
    Decidable (a.Takes barberId start stop) :=
  inferInstanceAs (Decidable (_ ∧ _ ∧ _))

namespace Database

/-- The time is taken, the excluded appointment apart. -/
def Taken (db : Database) (barberId : Uuid) (exclude : Option Uuid)
    (start stop : ℤ) : Prop :=
  ∃ a ∈ db.appointments, exclude ≠ some a.id ∧ a.Takes barberId start stop

/-- The time is taken by that appointment. -/
def TakenBy (db : Database) (barberId id : Uuid) (start stop : ℤ) : Prop :=
  ∃ a ∈ db.appointments, a.id = id ∧ a.Takes barberId start stop

instance (db : Database) (barberId : Uuid) (exclude : Option Uuid)
    (start stop : ℤ) : Decidable (db.Taken barberId exclude start stop) :=
  inferInstanceAs (Decidable (∃ a ∈ _, _ ∧ _))

instance (db : Database) (barberId id : Uuid) (start stop : ℤ) :
    Decidable (db.TakenBy barberId id start stop) :=
  inferInstanceAs (Decidable (∃ a ∈ _, _ ∧ _))

theorem taken_none_iff {db : Database} {barberId id : Uuid} {start stop : ℤ} :
    db.Taken barberId none start stop ↔
      db.Taken barberId (some id) start stop ∨
        db.TakenBy barberId id start stop := by
  constructor
  · rintro ⟨a, ha, -, htakes⟩
    by_cases hid : a.id = id
    · exact Or.inr ⟨a, ha, hid, htakes⟩
    · refine Or.inl ⟨a, ha, ?_, htakes⟩
      intro heq
      exact hid (Option.some.inj heq).symm
  · rintro (⟨a, ha, -, htakes⟩ | ⟨a, ha, -, htakes⟩)
    · exact ⟨a, ha, (Option.some_ne_none _).symm, htakes⟩
    · exact ⟨a, ha, (Option.some_ne_none _).symm, htakes⟩

end Database

/-- The answer without some of its slots. -/
def AvailabilityRead.keep (offer : AvailabilityRead) (P : ℤ → ℤ → Prop)
    [∀ s e, Decidable (P s e)] : AvailabilityRead where
  date := offer.date
  timezone := offer.timezone
  barberId := offer.barberId
  service := offer.service
  slots := offer.slots.filter fun slot => P slot.start slot.stop

/-! ## The slots before they are rendered -/

section

variable {env : Env} {db : Database} {barberId : Uuid} {shop : Barbershop}
  {service : Service} {day now : ℤ} {exclude exclude' : Option Uuid}
  {ignore ignore' : Bool} {window : Interval} {slots slots' : List Interval}

theorem Cuts.increasing
    (h : Cuts env db barberId shop service day now exclude ignore window
      slots) : slots.Pairwise fun I J => I.start < J.start := by
  cases h with
  | closed hclosed => exact List.Pairwise.nil
  | off hopen hshifts hoff => exact List.Pairwise.nil
  | cut hopen hshifts _ htaken hblocked hslots =>
      obtain ⟨-, hslots, -⟩ := freeSlots_eq_ok_iff.mp hslots
      exact (exactSlots_of_computeFreeSlots hslots).increasing

/-- Slots in order that agree on their starts are the same. -/
theorem eq_of_starts
    (hslots : slots.Pairwise fun I J => I.start < J.start)
    (hslots' : slots'.Pairwise fun I J => I.start < J.start)
    (hmem : ∀ I, I ∈ slots ↔ I ∈ slots') : slots = slots' := by
  have hnodup : ∀ {xs : List Interval},
      xs.Pairwise (fun I J => I.start < J.start) → xs.Nodup := fun hxs =>
    hxs.imp fun hlt heq => by
      rw [heq] at hlt
      exact lt_irrefl _ hlt
  have hperm :=
    (List.perm_ext_iff_of_nodup (hnodup hslots) (hnodup hslots')).mpr hmem
  refine hperm.eq_of_pairwise ?_ hslots hslots'
  intro I J _ _ hlt hlt'
  exact absurd hlt (not_lt.mpr hlt'.le)

/-- Within the window the rows fetched say what is taken. -/
theorem Cuts.taken_iff
    (hwindow : localDayBounds day (env.shopTimezone shop) = .ok window)
    (hcuts : Cuts env db barberId shop service day now exclude false window
      slots) {t : ℤ}
    (ht : Bookable env db barberId shop service day now exclude' ignore t) :
    db.Taken barberId exclude t (t + service.duration) ↔
      ∃ x, (t ≤ x ∧ x < t + service.duration) ∧
        db.InAppointment barberId exclude x := by
  constructor
  · rintro ⟨a, ha, hexclude, hbarber, hactive, hoverlap⟩
    obtain ⟨-, -, -, hstart, hstop⟩ := localDayBounds_eq_ok_iff.mp hwindow
    have hwithin := ht.within
    have hfetched : a ∈ db.appointmentsIn barberId window exclude := by
      rw [Database.appointmentsIn]
      simp only [List.mem_filter, decide_eq_true_eq]
      refine ⟨ha, hbarber, hactive, ?_, ?_, hexclude⟩
      · rw [hstop]
        exact lt_of_lt_of_le hoverlap.1 hwithin.2
      · rw [hstart]
        exact lt_of_le_of_lt hwithin.1 hoverlap.2
    have hordered : a.startTime < a.endTime := by
      cases hcuts with
      | closed hclosed => exact absurd hclosed ht.is_open
      | off hopen hshifts hoff =>
          have hin := ht.in_shift t le_rfl (by have := ht.positive; omega)
          rw [← covered_shifts hshifts, hoff] at hin
          exact absurd hin (covered_nil t)
      | cut hopen hshifts _ htaken hblocked hslots =>
          rcases htaken with ⟨htrue, -⟩ | ⟨-, htaken⟩
          · exact absurd htrue Bool.false_ne_true
          · obtain ⟨I, -, hI⟩ := exists_result_of_mem htaken hfetched
            obtain ⟨hs, he⟩ := Interval.new_eq_ok_iff.mp hI
            rw [← hs, ← he]
            exact I.start_lt_stop
    have hpositive := ht.positive
    obtain ⟨x, hx, hx'⟩ :=
      (overlap_iff_exists hordered (by omega)).mp hoverlap
    exact ⟨x, hx', a, ha, hbarber, hactive, hexclude, hx⟩
  · rintro ⟨x, hx, a, ha, hbarber, hactive, hexclude, hx'⟩
    refine ⟨a, ha, hexclude, hbarber, hactive, ?_⟩
    exact ⟨lt_of_le_of_lt hx'.1 hx.2, lt_of_le_of_lt hx.1 hx'.2⟩

/-- A start is bookable if it would be with fewer appointments in the way, and
none of the others is. -/
theorem bookable_iff_of_less
    (hless : ∀ x, ignore = false → db.InAppointment barberId exclude x →
      db.InAppointment barberId exclude' x) {t : ℤ} :
    Bookable env db barberId shop service day now exclude' false t ↔
      Bookable env db barberId shop service day now exclude ignore t ∧
        ¬ ∃ x, (t ≤ x ∧ x < t + service.duration) ∧
          db.InAppointment barberId exclude' x := by
  constructor
  · intro h
    refine ⟨⟨h.positive, h.is_open, h.lead, h.on_grid, h.in_day, h.in_shift,
      h.no_break, ?_⟩, ?_⟩
    · intro hcounts x hx hx' hin
      exact h.no_appointment rfl x hx hx' (hless x hcounts hin)
    · rintro ⟨x, hx, hin⟩
      exact h.no_appointment rfl x hx.1 hx.2 hin
  · rintro ⟨h, hclear⟩
    exact ⟨h.positive, h.is_open, h.lead, h.on_grid, h.in_day, h.in_shift,
      h.no_break, fun _ x hx hx' hin => hclear ⟨x, ⟨hx, hx'⟩, hin⟩⟩

/-- The slots cut when more appointments count are those that the others do not
take. -/
theorem Cuts.eq_filter
    (hwindow : localDayBounds day (env.shopTimezone shop) = .ok window)
    (hless : ∀ x, ignore = false → db.InAppointment barberId exclude x →
      db.InAppointment barberId exclude' x)
    (hcuts : Cuts env db barberId shop service day now exclude ignore window
      slots)
    (hcuts' : Cuts env db barberId shop service day now exclude' false window
      slots') :
    slots' =
      slots.filter fun I => ¬ db.Taken barberId exclude' I.start I.stop := by
  refine eq_of_starts hcuts'.increasing (hcuts.increasing.filter _) ?_
  have hfree : ∀ I : Interval, I.stop = I.start + service.duration →
      ((∃ J ∈ slots', J.start = I.start) ↔ (∃ J ∈ slots, J.start = I.start) ∧
        ¬ db.Taken barberId exclude' I.start I.stop) := by
    intro I hstop
    rw [hcuts'.starts_iff hwindow, hcuts.starts_iff hwindow,
      bookable_iff_of_less hless, hstop]
    exact and_congr_right fun h => not_congr (hcuts'.taken_iff hwindow h).symm
  have hsame : ∀ {I J : Interval}, I.stop = I.start + service.duration →
      J.stop = J.start + service.duration → J.start = I.start → J = I := by
    intro I J hI hJ hstart
    exact Interval.ext hstart (by rw [hI, hJ, hstart])
  intro I
  rw [List.mem_filter, decide_eq_true_eq]
  constructor
  · intro hI
    have hstop := hcuts'.stop_eq hI
    obtain ⟨⟨J, hJ, hstart⟩, hclear⟩ := (hfree I hstop).mp ⟨I, hI, rfl⟩
    rw [← hsame hstop (hcuts.stop_eq hJ) hstart] at hclear ⊢
    exact ⟨hJ, hclear⟩
  · rintro ⟨hI, hclear⟩
    have hstop := hcuts.stop_eq hI
    obtain ⟨J, hJ, hstart⟩ := (hfree I hstop).mpr ⟨⟨I, hI, rfl⟩, hclear⟩
    rw [← hsame hstop (hcuts'.stop_eq hJ) hstart]
    exact hJ

/-- Rendering slot by slot keeps what is left out left out. -/
theorem render_filter
    {tz : Zone} {offer : AvailabilityRead} (P : ℤ → ℤ → Prop)
    [∀ s e, Decidable (P s e)]
    (h : render day tz barberId service slots = .ok offer) :
    render day tz barberId service
        (slots.filter fun I => P I.start I.stop) = .ok (offer.keep P) := by
  obtain ⟨reads, hreads, rfl⟩ := render_eq_ok_iff.mp h
  refine render_eq_ok_iff.mpr ⟨_, mapM_filter hreads ?_, rfl⟩
  intro I read hread
  obtain ⟨-, -, rfl⟩ := slotRead_eq_ok_iff.mp hread
  rfl

end

/-! ## The answers -/

section

variable {env : Env} {db : Database} {barberId : Uuid} {day : ℤ}
  {serviceId : Uuid} {now : ℤ} {exclude exclude' : Option Uuid} {ignore : Bool}
  {offer offer' : AvailabilityRead}

/-- Two answers of one state, where what counts for the first counts for the
second. -/
theorem offer_eq_keep
    (hless : ∀ x, ignore = false → db.InAppointment barberId exclude x →
      db.InAppointment barberId exclude' x)
    (h : (availableSlots env barberId day serviceId now exclude ignore).run
      db = (.ok offer, db))
    (h' : (availableSlots env barberId day serviceId now exclude' false).run
      db = (.ok offer', db)) :
    offer' = offer.keep fun start stop =>
      ¬ db.Taken barberId exclude' start stop := by
  obtain ⟨-, barber, shop, service, window, slots, hsells, hwindow, hcuts,
    hrender⟩ := run_availableSlots_eq_ok_iff.mp h
  obtain ⟨-, barber', shop', service', window', slots', hsells', hwindow',
    hcuts', hrender'⟩ := run_availableSlots_eq_ok_iff.mp h'
  obtain ⟨rfl, rfl, rfl⟩ := hsells.unique hsells'
  obtain rfl := Except.ok.inj (hwindow.symm.trans hwindow')
  rw [hcuts.eq_filter hwindow hless hcuts',
    render_filter (fun start stop => ¬ db.Taken barberId exclude' start stop)
      hrender] at hrender'
  exact (Except.ok.inj hrender').symm

/-- The slots on offer are those of the day nobody has booked yet that no active
appointment takes. -/
theorem offer_eq_grid_keep
    (h : (availableSlots env barberId day serviceId now exclude true).run db =
      (.ok offer, db))
    (h' : (availableSlots env barberId day serviceId now exclude false).run
      db = (.ok offer', db)) :
    offer' = offer.keep fun start stop =>
      ¬ db.Taken barberId exclude start stop :=
  offer_eq_keep (fun _ htrue => absurd htrue.symm Bool.false_ne_true) h h'

/-- Nothing on offer is taken. -/
theorem not_taken_of_offer
    (h : (availableSlots env barberId day serviceId now exclude false).run db =
      (.ok offer, db)) {slot : SlotRead} (hslot : slot ∈ offer.slots) :
    ¬ db.Taken barberId exclude slot.start slot.stop := by
  rw [offer_eq_keep (fun _ _ hin => hin) h h] at hslot
  exact of_decide_eq_true (List.mem_filter.mp hslot).2

/-- Counting one appointment more, the slots it takes are gone. -/
theorem offer_eq_without_keep {id : Uuid}
    (h : (availableSlots env barberId day serviceId now (some id) false).run
      db = (.ok offer, db))
    (h' : (availableSlots env barberId day serviceId now none false).run db =
      (.ok offer', db)) :
    offer' = offer.keep fun start stop =>
      ¬ db.TakenBy barberId id start stop := by
  have hless : ∀ x, false = false → db.InAppointment barberId (some id) x →
      db.InAppointment barberId none x := by
    rintro x - ⟨a, ha, hbarber, hactive, -, hx⟩
    exact ⟨a, ha, hbarber, hactive, (Option.some_ne_none _).symm, hx⟩
  rw [offer_eq_keep hless h h', AvailabilityRead.keep, AvailabilityRead.keep]
  congr 1
  apply List.filter_congr
  intro slot hslot
  rw [decide_eq_decide, not_iff_not, Database.taken_none_iff]
  exact or_iff_right (not_taken_of_offer h hslot)

end

/-! ## What the day is read from -/

/-- The states differ in appointments, and in what no slot depends on. -/
structure Database.SameTimetable (s s' : Database) : Prop where
  directory : s.SameDirectory s'
  closures : s.shopClosures = s'.shopClosures
  breaks : s.barberBreaks = s'.barberBreaks

section

variable {R : Database → Database → Prop}

/-- The answer depends on the timetable and on the appointments fetched. -/
theorem respects_availableSlots
    (htimetable : ∀ s s', R s s' → s.SameTimetable s')
    (env : Env) (barberId : Uuid) (day : ℤ) (serviceId : Uuid) (now : ℤ)
    (exclude : Option Uuid) (ignore : Bool)
    (htaken : ∀ window,
      (BarberHub.taken barberId window exclude ignore).Respects R) :
    (availableSlots env barberId day serviceId now exclude ignore).Respects
      R := by
  have hdirectory : ∀ s s', R s s' → s.SameDirectory s' := fun s s' h =>
    (htimetable s s' h).directory
  apply ((respects_loadAndValidate barberId serviceId).mono hdirectory).bind
  rintro ⟨barber, shop, service⟩
  apply (respects_ofExcept _).bind
  intro window
  have hclosed : (isClosed shop.id day).Respects R := by
    apply respects_query
    intro s s' h
    apply decide_eq_decide.mpr
    rw [Database.ClosedOn, Database.ClosedOn, (htimetable s s' h).closures]
  apply hclosed.bind
  intro closed
  split
  · exact respects_ofExcept _
  apply ((respects_shiftsFor barberId day _).mono hdirectory).bind
  intro shifts
  split
  · exact respects_ofExcept _
  apply (htaken window).bind
  intro taken
  have hbreaks : (breaks barberId window).Respects R := by
    rw [breaks]
    apply Respects.bind (respects_query fun s s' h => ?_) fun rows =>
      respects_ofExcept _
    simp only [Database.breaksIn, (htimetable s s' h).breaks]
  apply hbreaks.bind
  intro blocked
  apply (respects_ofExcept _).bind
  intro slots
  exact respects_ofExcept _

/-- What a day without bookings has to offer is read from the timetable. -/
theorem respects_grid
    (env : Env) (barberId : Uuid) (day : ℤ) (serviceId : Uuid) (now : ℤ)
    (exclude : Option Uuid) :
    (availableSlots env barberId day serviceId now exclude true).Respects
      Database.SameTimetable :=
  respects_availableSlots (fun _ _ h => h) env barberId day serviceId now
    exclude true fun _ => trivial

/-- The rows other than the appointment are the same. -/
def Database.SameBesides (id : Uuid) (s s' : Database) : Prop :=
  s.SameTimetable s' ∧
    (s.appointments.filter fun a => a.id ≠ id) =
      s'.appointments.filter fun a => a.id ≠ id

/-- Without an appointment the answer is read from the others. -/
theorem respects_offerWithout
    (env : Env) (barberId : Uuid) (day : ℤ) (serviceId : Uuid) (now : ℤ)
    (id : Uuid) :
    (availableSlots env barberId day serviceId now (some id) false).Respects
      (Database.SameBesides id) := by
  refine respects_availableSlots (fun _ _ h => h.1) env barberId day serviceId
    now (some id) false fun window => ?_
  have hrows : ∀ db : Database, db.appointmentsIn barberId window (some id) =
      (db.appointments.filter fun a => a.id ≠ id).filter fun a =>
        a.barberId = barberId ∧ a.status.blocksSlot ∧
          a.startTime < window.stop ∧ window.start < a.endTime := by
    intro db
    rw [List.filter_filter, Database.appointmentsIn]
    apply List.filter_congr
    intro a _
    have hid : some id ≠ some a.id ↔ a.id ≠ id := by
      rw [ne_eq, Option.some.injEq, eq_comm]
    simp only [hid, ← and_assoc, Bool.decide_and]
  refine Respects.bind (respects_query fun s s' h => ?_) fun rows =>
    respects_ofExcept _
  simp only [hrows, h.2]

end

end BarberHub
