import BarberHub.Booking.Concurrent
import BarberHub.Slots.Grid

/-!
# What bookings do to the slots

Bookings leave the timetable alone, so in every committed state the slots on
offer are those of the day before any booking, without what is taken; and one
operation gives back and takes only the times of the appointment it is about.
-/

namespace BarberHub

open HalfOpen KeyedTable ReadCommitted Program Pool

/-! ## One commit -/

/-- The appointment an operation is about; the confirmation timeout is about any
number of them. -/
def BookingOp.about : BookingOp → Option Uuid
  | create _ _ _ id _ => some id
  | reschedule _ id _ _ => some id
  | cancel _ id _ _ => some id
  | confirm _ id => some id
  | complete _ id _ => some id
  | noShow _ id _ => some id
  | expire _ => none

/-- A commit of the operation changes no other appointment, and no timetable. -/
structure BookingEffect (op : BookingOp) (s s' : Database) : Prop where
  timetable : s.SameTimetable s'
  others : ∀ id, op.about = some id →
    (s.appointments.filter fun a => a.id ≠ id) =
      s'.appointments.filter fun a => a.id ≠ id

theorem Database.sameTimetable_of_appointments {s s' : Database}
    (h : s' = { s with appointments := s'.appointments }) :
    s.SameTimetable s' := by
  rw [h]
  exact ⟨⟨rfl, rfl, rfl, rfl, rfl, rfl⟩, rfl, rfl⟩

section

variable {env : Env} {s s' : Database} {op : BookingOp} {id : Uuid}

theorem effect_insert {row : Appointment} (hop : op.about = some row.id)
    (h : insertAppointment env row s = .ok s') : BookingEffect op s s' := by
  obtain ⟨rfl, -, -⟩ := insertAppointment_eq_ok h
  refine ⟨Database.sameTimetable_of_appointments rfl, ?_⟩
  intro id hid
  obtain rfl := Option.some.inj (hop.symm.trans hid)
  rw [List.filter_append]
  simp

theorem effect_update {u : AppointmentUpdate} (hop : op.about = some id)
    (h : updateAppointment env id u s = .ok s') : BookingEffect op s s' := by
  obtain rfl := updateAppointment_eq_ok h
  refine ⟨Database.sameTimetable_of_appointments rfl, ?_⟩
  intro id' hid
  obtain rfl := Option.some.inj (hop.symm.trans hid)
  exact (filter_updateAt_ne fun _ => AppointmentUpdate.apply_id u _).symm

/-- An accepted write has the effect of its operation. -/
theorem BookingWrite.effect
    {rely : Database → Database → Prop} {s₀ : Database}
    {w : Database → Except Raised Database}
    (hwrite : BookingWrite env rely s₀ op w s) (h : w s = .ok s') :
    BookingEffect op s s' := by
  cases hwrite with
  | created customer payload now id createdAt barber service hres hoffer =>
      exact effect_insert rfl (orSlotTaken_eq_ok_iff.mp h)
  | moved user id newStart now a isStaff barber service t hst htu hrow hentitled
      hactive hintime hres hoffer =>
      exact effect_update rfl (orSlotTaken_eq_ok_iff.mp h)
  | cancelled user id reason now a isStaff hsaw hentitled hactive hintime =>
      exact effect_update rfl h
  | confirmed user id a hsaw hentitled hpending => exact effect_update rfl h
  | closedOut user id target now a hop hsaw hentitled hactive hstarted =>
      have habout : op.about = some id := by
        rcases hop with ⟨rfl, -⟩ | ⟨rfl, -⟩
        · rfl
        · rfl
      exact effect_update habout h
  | expired now stale t hst htu hstale =>
      refine ⟨Database.sameTimetable_of_appointments (expired_frame h), ?_⟩
      intro id hid
      exact absurd hid.symm (Option.some_ne_none _)

end

/-! ## Any interleaving -/

variable {ι : Type} [DecidableEq ι]

omit [DecidableEq ι] in
/-- Whatever is committed in between, every commit has the effect of its
operation. -/
theorem bookingPool_effects
    (env : Env) (ops : ι → BookingOp) (db : Database) :
    (bookingPool env ops db).Verified (fun _ => True) (fun _ _ => True)
      (fun _ => Database.SameDirectory) (fun i => BookingEffect (ops i))
      (fun _ _ _ => True) (fun _ _ _ => True) where
  isRely _ := isRely_sameDirectory
  init := trivial
  begin_init _ := trivial
  start i s _ _ := by
    have hwrites := atCommits_transaction isRely_sameDirectory (fun _ _ h => h)
      env (ops i) s
    have hlearns := AtCommits.learns (hwrites.mono fun w t hw t' h =>
      hw.effect h)
    exact Ensures.mono hlearns (fun _ _ h => h) fun _ _ _ => trivial
  inv _ _ _ _ _ := trivial
  begin_keep _ _ _ _ _ _ _ _ := trivial
  compat _ _ _ _ _ _ h _ := h.timetable.directory
  answer _ _ _ _ _ _ _ _ _ := trivial

theorem isRely_sameTimetable : IsRely Database.SameTimetable where
  refl s := ⟨.refl s, rfl, rfl⟩
  trans h h' := ⟨h.directory.trans h'.directory, h.closures.trans h'.closures,
    h.breaks.trans h'.breaks⟩

/-- In every committed state of every interleaving of booking operations, a day
without its appointments has the slots it had at the start, and those on offer
are the ones among them that no active appointment takes. -/
theorem offer_is_grid_less_bookings
    (env : Env) (ops : ι → BookingOp) (db : Database) (schedule : List ι) :
    let s := ((bookingPool env ops db).exec schedule).committed
    ∀ (barberId : Uuid) (day : ℤ) (serviceId : Uuid) (now : ℤ)
      (exclude : Option Uuid),
      ((availableSlots env barberId day serviceId now exclude true).run s).1 =
          ((availableSlots env barberId day serviceId now exclude true).run
            db).1 ∧
        ∀ grid offer,
          (availableSlots env barberId day serviceId now exclude true).run db =
            (.ok grid, db) →
          (availableSlots env barberId day serviceId now exclude false).run s =
            (.ok offer, s) →
          offer = grid.keep fun start stop =>
            ¬ s.Taken barberId exclude start stop := by
  intro s barberId day serviceId now exclude
  have hrelated : ((bookingPool env ops db).exec []).committed.SameTimetable
      ((bookingPool env ops db).exec ([] ++ schedule)).committed :=
    Verified.related (bookingPool_effects env ops db) isRely_sameTimetable
      (fun _ _ _ _ h => h.timetable) fun _ _ _ _ _ _ => trivial
  have hsame : db.SameTimetable s := hrelated
  have hgrid := (respects_grid env barberId day serviceId now exclude).run_eq
    hsame
  refine ⟨hgrid.symm, ?_⟩
  intro grid offer hstart hoffer
  rw [hstart] at hgrid
  have hread := (readOnly_availableSlots env barberId day serviceId now exclude
    true).run_state s
  exact offer_eq_grid_keep (Prod.ext hgrid.symm hread) hoffer

/-- The customer cancels the booking at nine and books ten o'clock instead. -/
def rebook : Bool → BookingOp
  | false => .cancel Sample.customer 40 none (Sample.clock 6 0)
  | true => .create Sample.customer ⟨20, 30, Sample.start 10 0⟩
      (Sample.clock 6 0) 41 (Sample.clock 6 0)

/-- Of the slots of the day those that overlap the half hour from ten on are
gone. -/
theorem offer_is_grid_less_bookings_rebooked :
    let s := ((bookingPool Sample.env rebook Sample.bookedDb).exec
      (List.replicate 10 false ++ List.replicate 20 true)).committed
    ∃ grid offer,
      (availableSlots Sample.env 20 Sample.monday 30 (Sample.clock 7 0) none
        true).run Sample.bookedDb = (.ok grid, Sample.bookedDb) ∧
      (availableSlots Sample.env 20 Sample.monday 30 (Sample.clock 7 0) none
        false).run s = (.ok offer, s) ∧
      (offer = grid.keep fun start stop => ¬ s.Taken 20 none start stop) ∧
      grid.slots.length = 31 ∧ offer.slots.length = 28 := by
  intro s
  obtain ⟨grid, hgrid, hall⟩ : ∃ grid,
      (availableSlots Sample.env 20 Sample.monday 30 (Sample.clock 7 0) none
        true).run Sample.bookedDb = (.ok grid, Sample.bookedDb) ∧
          (fun grid => decide (grid.slots.length = 31)) grid = true :=
    exists_offer_of_any (by decide +kernel)
  obtain ⟨offer, hoffer, hleft⟩ : ∃ offer,
      (availableSlots Sample.env 20 Sample.monday 30 (Sample.clock 7 0) none
        false).run s = (.ok offer, s) ∧
          (fun offer => decide (offer.slots.length = 28)) offer = true :=
    exists_offer_of_any (by decide +kernel)
  exact ⟨grid, offer, hgrid, hoffer,
    (offer_is_grid_less_bookings Sample.env rebook Sample.bookedDb _ 20
      Sample.monday 30 (Sample.clock 7 0) none).2 grid offer hgrid hoffer,
    of_decide_eq_true hall, of_decide_eq_true hleft⟩

/-- A commit by an operation on an appointment, in any interleaving: leaving
that appointment out, every answer is what it was; and counting it, before the
commit and after it, the slots it takes then are missing and no others. -/
theorem commit_moves_own_slots
    (env : Env) (ops : ι → BookingOp) (db : Database) (schedule : List ι)
    (i : ι) (id : Uuid) (habout : (ops i).about = some id) :
    let s := ((bookingPool env ops db).exec schedule).committed
    let s' := ((bookingPool env ops db).exec (schedule ++ [i])).committed
    ∀ (barberId : Uuid) (day : ℤ) (serviceId : Uuid) (now : ℤ),
      ((availableSlots env barberId day serviceId now (some id) false).run
          s').1 =
        ((availableSlots env barberId day serviceId now (some id) false).run
          s).1 ∧
        ∀ without,
          (availableSlots env barberId day serviceId now (some id) false).run
            s = (.ok without, s) →
          (∀ before,
            (availableSlots env barberId day serviceId now none false).run s =
              (.ok before, s) →
            before = without.keep fun start stop =>
              ¬ s.TakenBy barberId id start stop) ∧
          ∀ after,
            (availableSlots env barberId day serviceId now none false).run s' =
              (.ok after, s') →
            after = without.keep fun start stop =>
              ¬ s'.TakenBy barberId id start stop := by
  intro s s' barberId day serviceId now
  have hbesides : s.SameBesides id s' := by
    have htolerant : (bookingPool env ops db).Tolerant (fun _ _ _ => True)
        (schedule ++ [i]) := fun _ _ _ _ _ _ => trivial
    have hstep := (bookingPool_effects env ops db).step_commits htolerant
    rw [← exec_concat] at hstep
    rcases hstep with heq | heffect
    · rw [show s' = s from heq]
      exact ⟨isRely_sameTimetable.refl s, Eq.refl _⟩
    · exact ⟨heffect.timetable, heffect.others id habout⟩
  have hsame := (respects_offerWithout env barberId day serviceId now id).run_eq
    hbesides
  refine ⟨hsame.symm, ?_⟩
  intro without hwithout
  refine ⟨fun before hbefore => offer_eq_without_keep hwithout hbefore, ?_⟩
  intro after hafter
  rw [hwithout] at hsame
  have hread := (readOnly_availableSlots env barberId day serviceId now
    (some id) false).run_state s'
  exact offer_eq_without_keep (Prod.ext hsame.symm hread) hafter

/-- The commit that books ten o'clock takes three slots. -/
theorem commit_moves_own_slots_rebooked :
    let c := bookingPool Sample.env rebook Sample.bookedDb
    let schedule := List.replicate 10 false ++ List.replicate 11 true
    let s := (c.exec schedule).committed
    let s' := (c.exec (schedule ++ [true])).committed
    ∃ before after,
      (availableSlots Sample.env 20 Sample.monday 30 (Sample.clock 7 0)
        (some 41) false).run s = (.ok before, s) ∧
      (availableSlots Sample.env 20 Sample.monday 30 (Sample.clock 7 0) none
        false).run s' = (.ok after, s') ∧
      (after = before.keep fun start stop => ¬ s'.TakenBy 20 41 start stop) ∧
      before.slots.length = 31 ∧ after.slots.length = 28 := by
  intro c schedule s s'
  obtain ⟨before, hbefore, hall⟩ : ∃ before,
      (availableSlots Sample.env 20 Sample.monday 30 (Sample.clock 7 0)
        (some 41) false).run s = (.ok before, s) ∧
          (fun before => decide (before.slots.length = 31)) before = true :=
    exists_offer_of_any (by decide +kernel)
  obtain ⟨after, hafter, hleft⟩ : ∃ after,
      (availableSlots Sample.env 20 Sample.monday 30 (Sample.clock 7 0) none
        false).run s' = (.ok after, s') ∧
          (fun after => decide (after.slots.length = 28)) after = true :=
    exists_offer_of_any (by decide +kernel)
  refine ⟨before, after, hbefore, hafter, ?_, of_decide_eq_true hall,
    of_decide_eq_true hleft⟩
  obtain ⟨-, hcompared⟩ := commit_moves_own_slots Sample.env rebook
    Sample.bookedDb schedule true 41 rfl 20 Sample.monday 30 (Sample.clock 7 0)
  exact (hcompared before hbefore).2 after hafter

end BarberHub
