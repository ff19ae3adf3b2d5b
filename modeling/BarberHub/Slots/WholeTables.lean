import BarberHub.Slots.Bookable

/-!
# Fetching one day loses nothing

`available_slots` fetches the rows that meet one local day and clips them to
it.  This module compares it with the plain definition of a free slot, which
looks at the whole tables and at whole intervals: shifts as `working_interval`
converts them, breaks and appointments wherever they lie.
-/

namespace BarberHub

open HalfOpen ReadCommitted Program

/-- The span of a booking that starts at `t`. -/
def Service.span (service : Service) (t x : ℤ) : Prop :=
  t ≤ x ∧ x < t + service.duration

/-- The plain definition of a start that ought to be shown. -/
structure FreeStart (env : Env) (db : Database) (barberId : Uuid)
    (shop : Barbershop) (service : Service) (day now : ℤ)
    (exclude : Option Uuid) (ignoreAppointments : Bool) (window : Interval)
    (t : ℤ) : Prop where
  no_closure : ∀ c ∈ db.shopClosures, c.shopId = shop.id →
    ¬ (c.startDate ≤ day ∧ day ≤ c.endDate)
  lead : now + minutes env.settings.minBookingLeadMinutes ≤ t
  on_grid : ∃ k : ℤ, t - dayStart (env.shopTimezone shop) day =
    k * minutes env.settings.slotStepMinutes
  in_day : ∀ x, service.span t x → x ∈ window
  at_work : ∀ x, service.span t x → ∃ row ∈ db.workingHours,
    row.barberId = barberId ∧ row.weekday = weekday day ∧
      ∃ I, workingInterval day row.startTime row.endTime
        (env.shopTimezone shop) = .ok (some I) ∧ x ∈ I
  no_break : ∀ b ∈ db.barberBreaks, b.barberId = barberId →
    ∀ x, service.span t x → ¬ (b.startDatetime ≤ x ∧ x < b.endDatetime)
  no_appointment : ignoreAppointments = false → ∀ a ∈ db.appointments,
    a.barberId = barberId → a.status.blocksSlot = true →
      exclude ≠ some a.id →
        ∀ x, service.span t x → ¬ (a.startTime ≤ x ∧ x < a.endTime)

section

variable {env : Env} {db : Database} {barberId : Uuid} {shop : Barbershop}
  {service : Service} {day now : ℤ} {exclude : Option Uuid}
  {ignoreAppointments : Bool} {window : Interval} {t : ℤ}

/-- The shifts of the weekday are those that could be converted. -/
theorem inShift_of_workingInterval
    {tz : Zone} {x : ℤ} {row : WorkingHours} (hrow : row ∈ db.workingHours)
    (hbarber : row.barberId = barberId) (hday : row.weekday = weekday day)
    {I : Interval} (hI : workingInterval day row.startTime row.endTime tz =
      .ok (some I)) (hx : x ∈ I) : db.InShift tz barberId day x := by
  rcases workingInterval_eq_ok_iff.mp hI with ⟨-, hnone⟩ | ⟨hlt, J, hJ, hIJ⟩
  · simp at hnone
  · obtain rfl := Option.some.inj hIJ
    obtain ⟨-, -, hstart, hstop⟩ := Interval.ofWall_eq_ok_iff.mp hJ
    rw [Interval.mem_def, hstart, hstop] at hx
    exact ⟨row, hrow, hbarber, hday, hlt, hx⟩

/-- When the shifts of the weekday could be converted, an instant in a shift
lies in one of the intervals. -/
theorem exists_workingInterval_of_inShift
    {tz : Zone} {shifts : List (Option Interval)}
    (hshifts : ((db.hoursOn barberId day).mapM fun row =>
      workingInterval day row.startTime row.endTime tz) = .ok shifts) {x : ℤ}
    (h : db.InShift tz barberId day x) :
    ∃ row ∈ db.workingHours, row.barberId = barberId ∧
      row.weekday = weekday day ∧
        ∃ I, workingInterval day row.startTime row.endTime tz =
          .ok (some I) ∧ x ∈ I := by
  obtain ⟨row, hrow, hbarber, hday, hlt, hx⟩ := h
  have hmem : row ∈ db.hoursOn barberId day := by
    simp [Database.hoursOn, hrow, hbarber, hday]
  obtain ⟨shift, -, hshift⟩ := Fallible.exists_result_of_mem hshifts hmem
  rcases workingInterval_eq_ok_iff.mp hshift with ⟨hle, -⟩ | ⟨-, I, hI, rfl⟩
  · exact absurd hlt (Fin.not_lt.mpr hle)
  · obtain ⟨-, -, hstart, hstop⟩ := Interval.ofWall_eq_ok_iff.mp hI
    refine ⟨row, hrow, hbarber, hday, I, hshift, ?_⟩
    rw [Interval.mem_def, hstart, hstop]
    exact hx

theorem FreeStart.bookable
    (hpositive : 0 < service.duration)
    (hwindow : localDayBounds day (env.shopTimezone shop) = .ok window)
    (h : FreeStart env db barberId shop service day now exclude
      ignoreAppointments window t) :
    Bookable env db barberId shop service day now exclude ignoreAppointments
      t where
  positive := hpositive
  is_open := by
    rintro ⟨c, hc, hshop, hcovers⟩
    exact h.no_closure c hc hshop hcovers
  lead := h.lead
  on_grid := by
    obtain ⟨k, hk⟩ := h.on_grid
    exact ⟨k, by rw [hk, mul_comm, Env.slotStep]⟩
  in_day x hx hx' := by
    obtain ⟨-, -, -, hstart, hstop⟩ := localDayBounds_eq_ok_iff.mp hwindow
    have hin := h.in_day x ⟨hx, hx'⟩
    rw [Interval.mem_def, hstart, hstop] at hin
    exact hin
  in_shift x hx hx' := by
    obtain ⟨row, hrow, hbarber, hday, I, hI, hmem⟩ := h.at_work x ⟨hx, hx'⟩
    exact inShift_of_workingInterval hrow hbarber hday hI hmem
  no_break x hx hx' := by
    rintro ⟨b, hb, hbarber, hin⟩
    exact h.no_break b hb hbarber x ⟨hx, hx'⟩ hin
  no_appointment hcounts x hx hx' := by
    rintro ⟨a, ha, hbarber, hactive, hexclude, hin⟩
    exact h.no_appointment hcounts a ha hbarber hactive hexclude x ⟨hx, hx'⟩ hin

theorem Bookable.freeStart
    {shifts : List (Option Interval)}
    (hwindow : localDayBounds day (env.shopTimezone shop) = .ok window)
    (hshifts : ((db.hoursOn barberId day).mapM fun row =>
      workingInterval day row.startTime row.endTime (env.shopTimezone shop)) =
        .ok shifts)
    (h : Bookable env db barberId shop service day now exclude
      ignoreAppointments t) :
    FreeStart env db barberId shop service day now exclude ignoreAppointments
      window t where
  no_closure c hc hshop hcovers := h.is_open ⟨c, hc, hshop, hcovers⟩
  lead := h.lead
  on_grid := by
    obtain ⟨k, hk⟩ := h.on_grid
    exact ⟨k, by rw [hk, mul_comm, Env.slotStep]⟩
  in_day x hx := by
    obtain ⟨-, -, -, hstart, hstop⟩ := localDayBounds_eq_ok_iff.mp hwindow
    rw [Interval.mem_def, hstart, hstop]
    exact h.in_day x hx.1 hx.2
  at_work x hx :=
    exists_workingInterval_of_inShift hshifts (h.in_shift x hx.1 hx.2)
  no_break b hb hbarber x hx hin :=
    h.no_break x hx.1 hx.2 ⟨b, hb, hbarber, hin⟩
  no_appointment hcounts a ha hbarber hactive hexclude x hx hin :=
    h.no_appointment hcounts x hx.1 hx.2 ⟨a, ha, hbarber, hactive, hexclude, hin⟩

/-- Unless the shop is closed, every shift of the weekday has been converted
before anything is shown. -/
theorem Cuts.exists_shifts
    {slots : List Interval}
    (h : Cuts env db barberId shop service day now exclude ignoreAppointments
      window slots) :
    db.ClosedOn shop.id day ∨ ∃ shifts, ((db.hoursOn barberId day).mapM
      fun row => workingInterval day row.startTime row.endTime
        (env.shopTimezone shop)) = .ok shifts := by
  cases h with
  | closed hclosed => exact Or.inl hclosed
  | off _ hshifts _ => exact Or.inr ⟨_, hshifts⟩
  | cut _ hshifts _ _ _ _ => exact Or.inr ⟨_, hshifts⟩

end

/-- What `available_slots` shows for a barber, a service and a day, compared
with the whole tables. -/
structure ShowsFreeStarts (env : Env) (db : Database) (barberId : Uuid)
    (day : ℤ) (serviceId : Uuid) (now : ℤ) (exclude : Option Uuid)
    (ignoreAppointments : Bool) (offer : AvailabilityRead)
    (barber : Barber) (shop : Barbershop) (service : Service)
    (window : Interval) : Prop where
  sells : db.Sells barberId serviceId barber shop service
  bounds : localDayBounds day (env.shopTimezone shop) = .ok window
  starts_iff : ∀ t, (∃ slot ∈ offer.slots, slot.start = t) ↔
    FreeStart env db barberId shop service day now exclude ignoreAppointments
      window t

/-- For every state of the database and every request that is answered: the
starts shown are the free starts of the whole tables. -/
theorem availableSlots_whole_tables
    {env : Env} {db db' : Database} {barberId : Uuid} {day : ℤ}
    {serviceId : Uuid} {now : ℤ} {exclude : Option Uuid}
    {ignoreAppointments : Bool} {offer : AvailabilityRead} (hdb : db.Valid)
    (h : (availableSlots env barberId day serviceId now exclude
      ignoreAppointments).run db = (.ok offer, db')) :
    ∃ barber shop service window, ShowsFreeStarts env db barberId day serviceId
      now exclude ignoreAppointments offer barber shop service window := by
  obtain ⟨-, barber, shop, service, window, slots, hsells, hwindow, hcuts,
    hrender⟩ := run_availableSlots_eq_ok_iff.mp h
  have hpositive : 0 < service.duration := by
    have hchecked := hdb.checks.services service
      (KeyedTable.mem_of_lookup hsells.service_eq)
    have := hchecked.1
    unfold Service.duration minutes
    omega
  refine ⟨barber, shop, service, window, hsells, hwindow, ?_⟩
  intro t
  rw [exists_rendered_iff hrender fun s _ => s = t, hcuts.starts_iff hwindow]
  constructor
  · intro hbookable
    rcases hcuts.exists_shifts with hclosed | ⟨shifts, hshifts⟩
    · exact absurd hclosed hbookable.is_open
    · exact hbookable.freeStart hwindow hshifts
  · intro hfree
    exact hfree.bookable hpositive hwindow

/-- On the sample Monday with one booking. -/
theorem availableSlots_whole_tables_monday :
    ∃ offer barber shop service window, ShowsFreeStarts Sample.env
      Sample.bookedDb 20 Sample.monday 30 (Sample.clock 7 0) none false offer
      barber shop service window := by
  obtain ⟨offer, hoffer⟩ : ∃ offer,
      ((availableSlots Sample.env 20 Sample.monday 30 (Sample.clock 7 0) none
        false).run Sample.bookedDb).1 = .ok offer := by
    have hsome : ((availableSlots Sample.env 20 Sample.monday 30
        (Sample.clock 7 0) none false).run
          Sample.bookedDb).1.toOption.isSome := by
      decide
    cases hrun : ((availableSlots Sample.env 20 Sample.monday 30
        (Sample.clock 7 0) none false).run Sample.bookedDb).1 with
    | error e => simp [hrun, Except.toOption] at hsome
    | ok offer => exact ⟨offer, rfl⟩
  exact ⟨offer, availableSlots_whole_tables Sample.bookedDb_valid
    (Prod.ext hoffer rfl)⟩

end BarberHub
