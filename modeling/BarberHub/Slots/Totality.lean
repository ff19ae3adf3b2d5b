import BarberHub.Slots.Interference

/-!
# When the availability endpoint answers

The endpoint refuses a barber or a service that cannot be booked with its own
errors.  Everything else it can raise comes from building an interval whose
ends are out of order as instants, or from leaving the range of Python's
datetimes.  This module says exactly when neither happens.
-/

namespace BarberHub

open HalfOpen ReadCommitted Program Fallible

/-- `NotFoundError` or `ValidationError`. -/
def Raised.IsRefusal (e : Raised) : Prop :=
  e.cls = some .notFoundError ∨ e.cls = some .validationError

/-- Not an `AppError`: the request is answered with a 500. -/
def Raised.IsCrash (e : Raised) : Prop :=
  e.cls = none

theorem Raised.IsCrash.not_isRefusal {e : Raised} (h : e.IsCrash) :
    ¬ e.IsRefusal := by
  rw [IsCrash] at h
  simp [IsRefusal, h]

/-- Raised by the arithmetic of datetimes and intervals. -/
def Raised.OfCalendar (e : Raised) : Prop :=
  e = .valueError ∨ e = .overflowError

theorem Raised.OfCalendar.isCrash {e : Raised} (h : e.OfCalendar) :
    e.IsCrash := by
  rcases h with rfl | rfl
  · rfl
  · rfl

/-- The request is answered, or refused. -/
def Survives {α : Type} (r : Except Raised α) : Prop :=
  ∀ e, r = .error e → e.IsRefusal

/-! ## What the state must be like -/

/-- The local day begins and ends in the calendar, and in that order. -/
structure DayInOrder (tz : Zone) (day : ℤ) : Prop where
  next : day < dateMax
  start : Representable (dayStart tz day)
  stop : Representable (dayStart tz (day + 1))
  lt : dayStart tz day < dayStart tz (day + 1)

/-- Every shift of the weekday begins and ends in the calendar, and as instants
in the order in which it does on the clock. -/
def Database.ShiftsInOrder (db : Database) (tz : Zone) (barberId : Uuid)
    (day : ℤ) : Prop :=
  ∀ row ∈ db.hoursOn barberId day,
    Representable (tz.toInstant (combine day row.startTime)) ∧
    Representable (tz.toInstant (combine day row.endTime)) ∧
    tz.toInstant (combine day row.startTime) <
      tz.toInstant (combine day row.endTime)

/-- Cutting the day into slots stays in the calendar: the earliest start, the
end of every booking tried in a stretch of free time, and what the shop's
clock shows at both ends of every slot. -/
structure GridInCalendar (env : Env) (db : Database) (barberId : Uuid)
    (shop : Barbershop) (service : Service) (day now : ℤ)
    (exclude : Option Uuid) (ignoreAppointments : Bool) : Prop where
  step_pos : 0 < env.slotStep
  lead : Representable (now + env.bookingLead)
  tried : ∀ a b, IsStretch (FreeAt env db barberId shop day exclude
      ignoreAppointments) a b →
    ∀ t, Tries a b service.duration env.slotStep (now + env.bookingLead)
      (dayStart (env.shopTimezone shop) day) t →
    t + service.duration ≤ datetimeMax
  shown : ∀ t, Bookable env db barberId shop service day now exclude
      ignoreAppointments t →
    Representable ((env.shopTimezone shop).toWall t) ∧
    Representable ((env.shopTimezone shop).toWall (t + service.duration))

/-- The computation for a local day can be carried through, as far as it goes:
it stops at a closure, and where there are no shifts. -/
def DayComputable (env : Env) (db : Database) (barberId : Uuid)
    (shop : Barbershop) (service : Service) (day now : ℤ)
    (exclude : Option Uuid) (ignoreAppointments : Bool) : Prop :=
  DayInOrder (env.shopTimezone shop) day ∧
    (db.ClosedOn shop.id day ∨
      db.ShiftsInOrder (env.shopTimezone shop) barberId day ∧
        (db.hoursOn barberId day = [] ∨
          GridInCalendar env db barberId shop service day now exclude
            ignoreAppointments))

/-! ## Refusals and crashes -/

section

variable {P : Raised → Prop}

theorem raises_rowOr {α : Type} {e : Raised} (h : P e) (row : Option α) :
    (rowOr e row).Raises P := by
  cases row with
  | none => exact raises_raise h
  | some row => exact raises_pure row

theorem raises_require (p : Prop) [Decidable p] {e : Raised} (h : P e) :
    (require p e).Raises P := by
  rw [require]
  split
  · exact raises_pure ()
  · exact raises_raise h

end

theorem raises_loadAndValidate (barberId serviceId : Uuid) :
    (loadAndValidate barberId serviceId).Raises Raised.IsRefusal := by
  rw [loadAndValidate]
  have hrow : ∀ {α : Type} (message : String) (row : Option α),
      (rowOr (notFound message) row).Raises Raised.IsRefusal :=
    fun message row => raises_rowOr (Or.inl rfl) row
  have hrequire : ∀ (p : Prop) [Decidable p] (message : String)
      (details : List (String × Detail)),
      (require p (validationError message details)).Raises Raised.IsRefusal :=
    fun p _ message details => raises_require p (Or.inr rfl)
  refine (raises_query _).bind fun found => (hrow _ _).bind fun pair => ?_
  refine (raises_query _).bind fun found' => (hrow _ _).bind fun shop => ?_
  refine (raises_query _).bind fun row => (hrow _ _).bind fun service => ?_
  exact (hrequire _ _ _).bind fun _ => (hrequire _ _ _).bind fun _ =>
    raises_pure _

theorem raisesOnly_representable (x : ℤ) :
    Fallible.RaisesOnly Raised.OfCalendar (representable x) := by
  rw [representable]
  split
  · exact raisesOnly_ok _ x
  · exact raisesOnly_error (Or.inr rfl)

theorem raisesOnly_new (start stop : ℤ) :
    Fallible.RaisesOnly Raised.OfCalendar (Interval.new start stop) := by
  rw [Interval.new]
  split
  · exact raisesOnly_ok _ _
  · exact raisesOnly_error (Or.inl rfl)

theorem raisesOnly_ofWall (tz : Zone) (s e : ℤ) :
    Fallible.RaisesOnly Raised.OfCalendar (Interval.ofWall tz s e) :=
  (raisesOnly_representable _).bind fun _ =>
    (raisesOnly_representable _).bind fun _ => raisesOnly_new _ _

theorem raisesOnly_localDayBounds (day : ℤ) (tz : Zone) :
    Fallible.RaisesOnly Raised.OfCalendar (localDayBounds day tz) := by
  rw [localDayBounds]
  split
  · exact raisesOnly_error (Or.inr rfl)
  · exact raisesOnly_ofWall tz _ _

theorem raisesOnly_workingInterval (day : ℤ) (s e : TimeOfDay) (tz : Zone) :
    Fallible.RaisesOnly Raised.OfCalendar (workingInterval day s e tz) := by
  rw [workingInterval]
  split
  · exact raisesOnly_ok _ _
  · exact (raisesOnly_ofWall tz _ _).map some

theorem raisesOnly_freeSlots (env : Env) (service : Service) (now : ℤ)
    (window : Interval) (shifts busy : List Interval) :
    Fallible.RaisesOnly Raised.OfCalendar
      (freeSlots env service now window shifts busy) := by
  unfold freeSlots computeFreeSlots slotsIn
  apply (raisesOnly_representable _).bind
  intro notBefore
  refine Fallible.RaisesOnly.bind ?_ ?_
  · split
    · exact raisesOnly_ok _ _
    · exact raisesOnly_error (Or.inl rfl)
  · intro slots
    split
    · exact raisesOnly_ok _ _
    · exact raisesOnly_error (Or.inr rfl)

theorem raisesOnly_render (day : ℤ) (tz : Zone) (barberId : Uuid)
    (service : Service) (slots : List Interval) :
    Fallible.RaisesOnly Raised.OfCalendar (render day tz barberId service slots) :=
  (raisesOnly_mapM slots fun _ => (raisesOnly_representable _).bind fun _ =>
    (raisesOnly_representable _).bind fun _ => raisesOnly_ok _ _).bind
      fun _ => raisesOnly_ok _ _

/-- After the checks, all that is raised comes from datetimes and intervals. -/
theorem raises_slotsOnOpenDay (env : Env) (barberId : Uuid) (day : ℤ)
    (tz : Zone) (service : Service) (now : ℤ) (exclude : Option Uuid)
    (ignoreAppointments : Bool) (window : Interval) :
    (slotsOnOpenDay env barberId day tz service now exclude ignoreAppointments
      window).Raises Raised.OfCalendar := by
  unfold slotsOnOpenDay slotsOnWorkingDay shiftsFor taken appointments breaks
  have hrender := raisesOnly_render day tz barberId service
  apply ((raises_query _).bind fun rows => (raises_ofExcept
    (raisesOnly_mapM rows fun _ => raisesOnly_workingInterval _ _ _ _)).bind
      fun shifts => raises_pure _).bind
  intro shifts
  split
  · exact raises_ofExcept (hrender [])
  refine Raises.bind ?_ ?_
  · split
    · exact raises_pure _
    · exact (raises_query _).bind fun rows => raises_ofExcept
        (raisesOnly_mapM rows fun _ => raisesOnly_new _ _)
  intro taken
  apply ((raises_query _).bind fun rows => raises_ofExcept
    (raisesOnly_mapM rows fun _ => raisesOnly_new _ _)).bind
  intro blocked
  exact (raises_ofExcept (raisesOnly_freeSlots _ _ _ _ _ _)).bind
    fun slots => raises_ofExcept (hrender slots)

theorem raises_slotsOnDay (env : Env) (barberId : Uuid) (day : ℤ)
    (shop : Barbershop) (service : Service) (now : ℤ) (exclude : Option Uuid)
    (ignoreAppointments : Bool) :
    (slotsOnDay env barberId day shop service now exclude
      ignoreAppointments).Raises Raised.OfCalendar := by
  refine (raises_ofExcept (raisesOnly_localDayBounds _ _)).bind fun window =>
    (raises_query _).bind fun closed => ?_
  split
  · exact raises_ofExcept (raisesOnly_render _ _ _ _ _)
  · exact raises_slotsOnOpenDay _ _ _ _ _ _ _ _ _

/-- The endpoint raises nothing but refusals and what comes from datetimes. -/
theorem raises_availableSlots (env : Env) (barberId : Uuid) (day : ℤ)
    (serviceId : Uuid) (now : ℤ) (exclude : Option Uuid)
    (ignoreAppointments : Bool) :
    (availableSlots env barberId day serviceId now exclude
      ignoreAppointments).Raises fun e => e.IsRefusal ∨ e.OfCalendar := by
  rw [availableSlots_eq]
  apply ((raises_loadAndValidate _ _).mono fun _ => Or.inl).bind
  rintro ⟨_, shop, service⟩
  exact (raises_slotsOnDay env barberId day shop service now exclude
    ignoreAppointments).mono fun _ => Or.inr

/-- With the checks passed, the request survives exactly when it is
answered. -/
theorem survives_iff_exists_offer
    {env : Env} {db : Database} {barberId : Uuid} {day : ℤ} {serviceId : Uuid}
    {now : ℤ} {exclude : Option Uuid} {ignoreAppointments : Bool}
    {barber : Barber} {shop : Barbershop} {service : Service}
    (hsells : db.Sells barberId serviceId barber shop service) :
    Survives ((availableSlots env barberId day serviceId now exclude
        ignoreAppointments).run db).1 ↔
      ∃ offer, (availableSlots env barberId day serviceId now exclude
        ignoreAppointments).run db = (.ok offer, db) := by
  constructor
  · intro hsurvives
    rcases hrun : (availableSlots env barberId day serviceId now exclude
      ignoreAppointments).run db with ⟨e | offer, t⟩
    · rw [hrun] at hsurvives
      rw [availableSlots_eq, run_bind_of_ok
        (run_loadAndValidate_eq_ok_iff.mpr ⟨hsells, rfl⟩)] at hrun
      have hcrash := (raises_slotsOnDay env barberId day shop service now
        exclude ignoreAppointments).raisesOnly
          (readOnly_slotsOnDay env barberId day shop service now exclude
            ignoreAppointments) db t e hrun
      exact absurd (hsurvives e rfl) hcrash.isCrash.not_isRefusal
    · obtain rfl := (readOnly_availableSlots _ _ _ _ _ _ _).eq_of_run hrun
      exact ⟨offer, rfl⟩
  · rintro ⟨offer, hrun⟩ e he
    rw [hrun] at he
    simp at he

/-! ## The computation for a day -/

theorem exists_localDayBounds_iff {day : ℤ} {tz : Zone} :
    (∃ window, localDayBounds day tz = .ok window) ↔ DayInOrder tz day := by
  constructor
  · rintro ⟨window, hwindow⟩
    obtain ⟨hnext, hstart, hstop, heq, heq'⟩ :=
      localDayBounds_eq_ok_iff.mp hwindow
    refine ⟨hnext, hstart, hstop, ?_⟩
    rw [← heq, ← heq']
    exact window.start_lt_stop
  · intro h
    exact ⟨⟨_, _, h.lt⟩, localDayBounds_eq_ok_iff.mpr
      ⟨h.next, h.start, h.stop, rfl, rfl⟩⟩

/-- The shifts can be converted exactly when they are in order; none of them
is dropped. -/
theorem exists_shifts_iff
    {db : Database} (hchecked : ∀ row ∈ db.workingHours, row.Checked)
    {tz : Zone} {barberId : Uuid} {day : ℤ} :
    (∃ shifts, ((db.hoursOn barberId day).mapM fun row =>
        workingInterval day row.startTime row.endTime tz) = .ok shifts) ↔
      db.ShiftsInOrder tz barberId day := by
  have hlt : ∀ row ∈ db.hoursOn barberId day, row.startTime < row.endTime :=
    fun row hrow => (hchecked row (List.mem_of_mem_filter hrow)).2.2
  constructor
  · rintro ⟨shifts, hshifts⟩ row hrow
    obtain ⟨shift, -, hshift⟩ := exists_result_of_mem hshifts hrow
    rcases workingInterval_eq_ok_iff.mp hshift with ⟨hle, -⟩ | ⟨-, I, hI, -⟩
    · exact absurd (hlt row hrow) (Fin.not_lt.mpr hle)
    · obtain ⟨hstart, hstop, heq, heq'⟩ := Interval.ofWall_eq_ok_iff.mp hI
      refine ⟨hstart, hstop, ?_⟩
      rw [← heq, ← heq']
      exact I.start_lt_stop
  · intro h
    apply exists_mapM_eq_ok
    intro row hrow
    obtain ⟨hstart, hstop, horder⟩ := h row hrow
    exact ⟨some ⟨_, _, horder⟩, workingInterval_eq_ok_iff.mpr (Or.inr
      ⟨hlt row hrow, _, Interval.ofWall_eq_ok_iff.mpr
        ⟨hstart, hstop, rfl, rfl⟩, rfl⟩)⟩

/-- The barber is off exactly when there is no shift on that weekday. -/
theorem reduceOption_eq_nil_iff
    {db : Database} (hchecked : ∀ row ∈ db.workingHours, row.Checked)
    {tz : Zone} {barberId : Uuid} {day : ℤ} {shifts : List (Option Interval)}
    (hshifts : ((db.hoursOn barberId day).mapM fun row =>
      workingInterval day row.startTime row.endTime tz) = .ok shifts) :
    shifts.reduceOption = [] ↔ db.hoursOn barberId day = [] := by
  constructor
  · intro hoff
    rw [List.eq_nil_iff_forall_not_mem] at hoff ⊢
    intro row hrow
    have hlt := (hchecked row (List.mem_of_mem_filter hrow)).2.2
    obtain ⟨shift, hmem, hshift⟩ := exists_result_of_mem hshifts hrow
    rcases workingInterval_eq_ok_iff.mp hshift with ⟨hle, -⟩ | ⟨-, I, -, rfl⟩
    · exact absurd hlt (Fin.not_lt.mpr hle)
    · exact hoff I (List.reduceOption_mem_iff.mpr hmem)
  · intro hnone
    rw [hnone] at hshifts
    obtain rfl := Except.ok.inj hshifts
    rfl

theorem exists_blocked
    {db : Database}
    (hchecked : ∀ b ∈ db.barberBreaks, b.startDatetime < b.endDatetime)
    (barberId : Uuid) (window : Interval) :
    ∃ blocked, ((db.breaksIn barberId window).mapM fun b =>
      Interval.new b.startDatetime b.endDatetime) = .ok blocked :=
  exists_mapM_eq_ok fun b hb =>
    ⟨⟨_, _, hchecked b (List.mem_of_mem_filter hb)⟩,
      Interval.new_eq_ok_iff.mpr ⟨rfl, rfl⟩⟩

section

variable {env : Env} {db : Database} {barberId : Uuid} {shop : Barbershop}
  {service : Service} {day now : ℤ} {exclude : Option Uuid}
  {ignoreAppointments : Bool} {window : Interval}
  {shifts : List (Option Interval)} {taken blocked : List Interval}

/-- Free time begins in the calendar, since the day does. -/
theorem free_start_le
    (hwindow : localDayBounds day (env.shopTimezone shop) = .ok window)
    {busy : List Interval} :
    ∀ span ∈ subtract (normalize (clip shifts.reduceOption window)) busy,
      datetimeMin ≤ span.start := by
  intro span hspan
  obtain ⟨-, hlow, -, hstart, -⟩ := localDayBounds_eq_ok_iff.mp hwindow
  have hcov : Covered (subtract (normalize (clip shifts.reduceOption window))
      busy) span.start := ⟨span, hspan, span.start_mem⟩
  rw [covered_subtract, covered_normalize, covered_clip] at hcov
  have hfirst := hcov.1.2.1
  have hmin := hlow.1
  omega

/-- The stretches of free time are the spans the slots are cut from. -/
theorem isStretch_freeAt_iff
    (hwindow : localDayBounds day (env.shopTimezone shop) = .ok window)
    (hshifts : ((db.hoursOn barberId day).mapM fun row =>
      workingInterval day row.startTime row.endTime
        (env.shopTimezone shop)) = .ok shifts)
    (htaken : FetchesTaken db barberId window exclude ignoreAppointments taken)
    (hblocked : ((db.breaksIn barberId window).mapM fun b =>
      Interval.new b.startDatetime b.endDatetime) = .ok blocked) (a b : ℤ) :
    IsStretch (FreeAt env db barberId shop day exclude ignoreAppointments) a b ↔
      ∃ span ∈ subtract (normalize (clip shifts.reduceOption window))
        (clip (taken ++ blocked) window), span.start = a ∧ span.stop = b := by
  rw [← (separated_subtract (separated_normalize _) _).isStretch_iff]
  refine isStretch_congr ?_ a b
  intro x
  rw [covered_subtract, covered_normalize, covered_clip]
  exact (covered_free_iff hwindow (covered_shifts hshifts)
    (fun x hx => htaken.covered_iff hx)
    (fun x hx => covered_breaksIn_iff hblocked hx) x).symm

/-- The slots of a working day are cut and rendered exactly when that stays in
the calendar. -/
theorem exists_rendered_slots_iff
    (hchecked : service.Checked)
    (hopen : ¬ db.ClosedOn shop.id day)
    (hwindow : localDayBounds day (env.shopTimezone shop) = .ok window)
    (hshifts : ((db.hoursOn barberId day).mapM fun row =>
      workingInterval day row.startTime row.endTime
        (env.shopTimezone shop)) = .ok shifts)
    (htaken : FetchesTaken db barberId window exclude ignoreAppointments taken)
    (hblocked : ((db.breaksIn barberId window).mapM fun b =>
      Interval.new b.startDatetime b.endDatetime) = .ok blocked) :
    (∃ slots offer, freeSlots env service now window shifts.reduceOption
        (clip (taken ++ blocked) window) = .ok slots ∧
      render day (env.shopTimezone shop) barberId service slots = .ok offer) ↔
      GridInCalendar env db barberId shop service day now exclude
        ignoreAppointments := by
  have hduration : 0 < service.duration := by
    have := hchecked.1
    rw [Service.duration, minutes]
    omega
  have hstretch := isStretch_freeAt_iff hwindow hshifts htaken hblocked
  obtain ⟨-, -, -, hanchor, -⟩ := localDayBounds_eq_ok_iff.mp hwindow
  constructor
  · rintro ⟨slots, offer, hslots, hrender⟩
    obtain ⟨hlead, harith, hrep⟩ := freeSlots_eq_ok_iff.mp hslots
    have hstep := step_pos_of_computeFreeSlots harith
    rw [slotsRepresentable_iff hduration hstep (free_start_le hwindow)] at hrep
    refine ⟨hstep, hlead, ?_, ?_⟩
    · intro a b hab t htries
      obtain ⟨span, hspan, rfl, rfl⟩ := (hstretch a b).mp hab
      rw [← hanchor] at htries
      exact hrep span hspan t htries
    · intro t ht
      have hcut := bookable_iff_of_fetched hopen hwindow
        (covered_shifts hshifts) (fun x hx => htaken.covered_iff hx)
        (fun x hx => covered_breaksIn_iff hblocked hx) hslots t
      obtain ⟨slot, hslot, rfl⟩ := hcut.mpr ht
      obtain ⟨reads, hreads, -⟩ := render_eq_ok_iff.mp hrender
      obtain ⟨read, -, hread⟩ := exists_result_of_mem hreads hslot
      obtain ⟨hstart, hstop, -⟩ := slotRead_eq_ok_iff.mp hread
      rw [slotsIn_stop harith hslot] at hstop
      exact ⟨hstart, hstop⟩
  · intro h
    have hrep : SlotsRepresentable
        (subtract (normalize (clip shifts.reduceOption window))
          (clip (taken ++ blocked) window))
        service.duration env.slotStep (now + env.bookingLead)
        window.start := by
      rw [slotsRepresentable_iff hduration h.step_pos (free_start_le hwindow)]
      intro span hspan t htries
      rw [hanchor] at htries
      exact h.tried _ _ ((hstretch _ _).mpr ⟨span, hspan, rfl, rfl⟩) t htries
    obtain ⟨slots, harith⟩ : ∃ slots, computeFreeSlots
        (clip shifts.reduceOption window) (clip (taken ++ blocked) window)
        service.duration env.slotStep (now + env.bookingLead) window.start =
          .ok slots := by
      rw [computeFreeSlots, slotsIn]
      rw [dif_pos ⟨hduration, h.step_pos⟩]
      exact ⟨_, rfl⟩
    have hslots := freeSlots_eq_ok_iff.mpr ⟨h.lead, harith, hrep⟩
    have hcut := bookable_iff_of_fetched hopen hwindow
      (covered_shifts hshifts) (fun x hx => htaken.covered_iff hx)
      (fun x hx => covered_breaksIn_iff hblocked hx) hslots
    obtain ⟨reads, hreads⟩ : ∃ reads,
        slots.mapM (slotRead (env.shopTimezone shop)) = .ok reads := by
      apply exists_mapM_eq_ok
      intro slot hslot
      obtain ⟨hstart, hstop⟩ :=
        h.shown slot.start ((hcut slot.start).mp ⟨slot, hslot, rfl⟩)
      rw [← slotsIn_stop harith hslot] at hstop
      exact ⟨_, slotRead_eq_ok_iff.mpr ⟨hstart, hstop, rfl⟩⟩
    exact ⟨slots, _, hslots, render_eq_ok_iff.mpr ⟨reads, hreads, rfl⟩⟩

end

theorem render_nil (day : ℤ) (tz : Zone) (barberId : Uuid)
    (service : Service) : ∃ offer, render day tz barberId service [] =
      .ok offer :=
  ⟨_, rfl⟩

/-- The endpoint answers exactly when the day can be computed. -/
theorem exists_offer_iff_dayComputable
    {env : Env} {db : Database} (hvalid : db.Valid) {barberId : Uuid}
    {day : ℤ} {serviceId : Uuid} {now : ℤ} {exclude : Option Uuid}
    {ignoreAppointments : Bool} {barber : Barber} {shop : Barbershop}
    {service : Service}
    (hsells : db.Sells barberId serviceId barber shop service) :
    (∃ offer, (availableSlots env barberId day serviceId now exclude
        ignoreAppointments).run db = (.ok offer, db)) ↔
      DayComputable env db barberId shop service day now exclude
        ignoreAppointments := by
  have hhours := hvalid.checks.workingHours
  have hservice := hvalid.checks.services service
    (KeyedTable.mem_of_lookup hsells.service_eq)
  constructor
  · rintro ⟨offer, hrun⟩
    obtain ⟨-, barber', shop', service', window, slots, hsells', hwindow,
      hcuts, hrender⟩ := run_availableSlots_eq_ok_iff.mp hrun
    obtain ⟨rfl, rfl, rfl⟩ := hsells.unique hsells'
    refine ⟨exists_localDayBounds_iff.mp ⟨window, hwindow⟩, ?_⟩
    cases hcuts with
    | closed hclosed => exact Or.inl hclosed
    | off hopen hshifts hoff =>
        exact Or.inr ⟨(exists_shifts_iff hhours).mp ⟨_, hshifts⟩,
          Or.inl ((reduceOption_eq_nil_iff hhours hshifts).mp hoff)⟩
    | cut hopen hshifts hworks htaken hblocked hslots =>
        exact Or.inr ⟨(exists_shifts_iff hhours).mp ⟨_, hshifts⟩,
          Or.inr ((exists_rendered_slots_iff hservice hopen hwindow hshifts
            htaken hblocked).mp ⟨slots, offer, hslots, hrender⟩)⟩
  · rintro ⟨hday, hrest⟩
    obtain ⟨window, hwindow⟩ := exists_localDayBounds_iff.mpr hday
    by_cases hclosed : db.ClosedOn shop.id day
    · obtain ⟨offer, hrender⟩ :=
        render_nil day (env.shopTimezone shop) barberId service
      exact ⟨offer, run_availableSlots_eq_ok_iff.mpr ⟨rfl, barber, shop,
        service, window, [], hsells, hwindow, .closed hclosed, hrender⟩⟩
    obtain ⟨horder, hgrid⟩ := hrest.resolve_left hclosed
    obtain ⟨shifts, hshifts⟩ := (exists_shifts_iff hhours).mpr horder
    by_cases hoff : shifts.reduceOption = []
    · obtain ⟨offer, hrender⟩ :=
        render_nil day (env.shopTimezone shop) barberId service
      exact ⟨offer, run_availableSlots_eq_ok_iff.mpr ⟨rfl, barber, shop,
        service, window, [], hsells, hwindow, .off hclosed hshifts hoff,
        hrender⟩⟩
    · have hgrid' := hgrid.resolve_left fun hnone =>
        hoff ((reduceOption_eq_nil_iff hhours hshifts).mpr hnone)
      obtain ⟨taken, htaken⟩ := exists_fetchesTaken
        (fun a ha => (hvalid.checks.appointments a ha).1) barberId window
        exclude ignoreAppointments
      obtain ⟨blocked, hblocked⟩ :=
        exists_blocked hvalid.checks.barberBreaks barberId window
      obtain ⟨slots, offer, hslots, hrender⟩ := (exists_rendered_slots_iff
        hservice hclosed hwindow hshifts htaken hblocked).mpr hgrid'
      exact ⟨offer, run_availableSlots_eq_ok_iff.mpr ⟨rfl, barber, shop,
        service, window, slots, hsells, hwindow,
        .cut hclosed hshifts hoff htaken hblocked hslots, hrender⟩⟩

/-- The endpoint answers or refuses, exactly when what can be booked can be
computed. -/
theorem availableSlots_survives_iff
    (env : Env) (db : Database) (barberId : Uuid) (day : ℤ)
    (serviceId : Uuid) (now : ℤ) (exclude : Option Uuid)
    (ignoreAppointments : Bool) (hvalid : db.Valid) :
    Survives ((availableSlots env barberId day serviceId now exclude
        ignoreAppointments).run db).1 ↔
      ∀ barber shop service,
        db.Sells barberId serviceId barber shop service →
        DayComputable env db barberId shop service day now exclude
          ignoreAppointments := by
  constructor
  · intro hsurvives barber shop service hsells
    exact (exists_offer_iff_dayComputable hvalid hsells).mp
      ((survives_iff_exists_offer hsells).mp hsurvives)
  · intro h
    by_cases hload : ∃ barber shop service,
        db.Sells barberId serviceId barber shop service
    · obtain ⟨barber, shop, service, hsells⟩ := hload
      exact (survives_iff_exists_offer hsells).mpr
        ((exists_offer_iff_dayComputable hvalid hsells).mpr
          (h barber shop service hsells))
    · intro e he
      rcases hrun : (loadAndValidate barberId serviceId).run db with
        ⟨e' | ⟨barber, shop, service⟩, t⟩
      · rw [availableSlots_eq, run_bind_of_error hrun] at he
        obtain rfl := Except.error.inj he
        exact (raises_loadAndValidate _ _).raisesOnly
          (respects_loadAndValidate _ _).readOnly _ _ _ hrun
      · exact absurd ⟨barber, shop, service,
          (run_loadAndValidate_eq_ok_iff.mp hrun).1⟩ hload

theorem availableSlots_survives_iff_monday :
    Survives ((availableSlots Sample.env 20 Sample.monday 30
        (Sample.clock 8 0) none false).run Sample.db).1 ↔
      ∀ barber shop service, Sample.db.Sells 20 30 barber shop service →
        DayComputable Sample.env Sample.db 20 shop service Sample.monday
          (Sample.clock 8 0) none false :=
  availableSlots_survives_iff _ _ _ _ _ _ _ _ Sample.db_valid

/-- A shift that begins inside the hour skipped in spring and ends with it has
its ends in the wrong order as instants. -/
theorem availableSlots_crashes_spring :
    (Sample.berlinDb (Sample.timeOfDay 2 30) (Sample.timeOfDay 3 0)).Valid ∧
      ¬ Survives ((availableSlots Sample.berlinEnv 20 Sample.springDay 30
        (Sample.berlin.toInstant (midnight Sample.springDay)) none false).run
          (Sample.berlinDb (Sample.timeOfDay 2 30)
            (Sample.timeOfDay 3 0))).1 := by
  refine ⟨⟨by constructor <;> decide, by constructor <;> decide,
    by constructor <;> decide, by decide, by decide, by decide, by decide,
    by decide, by decide, by decide⟩, ?_⟩
  intro h
  have hcrash : ((availableSlots Sample.berlinEnv 20 Sample.springDay 30
      (Sample.berlin.toInstant (midnight Sample.springDay)) none false).run
        (Sample.berlinDb (Sample.timeOfDay 2 30)
          (Sample.timeOfDay 3 0))).1 = .error .valueError := by
    decide +kernel
  have hrefusal := h .valueError hcrash
  simp [Raised.IsRefusal, Raised.cls] at hrefusal

end BarberHub
