import BarberHub.Slots.Available
import BarberHub.Support.Fallible

/-!
# What the availability endpoint offers

`Bookable` says when a start time ought to be on offer, in terms of the whole
tables: the shop is open that local day, the start is far enough ahead and on
the grid, and every instant of the booking lies in the day, in a shift, and
clear of breaks and of other appointments.  `availableSlots_starts_iff` shows
that the endpoint offers exactly these starts, although it fetches only the
rows that meet the day.
-/

namespace BarberHub

open HalfOpen ReadCommitted Program Fallible

/-! ## Bookable starts -/

/-- The barber, the shop and the service can be booked together. -/
structure Database.Sells (db : Database) (barberId serviceId : Uuid)
    (barber : Barber) (shop : Barbershop) (service : Service) : Prop where
  barber_eq : db.barber? barberId = some barber
  barber_active : barber.isActive
  shop_eq : db.barbershop? barber.shopId = some shop
  shop_active : shop.isActive
  service_eq : db.service? serviceId = some service
  service_active : service.isActive
  same_shop : service.shopId = barber.shopId
  performs : service.id ∈ db.servicesOf barber.id

namespace Database

/-- The instant lies in a shift of the barber on that weekday, each of its
ends being turned into an instant on its own. -/
def InShift (db : Database) (tz : Zone) (barberId : Uuid) (day x : ℤ) : Prop :=
  ∃ row ∈ db.workingHours,
    row.barberId = barberId ∧ row.weekday = weekday day ∧
      row.startTime < row.endTime ∧
        tz.toInstant (combine day row.startTime) ≤ x ∧
          x < tz.toInstant (combine day row.endTime)

/-- The instant lies in a break of the barber. -/
def InBreak (db : Database) (barberId : Uuid) (x : ℤ) : Prop :=
  ∃ b ∈ db.barberBreaks,
    b.barberId = barberId ∧ b.startDatetime ≤ x ∧ x < b.endDatetime

/-- The instant lies in an active appointment of the barber other than the
excluded one. -/
def InAppointment (db : Database) (barberId : Uuid) (exclude : Option Uuid)
    (x : ℤ) : Prop :=
  ∃ a ∈ db.appointments,
    a.barberId = barberId ∧ a.status.blocksSlot ∧ exclude ≠ some a.id ∧
      a.startTime ≤ x ∧ x < a.endTime

/-- A barber belongs to one shop. -/
theorem Sells.shop_unique
    {db : Database} {barberId serviceId : Uuid} {barber barber' : Barber}
    {shop shop' : Barbershop} {service : Service}
    (h : db.Sells barberId serviceId barber shop service)
    (hbarber : db.barber? barberId = some barber')
    (hshop : db.barbershop? barber'.shopId = some shop') :
    barber' = barber ∧ shop' = shop := by
  obtain rfl := Option.some.inj (hbarber.symm.trans h.barber_eq)
  exact ⟨rfl, Option.some.inj (hshop.symm.trans h.shop_eq)⟩

theorem Sells.unique
    {db : Database} {barberId serviceId : Uuid} {barber barber' : Barber}
    {shop shop' : Barbershop} {service service' : Service}
    (h : db.Sells barberId serviceId barber shop service)
    (h' : db.Sells barberId serviceId barber' shop' service') :
    barber' = barber ∧ shop' = shop ∧ service' = service := by
  obtain ⟨rfl, rfl⟩ := h.shop_unique h'.barber_eq h'.shop_eq
  have hservice := Option.some.inj (h'.service_eq.symm.trans h.service_eq)
  exact ⟨rfl, rfl, hservice⟩

end Database

/-- The instant lies in the local day. -/
def InDay (tz : Zone) (day x : ℤ) : Prop :=
  dayStart tz day ≤ x ∧ x < dayStart tz (day + 1)

/-- At the instant, inside the local day, the barber is at work and has nothing
else to do. -/
structure FreeAt (env : Env) (db : Database) (barberId : Uuid)
    (shop : Barbershop) (day : ℤ) (exclude : Option Uuid)
    (ignoreAppointments : Bool) (x : ℤ) : Prop where
  in_day : InDay (env.shopTimezone shop) day x
  in_shift : db.InShift (env.shopTimezone shop) barberId day x
  no_break : ¬ db.InBreak barberId x
  no_appointment : ignoreAppointments = false →
    ¬ db.InAppointment barberId exclude x

/-- The start ought to be on offer for the local day. -/
structure Bookable (env : Env) (db : Database) (barberId : Uuid)
    (shop : Barbershop) (service : Service) (day now : ℤ)
    (exclude : Option Uuid) (ignoreAppointments : Bool) (t : ℤ) : Prop where
  positive : 0 < service.duration
  is_open : ¬ db.ClosedOn shop.id day
  lead : now + env.bookingLead ≤ t
  on_grid : env.slotStep ∣ t - dayStart (env.shopTimezone shop) day
  in_day : ∀ x, t ≤ x → x < t + service.duration →
    InDay (env.shopTimezone shop) day x
  in_shift : ∀ x, t ≤ x → x < t + service.duration →
    db.InShift (env.shopTimezone shop) barberId day x
  no_break : ∀ x, t ≤ x → x < t + service.duration → ¬ db.InBreak barberId x
  no_appointment : ignoreAppointments = false →
    ∀ x, t ≤ x → x < t + service.duration →
      ¬ db.InAppointment barberId exclude x

/-! ## The checks before the slots -/

theorem Database.activeBarber_eq_some_iff
    {db : Database} {barberId : Uuid} {barber : Barber}
    {services : List Uuid} :
    db.activeBarber barberId = some (barber, services) ↔
      db.barber? barberId = some barber ∧ barber.isActive ∧
        services = db.servicesOf barber.id := by
  rw [activeBarber]
  simp only [Option.map_eq_some_iff, Option.filter_eq_some_iff, Prod.mk.injEq]
  constructor
  · rintro ⟨b, ⟨hb, hactive⟩, rfl, rfl⟩
    exact ⟨hb, hactive, rfl⟩
  · rintro ⟨hb, hactive, rfl⟩
    exact ⟨barber, ⟨hb, hactive⟩, rfl, rfl⟩

theorem Database.sells_iff
    {db : Database} {barberId serviceId : Uuid} {barber : Barber}
    {shop : Barbershop} {service : Service} :
    db.Sells barberId serviceId barber shop service ↔
      ∃ services, db.activeBarber barberId = some (barber, services) ∧
        db.activeShop barber.shopId = some shop ∧
        db.activeService serviceId = some service ∧
        service.shopId = barber.shopId ∧ service.id ∈ services := by
  rw [activeShop, activeService]
  simp only [activeBarber_eq_some_iff, Option.filter_eq_some_iff]
  constructor
  · intro h
    exact ⟨_, ⟨h.barber_eq, h.barber_active, rfl⟩,
      ⟨h.shop_eq, h.shop_active⟩, ⟨h.service_eq, h.service_active⟩,
      h.same_shop, h.performs⟩
  · rintro ⟨_, ⟨hb, hba, rfl⟩, ⟨hs, hsa⟩, ⟨hv, hva⟩, hsame, hperforms⟩
    exact ⟨hb, hba, hs, hsa, hv, hva, hsame, hperforms⟩

theorem run_loadAndValidate_eq_ok_iff
    {barberId serviceId : Uuid} {barber : Barber} {shop : Barbershop}
    {service : Service} {db db' : Database} :
    (loadAndValidate barberId serviceId).run db =
        (.ok (barber, shop, service), db') ↔
      db.Sells barberId serviceId barber shop service ∧ db' = db := by
  rw [Database.sells_iff]
  rw [loadAndValidate]
  simp only [query_bind, run_read, run_rowOr_bind_eq_ok_iff,
    run_require_bind_eq_ok_iff, pure_eq_done, run_done, Prod.mk.injEq,
    Except.ok.injEq]
  constructor
  · rintro ⟨⟨b, services⟩, hb, s, hs, v, hv, hsame, hperforms, ⟨rfl, rfl, rfl⟩,
      rfl⟩
    exact ⟨⟨services, hb, hs, hv, hsame, hperforms⟩, rfl⟩
  · rintro ⟨⟨services, hb, hs, hv, hsame, hperforms⟩, rfl⟩
    exact ⟨⟨barber, services⟩, hb, shop, hs, service, hv, hsame, hperforms,
      ⟨rfl, rfl, rfl⟩, rfl⟩

/-! ## Instants covered by what the queries fetch -/

/-- Intervals built from rows cover what the rows span. -/
theorem covered_spans
    {α : Type} {rows : List α} {s e : α → ℤ} {spans : List Interval}
    (h : (rows.mapM fun r => Interval.new (s r) (e r)) = .ok spans) (x : ℤ) :
    Covered spans x ↔ ∃ r ∈ rows, s r ≤ x ∧ x < e r := by
  rw [Covered]
  rw [exists_mem_mapM_iff h]
  refine exists_congr fun r => and_congr_right fun hr => ?_
  constructor
  · rintro ⟨I, hI, hx⟩
    obtain ⟨hs, he⟩ := Interval.new_eq_ok_iff.mp hI
    rw [← hs, ← he]
    exact hx
  · rintro ⟨hs, he⟩
    exact ⟨⟨s r, e r, lt_of_le_of_lt hs he⟩,
      Interval.new_eq_ok_iff.mpr ⟨rfl, rfl⟩, hs, he⟩

/-- The shifts fetched for a day cover the instants in a shift. -/
theorem covered_shifts
    {db : Database} {tz : Zone} {barberId : Uuid} {day : ℤ}
    {shifts : List (Option Interval)}
    (h : ((db.hoursOn barberId day).mapM fun row =>
      workingInterval day row.startTime row.endTime tz) = .ok shifts) (x : ℤ) :
    Covered shifts.reduceOption x ↔ db.InShift tz barberId day x := by
  have hsome : Covered shifts.reduceOption x ↔
      ∃ shift ∈ shifts, ∃ I, shift = some I ∧ x ∈ I := by
    rw [Covered]
    simp only [List.reduceOption_mem_iff]
    constructor
    · rintro ⟨I, hI, hx⟩
      exact ⟨some I, hI, I, rfl, hx⟩
    · rintro ⟨_, hI, I, rfl, hx⟩
      exact ⟨I, hI, hx⟩
  rw [hsome, exists_mem_mapM_iff h]
  rw [Database.InShift, Database.hoursOn]
  simp only [List.mem_filter, decide_eq_true_eq]
  constructor
  · rintro ⟨row, ⟨hrow, hbarber, hday⟩, _, hshift, I, rfl, hx⟩
    rcases workingInterval_eq_ok_iff.mp hshift with
      ⟨-, hnone⟩ | ⟨hlt, J, hJ, hIJ⟩
    · simp at hnone
    · obtain rfl := Option.some.inj hIJ
      obtain ⟨-, -, hstart, hstop⟩ := Interval.ofWall_eq_ok_iff.mp hJ
      rw [Interval.mem_def, hstart, hstop] at hx
      exact ⟨row, hrow, hbarber, hday, hlt, hx⟩
  · rintro ⟨row, hrow, hbarber, hday, hlt, hx⟩
    have hmem : row ∈ db.workingHours.filter fun row =>
        row.barberId = barberId ∧ row.weekday = weekday day := by
      simp [hrow, hbarber, hday]
    obtain ⟨shift, -, hshift⟩ :=
      exists_result_of_mem h hmem
    rcases workingInterval_eq_ok_iff.mp hshift with
      ⟨hle, -⟩ | ⟨-, J, hJ, rfl⟩
    · exact absurd hlt (Fin.not_lt.mpr hle)
    · obtain ⟨-, -, hstart, hstop⟩ := Interval.ofWall_eq_ok_iff.mp hJ
      refine ⟨row, ⟨hrow, hbarber, hday⟩, _, hshift, J, rfl, ?_⟩
      rw [Interval.mem_def, hstart, hstop]
      exact hx

/-! ## The offer -/

theorem freeSlots_eq_ok_iff
    {env : Env} {service : Service} {now : ℤ} {window : Interval}
    {shifts busy slots : List Interval} :
    freeSlots env service now window shifts busy = .ok slots ↔
      Representable (now + env.bookingLead) ∧
        computeFreeSlots (clip shifts window) busy service.duration
          env.slotStep (now + env.bookingLead) window.start = .ok slots ∧
        SlotsRepresentable (subtract (normalize (clip shifts window)) busy)
          service.duration env.slotStep (now + env.bookingLead)
          window.start := by
  rw [freeSlots]
  by_cases hnow : Representable (now + env.bookingLead)
  · simp only [representable_of hnow, hnow, true_and, bind, Except.bind]
    cases hslots : computeFreeSlots (clip shifts window) busy service.duration
        env.slotStep (now + env.bookingLead) window.start with
    | error e => simp
    | ok slots' =>
        dsimp only
        split
        next hrep => simp [hrep, pure, Except.pure]
        next hrep => simp [hrep]
  · simp [representable, hnow, bind, Except.bind]

theorem step_pos_of_computeFreeSlots
    {working busy slots : List Interval} {duration step notBefore anchor : ℤ}
    (h : computeFreeSlots working busy duration step notBefore anchor =
      .ok slots) : 0 < step := by
  rw [computeFreeSlots, slotsIn] at h
  split at h
  next hpos => exact hpos.2
  next hneg => simp at h

theorem duration_pos_of_freeSlots
    {env : Env} {service : Service} {now : ℤ} {window : Interval}
    {shifts busy slots : List Interval}
    (h : freeSlots env service now window shifts busy = .ok slots) :
    0 < service.duration := by
  obtain ⟨-, hslots, -⟩ := freeSlots_eq_ok_iff.mp h
  rw [computeFreeSlots, slotsIn] at hslots
  split at hslots
  next hpos => exact hpos.1
  next hneg => simp at hslots

/-- What the slot arithmetic returns, in terms of the instants its arguments
cover. -/
theorem freeSlots_starts_iff
    {env : Env} {service : Service} {now : ℤ} {window : Interval}
    {shifts busy slots : List Interval}
    (h : freeSlots env service now window shifts busy = .ok slots) (t : ℤ) :
    (∃ slot ∈ slots, slot.start = t) ↔
      now + env.bookingLead ≤ t ∧ env.slotStep ∣ t - window.start ∧
        ∀ x, t ≤ x → x < t + service.duration →
          (Covered shifts x ∧ x ∈ window) ∧ ¬ Covered busy x := by
  obtain ⟨hlead, hslots, -⟩ := freeSlots_eq_ok_iff.mp h
  rw [exists_computeFreeSlots_iff hslots]
  simp only [covered_clip]

/-- Rendering keeps the instants of every slot. -/
theorem slotRead_eq_ok_iff
    {tz : Zone} {slot : Interval} {read : SlotRead} :
    slotRead tz slot = .ok read ↔
      Representable (tz.toWall slot.start) ∧
        Representable (tz.toWall slot.stop) ∧
        read = {
          start := slot.start
          stop := slot.stop
          startLocal := hourMinute (tz.toWall slot.start)
          endLocal := hourMinute (tz.toWall slot.stop) } := by
  unfold slotRead toLocal
  simp only [bind_eq_ok_iff, representable_eq_ok_iff, pure, Except.pure,
    Except.ok.injEq]
  constructor
  · rintro ⟨_, ⟨hstart, rfl⟩, _, ⟨hstop, rfl⟩, rfl⟩
    exact ⟨hstart, hstop, rfl⟩
  · rintro ⟨hstart, hstop, rfl⟩
    exact ⟨_, ⟨hstart, rfl⟩, _, ⟨hstop, rfl⟩, rfl⟩

theorem render_eq_ok_iff
    {day : ℤ} {tz : Zone} {barberId : Uuid} {service : Service}
    {slots : List Interval} {offer : AvailabilityRead} :
    render day tz barberId service slots = .ok offer ↔
      ∃ reads, slots.mapM (slotRead tz) = .ok reads ∧
        offer = {
          date := day
          timezone := tz.key
          barberId := barberId
          service := service.summary
          slots := reads } := by
  rw [render]
  simp only [bind_eq_ok_iff, pure, Except.pure, Except.ok.injEq]
  exact exists_congr fun reads => and_congr_right fun _ => eq_comm

theorem exists_rendered_iff
    {day : ℤ} {tz : Zone} {barberId : Uuid} {service : Service}
    {slots : List Interval} {offer : AvailabilityRead}
    (h : render day tz barberId service slots = .ok offer) (P : ℤ → ℤ → Prop) :
    (∃ slot ∈ offer.slots, P slot.start slot.stop) ↔
      ∃ slot ∈ slots, P slot.start slot.stop := by
  obtain ⟨reads, hreads, rfl⟩ := render_eq_ok_iff.mp h
  rw [exists_mem_mapM_iff hreads]
  refine exists_congr fun slot => and_congr_right fun hslot => ?_
  constructor
  · rintro ⟨read, hread, hP⟩
    obtain ⟨-, -, rfl⟩ := slotRead_eq_ok_iff.mp hread
    exact hP
  · intro hP
    obtain ⟨read, -, hread⟩ := exists_result_of_mem hreads hslot
    refine ⟨read, hread, ?_⟩
    obtain ⟨-, -, rfl⟩ := slotRead_eq_ok_iff.mp hread
    exact hP

/-- Every slot shown starts at a time the zone's clock can show. -/
theorem readable_of_render
    {day : ℤ} {tz : Zone} {barberId : Uuid} {service : Service}
    {slots : List Interval} {offer : AvailabilityRead}
    (h : render day tz barberId service slots = .ok offer)
    {slot : SlotRead} (hslot : slot ∈ offer.slots) :
    Representable (tz.toWall slot.start) := by
  obtain ⟨reads, hreads, rfl⟩ := render_eq_ok_iff.mp h
  obtain ⟨cut, -, read, hread, heq⟩ :=
    (exists_mem_mapM_iff hreads fun read => read = slot).mp ⟨slot, hslot, rfl⟩
  obtain ⟨hstart, -, rfl⟩ := slotRead_eq_ok_iff.mp hread
  rw [← heq]
  exact hstart

/-- What a successful answer of the endpoint says. -/
structure Answers (env : Env) (db : Database) (barberId : Uuid) (day : ℤ)
    (serviceId : Uuid) (now : ℤ) (exclude : Option Uuid)
    (ignoreAppointments : Bool) (offer : AvailabilityRead)
    (barber : Barber) (shop : Barbershop) (service : Service) : Prop where
  sells : db.Sells barberId serviceId barber shop service
  timezone : offer.timezone = (env.shopTimezone shop).key
  bounds : ∃ window, localDayBounds day (env.shopTimezone shop) = .ok window
  starts_iff : ∀ t, (∃ slot ∈ offer.slots, slot.start = t) ↔
    Bookable env db barberId shop service day now exclude
      ignoreAppointments t
  stops : ∀ slot ∈ offer.slots, slot.stop = slot.start + service.duration
  readable : ∀ slot ∈ offer.slots,
    Representable ((env.shopTimezone shop).toWall slot.start)

/-- The appointments that count, as the endpoint fetches them. -/
def FetchesTaken (db : Database) (barberId : Uuid) (window : Interval)
    (exclude : Option Uuid) (ignoreAppointments : Bool)
    (taken : List Interval) : Prop :=
  (ignoreAppointments = true ∧ taken = []) ∨
    (ignoreAppointments = false ∧
      ((db.appointmentsIn barberId window exclude).mapM fun a =>
        Interval.new a.startTime a.endTime) = .ok taken)

theorem exists_fetchesTaken
    {db : Database} (hordered : ∀ a ∈ db.appointments, a.startTime < a.endTime)
    (barberId : Uuid) (window : Interval) (exclude : Option Uuid)
    (ignoreAppointments : Bool) :
    ∃ taken,
      FetchesTaken db barberId window exclude ignoreAppointments taken := by
  cases ignoreAppointments
  · obtain ⟨taken, htaken⟩ : ∃ taken,
        ((db.appointmentsIn barberId window exclude).mapM fun a =>
          Interval.new a.startTime a.endTime) = .ok taken := by
      apply exists_mapM_eq_ok
      intro a ha
      have hlt := hordered a (List.mem_of_mem_filter ha)
      exact ⟨⟨_, _, hlt⟩, Interval.new_eq_ok_iff.mpr ⟨rfl, rfl⟩⟩
    exact ⟨taken, Or.inr ⟨rfl, htaken⟩⟩
  · exact ⟨[], Or.inl ⟨rfl, rfl⟩⟩

/-- The slots a successful answer shows: none on a closed day or a day off,
and otherwise those cut from what the queries fetch. -/
inductive Cuts (env : Env) (db : Database) (barberId : Uuid)
    (shop : Barbershop) (service : Service) (day now : ℤ)
    (exclude : Option Uuid) (ignoreAppointments : Bool) (window : Interval) :
    List Interval → Prop where
  | closed (hclosed : db.ClosedOn shop.id day) :
      Cuts env db barberId shop service day now exclude ignoreAppointments
        window []
  | off {shifts : List (Option Interval)} (hopen : ¬ db.ClosedOn shop.id day)
      (hshifts : ((db.hoursOn barberId day).mapM fun row =>
        workingInterval day row.startTime row.endTime
          (env.shopTimezone shop)) = .ok shifts)
      (hoff : shifts.reduceOption = []) :
      Cuts env db barberId shop service day now exclude ignoreAppointments
        window []
  | cut {shifts : List (Option Interval)} {taken blocked slots : List Interval}
      (hopen : ¬ db.ClosedOn shop.id day)
      (hshifts : ((db.hoursOn barberId day).mapM fun row =>
        workingInterval day row.startTime row.endTime
          (env.shopTimezone shop)) = .ok shifts)
      (hworks : shifts.reduceOption ≠ [])
      (htaken : FetchesTaken db barberId window exclude ignoreAppointments
        taken)
      (hblocked : ((db.breaksIn barberId window).mapM fun b =>
        Interval.new b.startDatetime b.endDatetime) = .ok blocked)
      (hslots : freeSlots env service now window shifts.reduceOption
        (clip (taken ++ blocked) window) = .ok slots) :
      Cuts env db barberId shop service day now exclude ignoreAppointments
        window slots

theorem run_shiftsFor_eq_ok_iff
    {db db' : Database} {barberId : Uuid} {day : ℤ} {tz : Zone}
    {xs : List Interval} :
    (shiftsFor barberId day tz).run db = (.ok xs, db') ↔
      db' = db ∧ ∃ shifts, ((db.hoursOn barberId day).mapM fun row =>
        workingInterval day row.startTime row.endTime tz) = .ok shifts ∧
          xs = shifts.reduceOption := by
  rw [shiftsFor]
  simp only [query_bind, run_read, run_ofExcept_bind_eq_ok_iff, pure_eq_done,
    run_done, Prod.mk.injEq, Except.ok.injEq]
  constructor
  · rintro ⟨shifts, hshifts, rfl, rfl⟩
    exact ⟨rfl, shifts, hshifts, rfl⟩
  · rintro ⟨rfl, shifts, hshifts, rfl⟩
    exact ⟨shifts, hshifts, rfl, rfl⟩

theorem run_taken_eq_ok_iff
    {db db' : Database} {barberId : Uuid} {window : Interval}
    {exclude : Option Uuid} {ignoreAppointments : Bool}
    {taken : List Interval} :
    (BarberHub.taken barberId window exclude ignoreAppointments).run db =
        (.ok taken, db') ↔
      db' = db ∧
        FetchesTaken db barberId window exclude ignoreAppointments taken := by
  rw [FetchesTaken, BarberHub.taken, appointments]
  cases ignoreAppointments
  · simp only [Bool.false_eq_true, if_false, query_bind, run_read,
      run_ofExcept_eq_ok_iff, false_and, true_and, false_or]
    exact and_comm
  · simp only [if_true, pure_eq_done, run_done, Prod.mk.injEq,
      Except.ok.injEq, true_and, reduceCtorEq, false_and, or_false]
    rw [and_comm, eq_comm, @eq_comm _ []]

theorem run_breaks_eq_ok_iff
    {db db' : Database} {barberId : Uuid} {window : Interval}
    {blocked : List Interval} :
    (breaks barberId window).run db = (.ok blocked, db') ↔
      db' = db ∧ ((db.breaksIn barberId window).mapM fun b =>
        Interval.new b.startDatetime b.endDatetime) = .ok blocked := by
  rw [breaks]
  rw [query_bind, run_read, run_ofExcept_eq_ok_iff]
  exact and_comm

/-- A successful answer of `available_slots`, statement by statement. -/
theorem run_availableSlots_eq_ok_iff
    {env : Env} {db db' : Database} {barberId : Uuid} {day : ℤ}
    {serviceId : Uuid} {now : ℤ} {exclude : Option Uuid}
    {ignoreAppointments : Bool} {offer : AvailabilityRead} :
    (availableSlots env barberId day serviceId now exclude
        ignoreAppointments).run db = (.ok offer, db') ↔
      db' = db ∧ ∃ barber shop service window slots,
        db.Sells barberId serviceId barber shop service ∧
        localDayBounds day (env.shopTimezone shop) = .ok window ∧
        Cuts env db barberId shop service day now exclude ignoreAppointments
          window slots ∧
        render day (env.shopTimezone shop) barberId service slots =
          .ok offer := by
  unfold availableSlots isClosed
  rw [run_bind_eq_ok_iff]
  constructor
  · rintro ⟨⟨barber, shop, service⟩, db₁, hload, h⟩
    obtain ⟨hsells, rfl⟩ := run_loadAndValidate_eq_ok_iff.mp hload
    dsimp only at h
    rw [run_ofExcept_bind_eq_ok_iff] at h
    obtain ⟨window, hwindow, h⟩ := h
    rw [query_bind, run_read] at h
    by_cases hclosed : db₁.ClosedOn shop.id day
    · rw [if_pos (decide_eq_true hclosed), run_ofExcept_eq_ok_iff] at h
      exact ⟨h.2, barber, shop, service, window, [], hsells, hwindow,
        .closed hclosed, h.1⟩
    · rw [if_neg (by simpa using hclosed), run_bind_eq_ok_iff] at h
      obtain ⟨xs, _, hxs, h⟩ := h
      obtain ⟨rfl, shifts, hshifts, rfl⟩ := run_shiftsFor_eq_ok_iff.mp hxs
      by_cases hoff : shifts.reduceOption = []
      · rw [if_pos (by simp [hoff]), run_ofExcept_eq_ok_iff] at h
        exact ⟨h.2, barber, shop, service, window, [], hsells, hwindow,
          .off hclosed hshifts hoff, h.1⟩
      · rw [if_neg (by simpa using hoff), run_bind_eq_ok_iff] at h
        obtain ⟨taken, _, htaken, h⟩ := h
        obtain ⟨rfl, htaken⟩ := run_taken_eq_ok_iff.mp htaken
        rw [run_bind_eq_ok_iff] at h
        obtain ⟨blocked, _, hblocked, h⟩ := h
        obtain ⟨rfl, hblocked⟩ := run_breaks_eq_ok_iff.mp hblocked
        rw [run_ofExcept_bind_eq_ok_iff] at h
        obtain ⟨slots, hslots, h⟩ := h
        obtain ⟨hrender, hdb⟩ := run_ofExcept_eq_ok_iff.mp h
        exact ⟨hdb, barber, shop, service, window, slots, hsells, hwindow,
          .cut hclosed hshifts hoff htaken hblocked hslots, hrender⟩
  · rintro ⟨rfl, barber, shop, service, window, slots, hsells, hwindow, hcuts,
      hrender⟩
    refine ⟨_, _, run_loadAndValidate_eq_ok_iff.mpr ⟨hsells, rfl⟩, ?_⟩
    dsimp only
    refine run_ofExcept_bind_eq_ok_iff.mpr ⟨window, hwindow, ?_⟩
    rw [query_bind, run_read]
    cases hcuts with
    | closed hclosed =>
        rw [if_pos (decide_eq_true hclosed), run_ofExcept_eq_ok_iff]
        exact ⟨hrender, rfl⟩
    | off hopen hshifts hoff =>
        rw [if_neg (by simpa using hopen), run_bind_eq_ok_iff]
        refine ⟨_, _, run_shiftsFor_eq_ok_iff.mpr ⟨rfl, _, hshifts, rfl⟩, ?_⟩
        rw [if_pos (by simp [hoff]), run_ofExcept_eq_ok_iff]
        exact ⟨hrender, rfl⟩
    | cut hopen hshifts hworks htaken hblocked hslots =>
        rw [if_neg (by simpa using hopen), run_bind_eq_ok_iff]
        refine ⟨_, _, run_shiftsFor_eq_ok_iff.mpr ⟨rfl, _, hshifts, rfl⟩, ?_⟩
        rw [if_neg (by simpa using hworks), run_bind_eq_ok_iff]
        refine ⟨_, _, run_taken_eq_ok_iff.mpr ⟨rfl, htaken⟩, ?_⟩
        refine run_bind_eq_ok_iff.mpr
          ⟨_, _, run_breaks_eq_ok_iff.mpr ⟨rfl, hblocked⟩, ?_⟩
        refine run_ofExcept_bind_eq_ok_iff.mpr ⟨_, hslots, ?_⟩
        exact run_ofExcept_eq_ok_iff.mpr ⟨hrender, rfl⟩

/-- The appointments that meet the window decide the instants inside it. -/
theorem covered_appointmentsIn_iff
    {db : Database} {barberId : Uuid} {window : Interval}
    {exclude : Option Uuid} {taken : List Interval}
    (h : ((db.appointmentsIn barberId window exclude).mapM fun a =>
      Interval.new a.startTime a.endTime) = .ok taken)
    {x : ℤ} (hx : x ∈ window) :
    Covered taken x ↔ db.InAppointment barberId exclude x := by
  rw [covered_spans h]
  rw [Database.appointmentsIn, Database.InAppointment]
  simp only [List.mem_filter, decide_eq_true_eq]
  apply exists_congr
  intro a
  constructor
  · rintro ⟨⟨ha, hbarber, hactive, -, -, hexclude⟩, hs, he⟩
    exact ⟨ha, hbarber, hactive, hexclude, hs, he⟩
  · rintro ⟨ha, hbarber, hactive, hexclude, hs, he⟩
    exact ⟨⟨ha, hbarber, hactive, lt_of_le_of_lt hs hx.2,
      lt_of_le_of_lt hx.1 he, hexclude⟩, hs, he⟩

/-- The breaks that meet the window decide the instants inside it. -/
theorem covered_breaksIn_iff
    {db : Database} {barberId : Uuid} {window : Interval}
    {blocked : List Interval}
    (h : ((db.breaksIn barberId window).mapM fun b =>
      Interval.new b.startDatetime b.endDatetime) = .ok blocked)
    {x : ℤ} (hx : x ∈ window) :
    Covered blocked x ↔ db.InBreak barberId x := by
  rw [covered_spans h]
  rw [Database.breaksIn, Database.InBreak]
  simp only [List.mem_filter, decide_eq_true_eq]
  apply exists_congr
  intro b
  constructor
  · rintro ⟨⟨hb, hbarber, -, -⟩, hs, he⟩
    exact ⟨hb, hbarber, hs, he⟩
  · rintro ⟨hb, hbarber, hs, he⟩
    exact ⟨⟨hb, hbarber, lt_of_le_of_lt hs hx.2, lt_of_le_of_lt hx.1 he⟩,
      hs, he⟩

/-- What is left of the shifts when what is busy is taken away. -/
theorem covered_free_iff
    {env : Env} {db : Database} {barberId : Uuid} {shop : Barbershop}
    {day : ℤ} {exclude : Option Uuid} {ignoreAppointments : Bool}
    {window : Interval} {shifts taken blocked : List Interval}
    (hwindow : localDayBounds day (env.shopTimezone shop) = .ok window)
    (hshifts : ∀ x, Covered shifts x ↔
      db.InShift (env.shopTimezone shop) barberId day x)
    (htaken : ∀ x ∈ window, Covered taken x ↔
      ignoreAppointments = false ∧ db.InAppointment barberId exclude x)
    (hblocked : ∀ x ∈ window, Covered blocked x ↔ db.InBreak barberId x)
    (x : ℤ) :
    ((Covered shifts x ∧ x ∈ window) ∧
        ¬ Covered (clip (taken ++ blocked) window) x) ↔
      FreeAt env db barberId shop day exclude ignoreAppointments x := by
  obtain ⟨-, -, -, hstart, hstop⟩ := localDayBounds_eq_ok_iff.mp hwindow
  have hday : x ∈ window ↔ InDay (env.shopTimezone shop) day x := by
    rw [Interval.mem_def, hstart, hstop]
    rfl
  constructor
  · rintro ⟨⟨hshift, hin⟩, hfree⟩
    rw [covered_clip, covered_append, htaken x hin, hblocked x hin] at hfree
    exact ⟨hday.mp hin, (hshifts x).mp hshift,
      fun hbreak => hfree ⟨Or.inr hbreak, hin⟩,
      fun hcounts happ => hfree ⟨Or.inl ⟨hcounts, happ⟩, hin⟩⟩
  · intro h
    have hin := hday.mpr h.in_day
    refine ⟨⟨(hshifts x).mpr h.in_shift, hin⟩, ?_⟩
    rw [covered_clip, covered_append, htaken x hin, hblocked x hin]
    rintro ⟨⟨hcounts, happ⟩ | hbreak, -⟩
    · exact h.no_appointment hcounts happ
    · exact h.no_break hbreak

/-- The slots cut from what was fetched start at the bookable starts. -/
theorem bookable_iff_of_fetched
    {env : Env} {db : Database} {barberId : Uuid} {shop : Barbershop}
    {service : Service} {day now : ℤ} {exclude : Option Uuid}
    {ignoreAppointments : Bool} {window : Interval}
    {shifts taken blocked slots : List Interval}
    (hopen : ¬ db.ClosedOn shop.id day)
    (hwindow : localDayBounds day (env.shopTimezone shop) = .ok window)
    (hshifts : ∀ x, Covered shifts x ↔
      db.InShift (env.shopTimezone shop) barberId day x)
    (htaken : ∀ x ∈ window, Covered taken x ↔
      ignoreAppointments = false ∧ db.InAppointment barberId exclude x)
    (hblocked : ∀ x ∈ window, Covered blocked x ↔ db.InBreak barberId x)
    (hslots : freeSlots env service now window shifts
      (clip (taken ++ blocked) window) = .ok slots) (t : ℤ) :
    (∃ slot ∈ slots, slot.start = t) ↔
      Bookable env db barberId shop service day now exclude
        ignoreAppointments t := by
  obtain ⟨-, -, -, hstart, -⟩ := localDayBounds_eq_ok_iff.mp hwindow
  have hpositive : 0 < service.duration := duration_pos_of_freeSlots hslots
  have hfree := covered_free_iff hwindow hshifts htaken hblocked
  rw [freeSlots_starts_iff hslots, hstart]
  simp only [hfree]
  constructor
  · rintro ⟨hlead, hgrid, h⟩
    exact ⟨hpositive, hopen, hlead, hgrid, fun x hx hx' => (h x hx hx').in_day,
      fun x hx hx' => (h x hx hx').in_shift,
      fun x hx hx' => (h x hx hx').no_break,
      fun hcounts x hx hx' => (h x hx hx').no_appointment hcounts⟩
  · intro h
    exact ⟨h.lead, h.on_grid, fun x hx hx' => ⟨h.in_day x hx hx',
      h.in_shift x hx hx', h.no_break x hx hx',
      fun hcounts => h.no_appointment hcounts x hx hx'⟩⟩

theorem FetchesTaken.covered_iff
    {db : Database} {barberId : Uuid} {window : Interval}
    {exclude : Option Uuid} {ignoreAppointments : Bool}
    {taken : List Interval}
    (h : FetchesTaken db barberId window exclude ignoreAppointments taken)
    {x : ℤ} (hx : x ∈ window) :
    Covered taken x ↔
      ignoreAppointments = false ∧ db.InAppointment barberId exclude x := by
  rcases h with ⟨rfl, rfl⟩ | ⟨rfl, htaken⟩
  · simp
  · rw [covered_appointmentsIn_iff htaken hx]
    simp

/-- The slots shown are those of the bookable starts. -/
theorem Cuts.starts_iff
    {env : Env} {db : Database} {barberId : Uuid} {shop : Barbershop}
    {service : Service} {day now : ℤ} {exclude : Option Uuid}
    {ignoreAppointments : Bool} {window : Interval} {slots : List Interval}
    (hwindow : localDayBounds day (env.shopTimezone shop) = .ok window)
    (h : Cuts env db barberId shop service day now exclude ignoreAppointments
      window slots) (t : ℤ) :
    (∃ slot ∈ slots, slot.start = t) ↔
      Bookable env db barberId shop service day now exclude
        ignoreAppointments t := by
  cases h with
  | closed hclosed =>
      simp only [List.not_mem_nil, false_and, exists_false, false_iff]
      exact fun hb => hb.is_open hclosed
  | off hopen hshifts hoff =>
      simp only [List.not_mem_nil, false_and, exists_false, false_iff]
      intro hb
      have hin := hb.in_shift t le_rfl (by have := hb.positive; omega)
      rw [← covered_shifts hshifts, hoff] at hin
      exact covered_nil t hin
  | cut hopen hshifts _ htaken hblocked hslots =>
      exact bookable_iff_of_fetched hopen hwindow (covered_shifts hshifts)
        (fun x hx => htaken.covered_iff hx)
        (fun x hx => covered_breaksIn_iff hblocked hx) hslots t

theorem Cuts.stop_eq
    {env : Env} {db : Database} {barberId : Uuid} {shop : Barbershop}
    {service : Service} {day now : ℤ} {exclude : Option Uuid}
    {ignoreAppointments : Bool} {window : Interval} {slots : List Interval}
    (h : Cuts env db barberId shop service day now exclude ignoreAppointments
      window slots) {slot : Interval} (hslot : slot ∈ slots) :
    slot.stop = slot.start + service.duration := by
  cases h with
  | closed hclosed => simp at hslot
  | off hopen hshifts hoff => simp at hslot
  | cut hopen hshifts _ htaken hblocked hslots =>
      exact slotsIn_stop (freeSlots_eq_ok_iff.mp hslots).2.1 hslot

/-- What the endpoint answers: the starts it offers are the bookable ones, and
each slot is as long as the service. -/
theorem answers_of_run
    {env : Env} {db db' : Database} {barberId : Uuid} {day : ℤ}
    {serviceId : Uuid} {now : ℤ} {exclude : Option Uuid}
    {ignoreAppointments : Bool} {offer : AvailabilityRead}
    (h : (availableSlots env barberId day serviceId now exclude
      ignoreAppointments).run db = (.ok offer, db')) :
    ∃ barber shop service, Answers env db barberId day serviceId now exclude
      ignoreAppointments offer barber shop service := by
  obtain ⟨-, barber, shop, service, window, slots, hsells, hwindow, hcuts,
    hrender⟩ := run_availableSlots_eq_ok_iff.mp h
  refine ⟨barber, shop, service, hsells, ?_, ⟨window, hwindow⟩, ?_, ?_, ?_⟩
  · obtain ⟨reads, -, rfl⟩ := render_eq_ok_iff.mp hrender
    rfl
  · intro t
    rw [exists_rendered_iff hrender fun s _ => s = t]
    exact hcuts.starts_iff hwindow t
  · intro slot hslot
    obtain ⟨cut, hcut, hstart, hstop⟩ :=
      (exists_rendered_iff hrender fun s e =>
        s = slot.start ∧ e = slot.stop).mp ⟨slot, hslot, rfl, rfl⟩
    rw [← hstart, ← hstop]
    exact hcuts.stop_eq hcut
  · intro slot hslot
    exact readable_of_render hrender hslot

/-- A booking lies inside its day. -/
theorem Bookable.within
    {env : Env} {db : Database} {barberId : Uuid} {shop : Barbershop}
    {service : Service} {day now : ℤ} {exclude : Option Uuid}
    {ignoreAppointments : Bool} {t : ℤ}
    (h : Bookable env db barberId shop service day now exclude
      ignoreAppointments t) :
    dayStart (env.shopTimezone shop) day ≤ t ∧
      t + service.duration ≤ dayStart (env.shopTimezone shop) (day + 1) := by
  have hpos := h.positive
  have hfirst := (h.in_day t le_rfl (by omega)).1
  have hlast := (h.in_day (t + service.duration - 1) (by omega) (by omega)).2
  omega

end BarberHub
