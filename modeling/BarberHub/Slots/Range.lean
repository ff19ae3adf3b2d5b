import BarberHub.Slots.Bookable

/-!
# Room in the calendar

Python's datetimes end with the year 9999, and the slot computation looks a
little past the day it works on: one booking and one step of the grid.  When
the time zones leave that much room, other bookings can change which slots are
shown, but they cannot make the computation raise.
-/

namespace BarberHub

open HalfOpen ReadCommitted Program Fallible

/-- After every local day there is room for the longest service and a step of
the grid, and the zone's clock can be shown at every instant of the day. -/
structure Env.LeavesRoom (env : Env) : Prop where
  ends : ∀ tz, env.Knows tz → ∀ day I, localDayBounds day tz = .ok I →
    I.stop + env.slotStep + minutes 480 ≤ datetimeMax
  clock : ∀ tz, env.Knows tz → ∀ day I, localDayBounds day tz = .ok I →
    ∀ x, I.start ≤ x → x ≤ I.stop → Representable (tz.toWall x)

/-- A clock that is never changed leaves room, unless it is far behind UTC. -/
theorem Env.leavesRoom_of_fixed
    {env : Env} {key : String} {offset : ℤ}
    (hknows : ∀ tz, env.Knows tz → tz = .fixed key offset)
    (hbehind : -oneDay < offset)
    (hroom : env.slotStep + minutes 480 < oneDay + offset) :
    env.LeavesRoom where
  ends tz htz day I hI := by
    obtain rfl := hknows tz htz
    obtain ⟨hday, -, -, -, hstop⟩ := localDayBounds_eq_ok_iff.mp hI
    rw [hstop]
    simp only [dayStart, OffsetZone.Zone.toInstant_fixed, midnight, oneDay,
      datetimeMax, dateMax] at hday hroom ⊢
    omega
  clock tz htz day I hI x hx hx' := by
    obtain rfl := hknows tz htz
    obtain ⟨hday, hlow, -, hstart, hstop⟩ := localDayBounds_eq_ok_iff.mp hI
    have hmin := hlow.1
    rw [hstart] at hx
    rw [hstop] at hx'
    rw [OffsetZone.Zone.toWall_fixed]
    simp only [dayStart, OffsetZone.Zone.toInstant_fixed, midnight, oneDay,
      datetimeMin] at hmin hx hx' hbehind
    constructor
    · unfold datetimeMin oneDay
      omega
    · unfold datetimeMax dateMax oneDay
      unfold dateMax at hday
      omega

theorem Sample.env_leavesRoom : Sample.env.LeavesRoom :=
  Env.leavesRoom_of_fixed (fun _ htz => Sample.eq_of_knows htz) (by decide)
    (by decide)

/-! ## The datetimes the computation goes through -/

/-- Every booking tried begins less than a step after the end of the day. -/
theorem slotsRepresentable_of_room
    {free : List Interval} {duration step notBefore anchor low high : ℤ}
    (hduration : 0 < duration) (hstep : 0 < step) (hlow : datetimeMin ≤ low)
    (hfree : ∀ span ∈ free, low ≤ span.start ∧ span.stop ≤ high)
    (hbefore : notBefore ≤ high)
    (hroom : high + step + duration ≤ datetimeMax) :
    SlotsRepresentable free duration step notBefore anchor := by
  rw [slotsRepresentable_iff hduration hstep
    fun span hspan => le_trans hlow (hfree span hspan).1]
  intro span hspan t htries
  have hhigh := (hfree span hspan).2
  have hlt := span.start_lt_stop
  rcases htries.reached with hfirst | hpred <;> omega

/-- Free time lies inside the day. -/
theorem free_within
    {shifts busy : List Interval} {window span : Interval}
    (h : span ∈ subtract (normalize (clip shifts window)) busy) :
    window.start ≤ span.start ∧ span.stop ≤ window.stop := by
  have hin : ∀ x, x ∈ span → x ∈ window := by
    intro x hx
    have hcov : Covered (subtract (normalize (clip shifts window)) busy) x :=
      ⟨span, h, hx⟩
    rw [covered_subtract, covered_normalize, covered_clip] at hcov
    exact hcov.1.2
  have hlt := span.start_lt_stop
  have hfirst := hin span.start span.start_mem
  have hlast := hin (span.stop - 1) ⟨by omega, by omega⟩
  exact ⟨hfirst.1, by have := hlast.2; omega⟩

/-- Slots lie inside the day. -/
theorem freeSlots_within
    {env : Env} {service : Service} {now : ℤ} {window : Interval}
    {shifts busy slots : List Interval}
    (h : freeSlots env service now window shifts busy = .ok slots)
    {slot : Interval} (hslot : slot ∈ slots) :
    window.start ≤ slot.start ∧ slot.stop ≤ window.stop := by
  have hpositive := duration_pos_of_freeSlots h
  have hstop := slotsIn_stop (freeSlots_eq_ok_iff.mp h).2.1 hslot
  obtain ⟨-, -, hfree⟩ :=
    (freeSlots_starts_iff h slot.start).mp ⟨slot, hslot, rfl⟩
  have hfirst := (hfree slot.start le_rfl (by omega)).1.2
  have hlast := (hfree (slot.stop - 1) (by omega) (by omega)).1.2
  exact ⟨hfirst.1, by have := hlast.2; omega⟩

/-! ## Other bookings do not make the computation raise -/

section

variable {env : Env} {service : Service} {now day : ℤ} {window : Interval}
  {shop : Barbershop}

/-- The slot arithmetic is defined for any busy time. -/
theorem exists_freeSlots
    (hroom : env.LeavesRoom)
    (hwindow : localDayBounds day (env.shopTimezone shop) = .ok window)
    (hchecked : service.Checked) (hstep : 0 < env.slotStep)
    (hnow : Representable (now + env.bookingLead))
    (hlead : now + env.bookingLead ≤ window.stop)
    (shifts busy : List Interval) :
    ∃ slots, freeSlots env service now window shifts busy = .ok slots := by
  obtain ⟨hpos, hlong, -⟩ := hchecked
  have hduration : 0 < service.duration := by
    rw [Service.duration, minutes]
    omega
  have hlongest : service.duration ≤ minutes 480 := by
    unfold Service.duration minutes
    omega
  have hends := hroom.ends _ (env.knows_shopTimezone shop) day window hwindow
  obtain ⟨-, hlow, -, hstart, -⟩ := localDayBounds_eq_ok_iff.mp hwindow
  have hfirst : datetimeMin ≤ window.start := by
    rw [hstart]
    exact hlow.1
  have hrep : SlotsRepresentable (subtract (normalize (clip shifts window)) busy)
      service.duration env.slotStep (now + env.bookingLead) window.start :=
    slotsRepresentable_of_room hduration hstep hfirst
      (fun span hspan => free_within hspan) hlead (by omega)
  obtain ⟨slots, hslots⟩ : ∃ slots, computeFreeSlots (clip shifts window) busy
      service.duration env.slotStep (now + env.bookingLead) window.start =
        .ok slots := by
    rw [computeFreeSlots, slotsIn]
    rw [dif_pos ⟨hduration, hstep⟩]
    exact ⟨_, rfl⟩
  exact ⟨slots, freeSlots_eq_ok_iff.mpr ⟨hnow, hslots, hrep⟩⟩

/-- Slots of the day can be rendered. -/
theorem exists_render
    (hroom : env.LeavesRoom)
    (hwindow : localDayBounds day (env.shopTimezone shop) = .ok window)
    (barberId : Uuid) {slots : List Interval}
    (hslots : ∀ slot ∈ slots,
      window.start ≤ slot.start ∧ slot.stop ≤ window.stop) :
    ∃ offer, render day (env.shopTimezone shop) barberId service slots =
      .ok offer := by
  have hclock := hroom.clock _ (env.knows_shopTimezone shop) day window hwindow
  obtain ⟨reads, hreads⟩ :
      ∃ reads, slots.mapM (slotRead (env.shopTimezone shop)) = .ok reads := by
    apply exists_mapM_eq_ok
    intro slot hslot
    obtain ⟨hfirst, hlast⟩ := hslots slot hslot
    have hlt := slot.start_lt_stop
    exact ⟨_, slotRead_eq_ok_iff.mpr ⟨hclock _ hfirst (by omega),
      hclock _ (by omega) hlast, rfl⟩⟩
  exact ⟨_, render_eq_ok_iff.mpr ⟨reads, hreads, rfl⟩⟩

/-- If a start is shown, the endpoint also answers with other appointments in
the table, and when it ignores them. -/
theorem exists_offer_of_appointments
    (hroom : env.LeavesRoom) {db : Database} {barberId serviceId : Uuid}
    {offer : AvailabilityRead} {slot : SlotRead}
    (hchecked : ∀ service ∈ db.services, service.Checked)
    (hoffer : (availableSlots env barberId day serviceId now none false).run
      db = (.ok offer, db)) (hslot : slot ∈ offer.slots)
    {rows : List Appointment} (hordered : ∀ a ∈ rows, a.startTime < a.endTime)
    (exclude : Option Uuid) (ignoreAppointments : Bool) :
    ∃ offer', (availableSlots env barberId day serviceId now exclude
        ignoreAppointments).run { db with appointments := rows } =
      (.ok offer', { db with appointments := rows }) := by
  obtain ⟨-, barber, shop, service, window, slots, hsells, hwindow, hcuts,
    hrender⟩ := run_availableSlots_eq_ok_iff.mp hoffer
  have hbookable := (hcuts.starts_iff hwindow slot.start).mp
    ((exists_rendered_iff hrender fun s _ => s = slot.start).mp
      ⟨slot, hslot, rfl⟩)
  have hpositive := hbookable.positive
  obtain ⟨-, hlast⟩ := hbookable.within
  obtain ⟨-, -, -, -, hstop⟩ := localDayBounds_eq_ok_iff.mp hwindow
  cases hcuts with
  | closed hclosed => exact absurd hclosed hbookable.is_open
  | off hopen hshifts hoff =>
      have hin := hbookable.in_shift slot.start le_rfl (by omega)
      rw [← covered_shifts hshifts, hoff] at hin
      exact absurd hin (covered_nil _)
  | @cut shifts taken blocked _ hopen hshifts hworks htaken hblocked hslots =>
      obtain ⟨hnow, harith, -⟩ := freeSlots_eq_ok_iff.mp hslots
      have hstep : 0 < env.slotStep := step_pos_of_computeFreeSlots harith
      obtain ⟨taken', htaken'⟩ : ∃ taken', FetchesTaken
          { db with appointments := rows } barberId window exclude
          ignoreAppointments taken' :=
        exists_fetchesTaken hordered barberId window exclude ignoreAppointments
      have hlead := hbookable.lead
      obtain ⟨slots', hslots'⟩ := exists_freeSlots hroom hwindow
        (hchecked service (KeyedTable.mem_of_lookup hsells.service_eq)) hstep
        hnow (by omega) shifts.reduceOption (clip (taken' ++ blocked) window)
      obtain ⟨offer', hrender'⟩ := exists_render hroom hwindow barberId
        fun slot hslot => freeSlots_within hslots' hslot
      refine ⟨offer', run_availableSlots_eq_ok_iff.mpr ⟨rfl, barber, shop,
        service, window, slots', ⟨hsells.1, hsells.2, hsells.3, hsells.4,
          hsells.5, hsells.6, hsells.7, hsells.8⟩, hwindow, ?_, hrender'⟩⟩
      exact .cut hopen hshifts hworks htaken' hblocked hslots'

end

end BarberHub
