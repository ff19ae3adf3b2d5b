import BarberHub.Booking.Exclusion
import BarberHub.System.Operations
import Mathlib.Data.Int.ConditionallyCompleteOrder
import Mathlib.Order.ConditionallyCompleteLattice.Basic

/-!
# Bookings in blocked time

A break blocks instants of one barber, a closure blocks local days of a shop.
Bookings are made outside of both, and neither is recorded over a booking, so
the two stay apart in every run; except that the days of a closure move when
the shop is given another time zone, which looks at no appointment.
-/

namespace BarberHub

open HalfOpen KeyedTable ReadCommitted Program Runs

/-! ## Blocked time -/

/-- The instant lies in a local day on which the shop is closed. -/
def Database.InClosure (env : Env) (db : Database) (shop : Barbershop)
    (x : ℤ) : Prop :=
  ∃ day, db.ClosedOn shop.id day ∧ InDay (env.shopTimezone shop) day x

/-- No instant of the span is in a break of the barber. -/
def Database.OffBreaks (db : Database) (barberId : Uuid) (start stop : ℤ) :
    Prop :=
  ∀ x, start ≤ x → x < stop → ¬ db.InBreak barberId x

/-- No instant of the span is on a closed day of the barber's shop. -/
def Database.OffClosures (env : Env) (db : Database) (barberId : Uuid)
    (start stop : ℤ) : Prop :=
  ∀ barber shop, db.barber? barberId = some barber →
    db.barbershop? barber.shopId = some shop →
    ∀ x, start ≤ x → x < stop → ¬ db.InClosure env shop x

/-- The span is clear of the barber's blocked time. -/
structure Database.ClearFor (env : Env) (db : Database) (barberId : Uuid)
    (start stop : ℤ) : Prop where
  no_break : db.OffBreaks barberId start stop
  no_closure : db.OffClosures env barberId start stop

/-- No active appointment meets blocked time. -/
def Database.Clear (env : Env) (db : Database) : Prop :=
  ∀ a ∈ db.appointments, a.status.blocksSlot = true →
    db.ClearFor env a.barberId a.startTime a.endTime

/-- No zone has ever moved its clock so far that a local day began before the
one before it. -/
def Env.MidnightsOrdered (env : Env) : Prop :=
  ∀ tz, env.Knows tz → Monotone (dayStart tz)

/-- An instant lies in one local day. -/
theorem inDay_unique
    {tz : Zone} (h : Monotone (dayStart tz)) {day day' x : ℤ}
    (hx : InDay tz day x) (hx' : InDay tz day' x) : day = day' := by
  by_contra hne
  rcases lt_or_gt_of_ne hne with hlt | hgt
  · have hle := h (show day + 1 ≤ day' by omega)
    exact absurd (hx.2.trans_le (hle.trans hx'.1)) (lt_irrefl x)
  · have hle := h (show day' + 1 ≤ day by omega)
    exact absurd (hx'.2.trans_le (hle.trans hx.1)) (lt_irrefl x)

/-- The instants of a range of local days. -/
theorem InDay.mem_range
    {tz : Zone} (h : Monotone (dayStart tz)) {first last day x : ℤ}
    (hx : InDay tz day x) (hfirst : first ≤ day) (hlast : day ≤ last) :
    dayStart tz first ≤ x ∧ x < dayStart tz (last + 1) :=
  ⟨(h hfirst).trans hx.1,
    hx.2.trans_le (h (show day + 1 ≤ last + 1 by omega))⟩

section

variable {env : Env} {s s' : Database}

/-- A booking on an open day, of a service the barber sells, stays clear of
the closures. -/
theorem Bookable.offClosures
    (hmid : env.MidnightsOrdered) {barberId serviceId : Uuid} {barber : Barber}
    {shop : Barbershop} {service : Service} {day now start : ℤ}
    {exclude : Option Uuid} {ignoreAppointments : Bool}
    (h : Bookable env s barberId shop service day now exclude
      ignoreAppointments start)
    (hsells : s.Sells barberId serviceId barber shop service) :
    s.OffClosures env barberId start (start + service.duration) := by
  intro barber' shop' hbarber hshop x hx hx'
  obtain ⟨rfl, rfl⟩ := hsells.shop_unique hbarber hshop
  rintro ⟨closed, hclosed, hday⟩
  obtain rfl := inDay_unique (hmid _ (env.knows_shopTimezone shop')) hday
    (h.in_day x hx hx')
  exact h.is_open hclosed

/-- A start on offer is clear of blocked time. -/
theorem Database.OnOffer.clearFor
    (hmid : env.MidnightsOrdered) {barber : Barber} {service : Service}
    {start now : ℤ} {exclude : Option Uuid}
    (h : s.OnOffer env barber service start now exclude) :
    s.ClearFor env barber.id start (start + service.duration) := by
  obtain ⟨shop, hsells, hbookable⟩ := h
  exact ⟨hbookable.no_break, hbookable.offClosures hmid hsells⟩

/-- Nothing more is blocked, as far as the barber is concerned. -/
theorem Database.ClearFor.mono
    {barberId : Uuid} {start stop : ℤ}
    (h : s.ClearFor env barberId start stop)
    (hbreak : ∀ x, start ≤ x → x < stop → s'.InBreak barberId x →
      s.InBreak barberId x)
    (hclosure : ∀ barber' shop', s'.barber? barberId = some barber' →
      s'.barbershop? barber'.shopId = some shop' →
      ∃ barber shop, s.barber? barberId = some barber ∧
        s.barbershop? barber.shopId = some shop ∧
        ∀ x, start ≤ x → x < stop → s'.InClosure env shop' x →
          s.InClosure env shop x) :
    s'.ClearFor env barberId start stop := by
  refine ⟨fun x hx hx' hin => h.no_break x hx hx' (hbreak x hx hx' hin), ?_⟩
  intro barber' shop' hbarber' hshop' x hx hx' hin
  obtain ⟨barber, shop, hbarber, hshop, hback⟩ :=
    hclosure barber' shop' hbarber' hshop'
  exact h.no_closure barber shop hbarber hshop x hx hx' (hback x hx hx' hin)

/-! ## Bookings -/

/-- Only appointments and the queue differ. -/
theorem Database.ClearFor.of_frame
    {barberId : Uuid} {start stop : ℤ}
    (h : s.ClearFor env barberId start stop)
    (hframe : s' = { s with
      appointments := s'.appointments, queue := s'.queue }) :
    s'.ClearFor env barberId start stop := by
  rw [hframe]
  exact ⟨h.no_break, h.no_closure⟩

theorem Database.Clear.insert
    {row : Appointment} (h : s.Clear env)
    (hrow : s.ClearFor env row.barberId row.startTime row.endTime)
    (hinsert : insertAppointment env row s = .ok s') : s'.Clear env := by
  obtain ⟨rfl, -, -⟩ := insertAppointment_eq_ok hinsert
  intro a ha hactive
  rcases List.mem_append.mp ha with hold | ha
  · exact (h a hold hactive).of_frame rfl
  · obtain rfl := List.mem_singleton.mp ha
    exact hrow.of_frame rfl

theorem Database.Clear.update
    {id : Uuid} {u : AppointmentUpdate}
    (hkeys : UniqueKeys Appointment.id s.appointments) (h : s.Clear env)
    (hrow : ∀ row, s.appointment? id = some row →
      (u.apply row).status.blocksSlot = true →
      s.ClearFor env row.barberId (u.apply row).startTime (u.apply row).endTime)
    (hupdate : updateAppointment env id u s = .ok s') : s'.Clear env := by
  obtain rfl := updateAppointment_eq_ok hupdate
  intro a ha hactive
  rcases mem_updateAt.mp ha with ⟨hold, -⟩ | ⟨row, hmem, hid, rfl⟩
  · exact (h a hold hactive).of_frame rfl
  · have hfound := hkeys.lookup_eq_some_iff.mpr ⟨hmem, hid⟩
    exact (hrow row hfound hactive).of_frame rfl

theorem clear_expired
    {stale : List Appointment} (hpending : ∀ a ∈ stale, a.status = .pending)
    (hcalendar : s.Calendar) (h : s.Clear env)
    (hupdate : stale.foldlM (fun db a =>
      updateAppointment env a.id (expiry a) db) s = .ok s') : s'.Clear env := by
  induction stale generalizing s with
  | nil =>
      obtain rfl := Except.ok.inj hupdate
      exact h
  | cons a stale ih =>
      rw [List.foldlM_cons, Fallible.bind_eq_ok_iff] at hupdate
      obtain ⟨t, ht, hupdate⟩ := hupdate
      have hstatus := expiry_status (hpending a List.mem_cons_self)
      refine ih (fun b hb => hpending b (List.mem_cons_of_mem _ hb))
        (hcalendar.update (harmless_expiry s a.id
          (hpending a List.mem_cons_self)) ht)
        (h.update hcalendar.keys ?_ ht) hupdate
      intro row _ hactive
      simp [AppointmentUpdate.apply, hstatus, AppointmentStatus.blocksSlot]
        at hactive

/-- Every commit of a booking keeps out of blocked time. -/
theorem BookingCommit.clear
    (hmid : env.MidnightsOrdered) (hcalendar : s.Calendar) (h : s.Clear env)
    (hcommit : BookingCommit env s s') : s'.Clear env := by
  cases hcommit with
  | created row barber service now hresolves hstop hoffer hinsert =>
      refine h.insert ?_ hinsert
      rw [hstop, ← hresolves.barber_id]
      exact hoffer.clearFor hmid
  | moved a u barber service start now hrow _ hresolves hoffer hstart hstop _
      hupdate =>
      refine h.update hcalendar.keys ?_ hupdate
      intro row hfound _
      obtain rfl := Option.some.inj (hrow.symm.trans hfound)
      rw [hstart, hstop, ← hresolves.barber_id]
      exact hoffer.clearFor hmid
  | settled a u hrow hactive hstart hstop hupdate =>
      refine h.update hcalendar.keys ?_ hupdate
      intro row hfound _
      obtain rfl := Option.some.inj (hrow.symm.trans hfound)
      simpa [AppointmentUpdate.apply, hstart, hstop] using
        h a (mem_of_lookup hrow) hactive
  | expired stale hstale hupdate =>
      exact clear_expired (fun a ha => (hstale a ha).2) hcalendar h hupdate
  | notified task hqueue =>
      subst hqueue
      exact fun a ha hactive => (h a ha hactive).of_frame rfl

/-! ## Breaks and closures -/

theorem Database.Clear.of_rows
    (h : s.Clear env) (happointments : s'.appointments = s.appointments)
    (hrows : ∀ a ∈ s.appointments, a.status.blocksSlot = true →
      s.ClearFor env a.barberId a.startTime a.endTime →
      s'.ClearFor env a.barberId a.startTime a.endTime) : s'.Clear env := by
  intro a ha hactive
  rw [happointments] at ha
  exact hrows a ha hactive (h a ha hactive)

/-- A break over which there is no active appointment of its barber. -/
theorem Database.Clear.insertBreak
    {row : BarberBreak} (h : s.Clear env)
    (hnone : s.clashes row.startDatetime row.endDatetime
      (·.barberId = row.barberId) = [])
    (hinsert : insertBreak row s = .ok s') : s'.Clear env := by
  obtain rfl := insertBreak_eq_ok hinsert
  refine h.of_rows rfl fun a ha hactive hclear =>
    hclear.mono (fun x hx hx' hin => ?_) fun barber shop hbarber hshop =>
      ⟨barber, shop, hbarber, hshop, fun _ _ _ hin => hin⟩
  obtain ⟨b, hb, hbarber, hstart, hstop⟩ := hin
  rcases List.mem_append.mp hb with hold | hb
  · exact ⟨b, hold, hbarber, hstart, hstop⟩
  · obtain rfl := List.mem_singleton.mp hb
    have hoverlap := not_overlap_of_clashes hnone ha
      (decide_eq_true hbarber.symm) hactive
    exact absurd ⟨by omega, by omega⟩ hoverlap

/-- A closure over which there is no active appointment of its shop. -/
theorem Database.Clear.insertClosure
    (hmid : env.MidnightsOrdered) {row : ShopClosure} {shop : Barbershop}
    (h : s.Clear env) (hshop : s.barbershop? row.shopId = some shop)
    (hnone : s.clashes (dayStart (env.shopTimezone shop) row.startDate)
      (dayStart (env.shopTimezone shop) (row.endDate + 1))
      (s.AtShop row.shopId) = [])
    (hinsert : insertClosure row s = .ok s') : s'.Clear env := by
  obtain rfl := insertClosure_eq_ok hinsert
  refine h.of_rows rfl fun a ha hactive hclear =>
    hclear.mono (fun x hx hx' hin => hin) fun barber' shop' hbarber' hshop' =>
      ⟨barber', shop', hbarber', hshop', fun x hx hx' hin => ?_⟩
  obtain ⟨day, ⟨c, hc, hsame, hfirst, hlast⟩, hday⟩ := hin
  rcases List.mem_append.mp hc with hold | hc
  · exact ⟨day, ⟨c, hold, hsame, hfirst, hlast⟩, hday⟩
  · -- the appointment would have been among the clashes
    obtain rfl := List.mem_singleton.mp hc
    have hid : barber'.shopId = c.shopId :=
      (key_of_lookup hshop').symm.trans hsame.symm
    rw [hid] at hshop'
    obtain rfl := Option.some.inj (hshop.symm.trans hshop')
    have hat : s.AtShop c.shopId a = true := by
      rw [AtShop]
      rw [show s.barber? a.barberId = some barber' from hbarber',
        Option.any_some, hid, decide_eq_true rfl]
    obtain ⟨hlow, hhigh⟩ := hday.mem_range
      (hmid _ (env.knows_shopTimezone shop)) hfirst hlast
    have hoverlap := not_overlap_of_clashes hnone ha hat hactive
    exact absurd ⟨by omega, by omega⟩ hoverlap

/-! ## Edits of the shop -/

/-- An update that sends a time zone finds no active appointment of the shop
on a day that is closed when the days are taken in that zone. -/
def ManagementOp.KeepsDays (env : Env) (s : Database) : ManagementOp → Prop
  | updateShop _ id payload => ∀ key, payload.timezone = some (some key) →
      ∀ a ∈ s.appointments, a.status.blocksSlot = true → s.AtShop id a = true →
        ∀ x, a.startTime ≤ x → x < a.endTime →
          ∀ day, s.ClosedOn id day → ¬ InDay (env.zoneNamed key) day x
  | _ => True

/-- The condition on one step of a run. -/
def Executed.KeepsDays (env : Env) (s : Database) (e : Executed) : Prop :=
  ∀ op, e.op = .management op → op.KeepsDays env s

theorem Database.Clear.updateBarber
    {id : Uuid} {u : BarberUpdate} (h : s.Clear env)
    (hflush : flushBarber id u s = .ok s') : s'.Clear env := by
  obtain ⟨hframe, hrows⟩ := flushBarber_eq_ok hflush
  refine h.of_rows (by rw [hframe]) fun a ha hactive hclear =>
    hclear.mono (fun x hx hx' hin => ?_) fun barber' shop hbarber' hshop => ?_
  · rw [hframe] at hin
    exact hin
  · have hshop' : s.barbershop? barber'.shopId = some shop := by
      rw [hframe] at hshop
      exact hshop
    have hback : ∀ x, a.startTime ≤ x → x < a.endTime →
        s'.InClosure env shop x → s.InClosure env shop x := by
      intro x _ _ hin
      rw [hframe] at hin
      exact hin
    rcases hrows _ _ hbarber' with hbarber | ⟨hid, barber, hbarber, happly⟩
    · exact ⟨barber', shop, hbarber, hshop', hback⟩
    · rw [(BarberUpdate.apply_eq_ok happly).2.2.1] at hshop'
      exact ⟨barber, shop, hid ▸ hbarber, hshop', hback⟩

theorem Database.Clear.updateShop
    {id : Uuid} {u : BarbershopUpdate} (h : s.Clear env)
    (hkeeps : ∀ key, u.timezone = some (some key) →
      ∀ a ∈ s.appointments, a.status.blocksSlot = true → s.AtShop id a = true →
        ∀ x, a.startTime ≤ x → x < a.endTime →
          ∀ day, s.ClosedOn id day → ¬ InDay (env.zoneNamed key) day x)
    (hflush : flushShop id u s = .ok s') : s'.Clear env := by
  obtain ⟨hframe, hrows⟩ := flushShop_eq_ok hflush
  refine h.of_rows (by rw [hframe]) fun a ha hactive hclear =>
    hclear.mono (fun x hx hx' hin => ?_) fun barber shop' hbarber hshop' => ?_
  · rw [hframe] at hin
    exact hin
  have hbarber' : s.barber? a.barberId = some barber := by
    rw [hframe] at hbarber
    exact hbarber
  have hclosed : ∀ day, s'.ClosedOn shop'.id day → s.ClosedOn shop'.id day := by
    intro day hday
    rw [hframe] at hday
    exact hday
  rcases hrows _ _ hshop' with hshop | ⟨hid, shop, hshop, happly⟩
  · exact ⟨barber, shop', hbarber', hshop, fun x _ _ ⟨day, hday, hin⟩ =>
      ⟨day, hclosed day hday, hin⟩⟩
  obtain ⟨hsame, -, htimezone, -⟩ := BarbershopUpdate.apply_eq_ok happly
  refine ⟨barber, shop, hbarber', hid ▸ hshop, ?_⟩
  intro x hx hx' hin
  obtain ⟨day, hday, hin⟩ := hin
  have hday' := hclosed day hday
  rw [hsame] at hday'
  rcases Sent.column_eq_ok htimezone with heq | hsent
  · refine ⟨day, hday', ?_⟩
    rw [Env.shopTimezone] at hin ⊢
    rwa [heq] at hin
  · -- the zone was sent: the condition speaks about its days
    have hat : s.AtShop id a = true := by
      rw [AtShop]
      rw [hbarber', Option.any_some, decide_eq_true hid]
    rw [key_of_lookup hshop] at hday'
    exact absurd hin (hkeeps _ hsent a ha hactive hat x hx hx' day hday')

/-- Every commit of the staff that meets the condition keeps bookings out of
blocked time. -/
theorem ManagementCommit.clear
    (hmid : env.MidnightsOrdered) {now : ℤ} {op : ManagementOp}
    (hkeeps : op.KeepsDays env s) (h : s.Clear env)
    (hcommit : ManagementCommit env now s s' op) : s'.Clear env := by
  cases hcommit with
  | updatedBarber user id payload barber hrow hflush =>
      exact h.updateBarber hflush
  | deactivatedBarber user id u hnone hflush => exact h.updateBarber hflush
  | updatedService user id payload service hrow hflush =>
      rw [(flushService_eq_ok hflush).1]
      exact h.of_rows rfl fun a _ _ hclear =>
        ⟨hclear.no_break, hclear.no_closure⟩
  | deactivatedService user id u hnone hflush =>
      rw [(flushService_eq_ok hflush).1]
      exact h.of_rows rfl fun a _ _ hclear =>
        ⟨hclear.no_break, hclear.no_closure⟩
  | updatedShop user id payload shop hrow hflush =>
      refine h.updateShop ?_ hflush
      intro key hkey
      exact hkeeps key (Sent.sent_of_changed hkey)
  | deactivatedShop user id shop hrow hnone hflush =>
      refine h.updateShop ?_ hflush
      intro key hkey
      simp [BarbershopUpdate.changes, Sent.changed] at hkey
  | replacedHours user barberId items newId deleted rows hflush =>
      rw [flushWorkingHours_eq_ok hflush]
      exact h.of_rows rfl fun a _ _ hclear =>
        ⟨hclear.no_break, hclear.no_closure⟩
  | createdBreak user barberId payload id hnone hinsert =>
      exact h.insertBreak hnone hinsert
  | deletedBreak user id hdelete =>
      obtain rfl := Except.ok.inj hdelete
      refine h.of_rows rfl fun a _ _ hclear => hclear.mono
        (fun x _ _ ⟨b, hb, hin⟩ => ⟨b, List.mem_of_mem_filter hb, hin⟩)
        fun barber shop hbarber hshop =>
          ⟨barber, shop, hbarber, hshop, fun _ _ _ hin => hin⟩
  | createdClosure user shopId payload id shop hrow hnone hinsert =>
      have hid := key_of_lookup hrow
      subst hid
      have hshop : s.barbershop? (payload.row shop.id id).shopId = some shop :=
        hrow
      exact h.insertClosure hmid hshop hnone hinsert
  | deletedClosure user id hdelete =>
      obtain rfl := Except.ok.inj hdelete
      refine h.of_rows rfl fun a _ _ hclear => hclear.mono
        (fun _ _ _ hin => hin) fun barber shop hbarber hshop =>
          ⟨barber, shop, hbarber, hshop, fun x _ _ hin => ?_⟩
      obtain ⟨day, ⟨c, hc, hrange⟩, hday⟩ := hin
      exact ⟨day, ⟨c, List.mem_of_mem_filter hc, hrange⟩, hday⟩

end

/-! ## Whole runs -/

/-- What a run keeps: a calendar, clear of blocked time. -/
structure Database.Unblocked (env : Env) (db : Database) : Prop where
  calendar : db.Calendar
  clear : db.Clear env

/-- No active appointment meets blocked time in any state of the run. -/
def ClearAlong (env : Env) (db : Database) (events : List Executed) : Prop :=
  ∀ first, first <+: events → (run env db first).Clear env

theorem step_unblocked
    {env : Env} (hmid : env.MidnightsOrdered) {s : Database} {e : Executed}
    (h : s.Unblocked env) (hkeeps : e.KeepsDays env s) :
    (step env s e).Unblocked env := by
  have hbooking : ∀ t t' : Database, t.Unblocked env →
      BookingCommit env t t' → t'.Unblocked env := fun t t' ht hcommit =>
    ⟨hcommit.calendar ht.calendar, hcommit.clear hmid ht.calendar ht.clear⟩
  refine step_keeps hbooking (fun op s' hop hcommit => ⟨?_, ?_⟩) h
  · exact h.calendar.of_appointments_eq hcommit.appointments
  · exact hcommit.clear hmid (hkeeps op hop) h.clear

/-- In every run in which no update moves a closed day over a booking, no
active appointment is in blocked time, in any state of the run. -/
theorem bookings_unblocked
    (env : Env) (db : Database) (events : List Executed)
    (hmid : env.MidnightsOrdered) (hvalid : db.Valid) (hclear : db.Clear env)
    (hkeeps : Along (step env) (Executed.KeepsDays env) db events) :
    ClearAlong env db events := by
  intro first hfirst
  have hstep : ∀ s e, s.Unblocked env → e.KeepsDays env s →
      (step env s e).Unblocked env := fun _ _ => step_unblocked hmid
  have hreached := hkeeps.invariant hstep ⟨hvalid.calendar, hclear⟩ hfirst
  exact hreached.clear

/-! ## A shop that moves to another zone -/

/-- A world with two zones that never change their clocks. -/
def twoZones : Env where
  zoneinfo key :=
    if key = "UTC" then some (.fixed "UTC" 0)
    else if key = "Asia/Tokyo" then some (.fixed "Asia/Tokyo" (minutes 540))
    else none
  defaultTz := .fixed "UTC" 0

theorem twoZones_midnightsOrdered : twoZones.MidnightsOrdered := by
  have hfixed : ∀ key offset, Monotone (dayStart (.fixed key offset)) := by
    intro key offset day day' hle
    simp only [dayStart, OffsetZone.Zone.toInstant_fixed, midnight, oneDay]
    omega
  intro tz htz
  rcases htz with rfl | ⟨key, hkey⟩
  · exact hfixed "UTC" 0
  · rw [twoZones] at hkey
    dsimp only at hkey
    split at hkey
    · obtain rfl := Option.some.inj hkey
      exact hfixed "UTC" 0
    split at hkey
    · obtain rfl := Option.some.inj hkey
      exact hfixed "Asia/Tokyo" _
    · simp at hkey

/-- The shop closes on Tuesday, a customer books a time on Monday, and the shop
is given the zone of Tokyo. -/
def closeBookMove (start : AwareDatetime) : List Executed :=
  [⟨Sample.clock 8 0, .management (.createClosure Sample.admin 10
      ⟨Sample.monday + 1, Sample.monday + 1, none⟩ 70)⟩,
    ⟨Sample.clock 8 0, .booking (.create Sample.customer ⟨20, 30, start⟩
      (Sample.clock 8 0) 40 (Sample.clock 8 0))⟩,
    ⟨Sample.clock 8 30, .management (.updateShop Sample.admin 10
      { timezone := some (some "Asia/Tokyo") })⟩]

theorem Sample.db_clear : Sample.db.Clear twoZones := by
  intro a ha
  simp [Sample.db] at ha

theorem bookings_unblocked_nine :
    ClearAlong twoZones Sample.db (closeBookMove (Sample.start 9 0)) := by
  refine bookings_unblocked _ _ _ twoZones_midnightsOrdered Sample.db_valid
    Sample.db_clear ⟨?_, ?_, ?_, trivial⟩
  · intro op hop
    obtain rfl := Operation.management.inj hop
    trivial
  · intro op hop
    simp at hop
  · intro op hop
    obtain rfl := Operation.management.inj hop
    intro key hkey a ha _ _ x _ hx' day hday hin
    obtain ⟨c, hc, -, hfirst, hlast⟩ := hday
    have hrows : ∀ a ∈ (run twoZones Sample.db ((closeBookMove
        (Sample.start 9 0)).take 2)).appointments,
        a.endTime = Sample.clock 9 30 := by decide +kernel
    have hclosures : ∀ c ∈ (run twoZones Sample.db ((closeBookMove
        (Sample.start 9 0)).take 2)).shopClosures,
        c.startDate = Sample.monday + 1 ∧ c.endDate = Sample.monday + 1 := by
      decide +kernel
    obtain ⟨hstart, hend⟩ := hclosures c hc
    obtain rfl : day = Sample.monday + 1 := by omega
    obtain rfl := Option.some.inj (Option.some.inj hkey)
    have hmidnight : dayStart (twoZones.zoneNamed "Asia/Tokyo")
        (Sample.monday + 1) = Sample.clock 15 0 := by decide +kernel
    have hlow := hin.1
    have hhigh := hrows a ha
    have hbefore : Sample.clock 9 30 < Sample.clock 15 0 := by decide
    omega

/-- At four on Monday it is Tuesday in Tokyo. -/
theorem booking_blocked_by_move :
    ¬ ClearAlong twoZones Sample.db (closeBookMove (Sample.start 16 0)) := by
  intro h
  have hclear := h _ (List.prefix_refl _)
  have hrow : ∃ a ∈ (run twoZones Sample.db
      (closeBookMove (Sample.start 16 0))).appointments,
      a.status.blocksSlot = true ∧ a.barberId = 20 ∧
        a.startTime = Sample.clock 16 0 ∧ a.endTime = Sample.clock 16 30 := by
    decide +kernel
  obtain ⟨a, ha, hactive, hbarber, hstart, hstop⟩ := hrow
  have hfor := hclear a ha hactive
  rw [hbarber, hstart, hstop] at hfor
  have hclosed : (run twoZones Sample.db
      (closeBookMove (Sample.start 16 0))).ClosedOn 10 (Sample.monday + 1) := by
    decide +kernel
  refine hfor.no_closure Sample.barber
    { Sample.shop with timezone := "Asia/Tokyo" } (by decide +kernel)
      (by decide +kernel) (Sample.clock 16 0) (le_refl _) (by decide)
        ⟨Sample.monday + 1, hclosed, ?_⟩
  exact ⟨by decide +kernel, by decide +kernel⟩

end BarberHub
