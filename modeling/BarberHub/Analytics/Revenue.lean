import BarberHub.Analytics.Dashboards
import BarberHub.System.Sequential

/-!
# Where the revenue comes from

The price of a booking is taken when it is made, and it is earned when the
booking is completed.  In every run of works one after another, the revenue of a
shop over a period is the sum of what the completed bookings were to cost when
they were made, and nothing but completing a booking changes it.
-/

namespace BarberHub

open KeyedTable ReadCommitted Program Database

/-! ## The takings of a run -/

/-- What the booking with the key costs, if the work makes it: the price of the
service at that moment. -/
def Work.priceBooked (env : Env) (s : Database) (id : Uuid) : Work → Option ℤ
  | .booking (.create customer payload now newId createdAt) =>
      if newId = id ∧
          (BookingOp.create customer payload now newId createdAt).Accepted env s
      then (s.service? payload.serviceId).map Service.price
      else none
  | _ => none

/-- What the booking with the key costs, from the work of the run that has made
it. -/
def bookedPrice (env : Env) : Database → List Work → Uuid → Option ℤ
  | _, [], _ => none
  | s, work :: works, id =>
      (work.priceBooked env s id).or
        (bookedPrice env (workStep env s work) works id)

/-- What a work takes in for a shop over a period, after a run: if it completes
an appointment of the shop that starts in the period, what that has cost when it
was booked. -/
def Work.takes (env : Env) (db : Database) (past : List Work) (shopId : Uuid)
    (period : ℤ × ℤ) : Work → ℤ
  | .booking (.complete user id now) =>
      if (BookingOp.complete user id now).Accepted env (workRun env db past) ∧
          ∃ a ∈ (workRun env db past).appointment? id,
            (workRun env db past).AtShop shopId a = true ∧
              period.1 ≤ a.startTime ∧ a.startTime < period.2
      then (bookedPrice env db past id).getD 0
      else 0
  | _ => 0

/-- What the works take in, one after another. -/
def takings (env : Env) (db : Database) (shopId : Uuid) (period : ℤ × ℤ) :
    List Work → List Work → ℤ
  | _, [] => 0
  | past, work :: works =>
      work.takes env db past shopId period +
        takings env db shopId period (past ++ [work]) works

/-- The revenue the dashboard of a shop reports after the run is what the run
has taken in, and a further work that completes nothing does not change it. -/
structure RevenueConserved (env : Env) (db : Database) (works : List Work) :
    Prop where
  reported : ∀ collation user shopId dateFrom dateTo now d,
    ((shopDashboard env collation user shopId (some dateFrom) (some dateTo)
      now).run (workRun env db works)).1 = .ok d →
    d.monthlyRevenue = takings env db shopId (dateFrom, dateTo) [] works
  unchanged : ∀ work : Work,
    (∀ user id moment, work ≠ .booking (.complete user id moment)) →
    ∀ collation user shopId dateFrom dateTo now now' d d',
    ((shopDashboard env collation user shopId (some dateFrom) (some dateTo)
      now).run (workRun env db works)).1 = .ok d →
    ((shopDashboard env collation user shopId (some dateFrom) (some dateTo)
      now').run (workRun env db (works ++ [work]))).1 = .ok d' →
    d'.monthlyRevenue = d.monthlyRevenue

theorem takings_concat
    (env : Env) (db : Database) (shopId : Uuid) (period : ℤ × ℤ)
    (past works : List Work) (work : Work) :
    takings env db shopId period past (works ++ [work]) =
      takings env db shopId period past works +
        work.takes env db (past ++ works) shopId period := by
  induction works generalizing past with
  | nil => simp [takings]
  | cons first works ih =>
      rw [List.cons_append, takings, takings, ih, List.append_assoc,
        List.singleton_append, add_assoc]

/-! ## The revenue as a sum over the appointments -/

/-- What an appointment earns a shop over a period. -/
def Database.earns (db : Database) (shopId : Uuid) (period : ℤ × ℤ)
    (a : Appointment) : ℤ :=
  if a.status = .completed ∧ db.AtShop shopId a = true ∧
      period.1 ≤ a.startTime ∧ a.startTime < period.2
  then a.totalPrice
  else 0

/-- The revenue of a shop over a period. -/
def Database.revenueOf (db : Database) (shopId : Uuid) (period : ℤ × ℤ) : ℤ :=
  (db.appointments.map (db.earns shopId period)).sum

section

variable {db : Database} {shopId : Uuid} {period : ℤ × ℤ}

/-- The join finds the barber of an appointment once. -/
theorem sumPrices_joined
    (hkeys : UniqueKeys Barber.id db.barbers) (a : Appointment) :
    sumPrices Prod.fst
      (((db.barbers.filter fun b => b.id = a.barberId ∧
          shopScope shopId a b = true ∧ period.1 ≤ a.startTime ∧
            a.startTime < period.2).map fun b => (a, b)).filter
        fun row : Appointment × Barber => row.1.status = .completed) =
      db.earns shopId period a := by
  have hsplit : (db.barbers.filter fun b => decide (b.id = a.barberId ∧
      shopScope shopId a b = true ∧ period.1 ≤ a.startTime ∧
        a.startTime < period.2)) =
      (db.barbers.filter fun b => b.id = a.barberId).filter fun b =>
        b.shopId = shopId ∧ period.1 ≤ a.startTime ∧ a.startTime < period.2 := by
    rw [List.filter_filter]
    apply List.filter_congr
    intro b _
    rw [Bool.and_comm]
    simp [shopScope]
  rw [hsplit, hkeys.filter_eq_lookup, earns, AtShop, barber?]
  cases lookup Barber.id db.barbers a.barberId with
  | none => simp [sumPrices]
  | some b =>
      by_cases hin : b.shopId = shopId ∧ period.1 ≤ a.startTime ∧
          a.startTime < period.2 <;>
        by_cases hdone : a.status = .completed <;>
        simp [sumPrices, hin, hdone]

/-- The sum the query makes is the sum over the appointments. -/
theorem sumPrices_earning (hkeys : UniqueKeys Barber.id db.barbers) :
    sumPrices Prod.fst (db.earning (shopScope shopId) period) =
      db.revenueOf shopId period := by
  rw [earning, booked, revenueOf, List.filter_flatMap]
  induction db.appointments with
  | nil => rfl
  | cons a rows ih =>
      rw [List.flatMap_cons, List.map_cons, List.sum_cons, ← ih,
        ← sumPrices_joined hkeys a, sumPrices, List.map_append, List.sum_append]
      rfl

end

/-! ## One step -/

section

variable {env : Env} {s s' : Database} {op : BookingOp} {shopId id : Uuid}
  {period : ℤ × ℤ} {a a' : Appointment}

/-- Only completed appointments earn. -/
theorem earns_of_not_completed (h : a.status ≠ .completed) :
    s.earns shopId period a = 0 := by
  rw [earns, if_neg]
  exact fun hearns => h hearns.1

theorem earns_of_active (h : a.status.blocksSlot = true) :
    s.earns shopId period a = 0 :=
  earns_of_not_completed (AppointmentStatus.ne_of_blocksSlot h rfl)

/-- Appointments that stay as they are earn what they have earned. -/
theorem revenueOf_eq
    (hs : s.Joined) (hpersists : s.Persists s')
    (hrows : s'.appointments = s.appointments) :
    s'.revenueOf shopId period = s.revenueOf shopId period := by
  rw [revenueOf, revenueOf, hrows]
  congr 1
  apply List.map_congr_left
  intro a ha
  rw [earns, earns, hpersists.atShop_eq hs ha]

/-- Turning a row that earns nothing adds what it earns then. -/
theorem revenueOf_turned
    (hkeys : UniqueKeys Appointment.id s.appointments)
    (hrow : s.appointment? a.id = some a) (hnothing : s.earns shopId period a = 0)
    (hcontinues : a.Continues a')
    (hupdate : updateAppointment env a.id (.ofChange a a') s = .ok s') :
    s'.revenueOf shopId period =
      s.revenueOf shopId period + s.earns shopId period a' := by
  obtain rfl := updateAppointment_eq_ok hupdate
  have hsum := sum_updateAt hkeys hrow (AppointmentUpdate.ofChange a a').apply
    (s.earns shopId period)
  rw [hnothing, AppointmentUpdate.apply_ofChange hcontinues, add_zero] at hsum
  exact hsum

/-- Bookings that expire earn nothing, before and after. -/
theorem revenueOf_expired
    {stale : List Appointment} (hdistinct : UniqueKeys Appointment.id stale)
    (hkeys : UniqueKeys Appointment.id s.appointments)
    (hstale : ∀ a ∈ stale, s.appointment? a.id = some a ∧ a.status = .pending)
    (hupdate : stale.foldlM (fun db a =>
      updateAppointment env a.id (expiry a) db) s = .ok s') :
    s'.revenueOf shopId period = s.revenueOf shopId period := by
  induction stale generalizing s with
  | nil =>
      obtain rfl := Except.ok.inj hupdate
      rfl
  | cons a stale ih =>
      rw [List.foldlM_cons, Fallible.bind_eq_ok_iff] at hupdate
      obtain ⟨t, ht, hrest⟩ := hupdate
      rw [UniqueKeys, List.map_cons, List.nodup_cons] at hdistinct
      obtain ⟨hrow, hpending⟩ := hstale a List.mem_cons_self
      have hactive : a.status.blocksSlot = true := by
        rw [hpending]
        rfl
      have hcontinues : a.Continues { a with
          status := .cancelled
          cancellationReason := some "Not confirmed in time" } :=
        ⟨rfl, rfl, rfl, rfl, rfl, rfl⟩
      have hfirst : t.revenueOf shopId period = s.revenueOf shopId period + 0 := by
        rw [revenueOf_turned hkeys hrow (earns_of_active hactive) hcontinues ht]
        exact congrArg _ (earns_of_not_completed (by simp))
      rw [add_zero] at hfirst
      obtain rfl := updateAppointment_eq_ok ht
      rw [← hfirst]
      refine ih hdistinct.2 (hkeys.updateAt fun _ _ _ => rfl) ?_ hrest
      intro b hb
      obtain ⟨hrow', hpending'⟩ := hstale b (List.mem_cons_of_mem _ hb)
      refine ⟨?_, hpending'⟩
      rw [appointment?_updateAt_of_ne _ _ ?_, hrow']
      intro hid
      exact hdistinct.1 (List.mem_map.mpr ⟨b, hb, hid⟩)

theorem revenueOf_told (env : Env) (s : Database) (task : Option (Event × Uuid)) :
    (s.told env task).revenueOf shopId period = s.revenueOf shopId period := by
  rw [told_eq]
  rfl

/-- What the commit of a booking adds to the revenue: what a completed
appointment has cost. -/
theorem BookingDone.revenue
    (hs : s.Joined) (hdone : BookingDone env s s' op) :
    (∃ a user now, op = .complete user a.id now ∧
        s.appointment? a.id = some a ∧
        s'.revenueOf shopId period = s.revenueOf shopId period +
          s.earns shopId period { a with status := .completed }) ∨
      (∀ user id now, op ≠ .complete user id now) ∧
        s'.revenueOf shopId period = s.revenueOf shopId period := by
  cases hdone with
  | created customer payload now newId createdAt barber shop service _ _
      hinsert =>
      refine Or.inr ⟨by simp, ?_⟩
      obtain ⟨rfl, -, -⟩ := insertAppointment_eq_ok hinsert
      rw [revenueOf, List.map_append, List.sum_append, List.map_singleton,
        List.sum_singleton]
      rw [earns_of_active (newAppointment_blocksSlot _ _ _ _ _ _ _ _), add_zero]
      rfl
  | turned a a' hrow hturns hupdate =>
      have hactive : a.status.blocksSlot = true := by
        cases hturns with
        | moved _ _ _ _ _ hactive | cancelled _ _ _ hactive
          | completed _ _ hactive _ | missed _ _ hactive _ => exact hactive
        | confirmed _ _ hpending =>
            rw [hpending]
            rfl
      have hadded : s'.revenueOf shopId period =
          s.revenueOf shopId period + s.earns shopId period a' :=
        revenueOf_turned hs.appointments hrow (earns_of_active hactive)
          hturns.continues hupdate
      have hsame : (∀ user id now, op ≠ .complete user id now) →
          a'.status ≠ .completed →
          (∀ user id now, op ≠ .complete user id now) ∧
            s'.revenueOf shopId period = s.revenueOf shopId period := by
        intro hop hstatus
        rw [earns_of_not_completed hstatus, add_zero] at hadded
        exact ⟨hop, hadded⟩
      cases hturns with
      | moved user newStart now stop hinvolved _ =>
          have hopen : a.status ≠ .completed :=
            AppointmentStatus.ne_of_blocksSlot hactive rfl
          exact Or.inr (hsame (by simp) hopen)
      | cancelled user reason now _ => exact Or.inr (hsame (by simp) (by simp))
      | confirmed user hstaff hpending =>
          exact Or.inr (hsame (by simp) (by simp))
      | completed user now _ hstarted =>
          exact Or.inl ⟨a, user, now, rfl, hrow, hadded⟩
      | missed user now _ hstarted => exact Or.inr (hsame (by simp) (by simp))
  | expired now hupdate =>
      refine Or.inr ⟨by simp, ?_⟩
      apply revenueOf_expired _ hs.appointments _ hupdate
      · exact hs.appointments.sublist (List.filter_sublist.map _)
      · intro a ha
        rw [mem_stalePending] at ha
        exact ⟨hs.appointments.lookup_eq_some_iff.mpr ⟨ha.1, rfl⟩, ha.2.1⟩

end

/-! ## Prices -/

section

variable {env : Env} {s s' : Database} {op : BookingOp} {id : Uuid}

/-- A commit of a booking leaves the prices of the bookings there are. -/
theorem BookingDone.prices
    (hdone : BookingDone env s s' op) (haccepted : op.Accepted env s) (id : Uuid) :
    (s'.appointment? id).map Appointment.totalPrice =
      ((s.appointment? id).map Appointment.totalPrice).or
        ((Work.booking op).priceBooked env s id) := by
  cases hdone with
  | created customer payload now newId createdAt barber shop service hresolves _
      hinsert =>
      rw [Work.priceBooked]
      by_cases hid : newId = id
      · subst hid
        obtain ⟨hnone, hsome⟩ := appointment?_created hinsert
        change s.appointment? newId = none at hnone
        change s'.appointment? newId = _ at hsome
        rw [hnone, hsome, if_pos ⟨rfl, haccepted⟩, hresolves.service_eq]
        rfl
      · rw [appointment?_created_of_ne hinsert (Ne.symm hid),
          if_neg fun h => hid h.1, Option.or_none]
  | turned a a' hrow hturns hupdate =>
      have hnone : (Work.booking op).priceBooked env s id = none := by
        cases hturns <;> rfl
      rw [hnone, Option.or_none]
      by_cases hid : id = a.id
      · subst hid
        rw [appointment?_turned hrow hturns hupdate, hrow, Option.map_some,
          Option.map_some, hturns.continues.price_eq]
      · rw [appointment?_turned_of_ne hupdate hid]
  | expired now hupdate =>
      have hnothing : (Work.booking (.expire now)).priceBooked env s id = none := rfl
      rw [hnothing, Option.or_none]
      obtain ⟨-, hids, hrows⟩ := expired_rows id
        (fun a ha => (mem_stalePending.mp ha).2.1) hupdate
      cases hbefore : s.appointment? id with
      | some a =>
          obtain ⟨a', ha', hcases⟩ := hrows a hbefore
          rw [ha', Option.map_some, Option.map_some]
          rcases hcases with rfl | ⟨hexpired, -⟩
          · rfl
          · rw [hexpired.continues.price_eq]
      | none =>
          cases hafter : s'.appointment? id with
          | none => rfl
          | some a' =>
              obtain ⟨a, ha⟩ := exists_appointment?_of_ids hids.symm hafter
              rw [hbefore] at ha
              simp at ha

/-- A work that is not a booking prices nothing. -/
theorem priceBooked_beside
    {work : Work} (hwork : ∀ op, work ≠ .booking op) :
    work.priceBooked env s id = none := by
  cases work with
  | booking op => exact absurd rfl (hwork op)
  | management | directory | account | rating | reminders => rfl

/-- Neither does a booking that is refused. -/
theorem priceBooked_refused (hrefused : ¬ op.Accepted env s) :
    (Work.booking op).priceBooked env s id = none := by
  cases op with
  | create customer payload now newId createdAt =>
      rw [Work.priceBooked, if_neg]
      exact fun h => hrefused h.2
  | reschedule | cancel | confirm | complete | noShow | expire => rfl

/-- A work leaves the prices there are, and adds the one it takes. -/
theorem workStep_prices (env : Env) (s : Database) (work : Work) (id : Uuid) :
    ((workStep env s work).appointment? id).map Appointment.totalPrice =
      ((s.appointment? id).map Appointment.totalPrice).or
        (work.priceBooked env s id) := by
  rcases work.booking_or_beside with ⟨op, rfl⟩ | hwork
  · rcases bookingOp_alone env op s with
      ⟨hrefused, hstate⟩ | ⟨haccepted, s', hdone, hstate⟩
    · change workStep env s (.booking op) = s at hstate
      rw [hstate, priceBooked_refused hrefused, Option.or_none]
    · change workStep env s (.booking op) = s'.told env op.task? at hstate
      rw [hstate, Database.told_appointment?, hdone.prices haccepted id]
  · rw [workStep_appointment? hwork, priceBooked_beside hwork, Option.or_none]

/-- After a run the prices are those taken when the bookings were made. -/
theorem workRun_prices
    (env : Env) (db : Database) (works : List Work) (id : Uuid) :
    ((workRun env db works).appointment? id).map Appointment.totalPrice =
      ((db.appointment? id).map Appointment.totalPrice).or
        (bookedPrice env db works id) := by
  induction works generalizing db with
  | nil => exact (Option.or_none).symm
  | cons work works ih =>
      rw [bookedPrice, ← Option.or_assoc, ← workStep_prices, ← ih]
      rfl

end

/-! ## Revenue -/

section

variable {env : Env} {db : Database} {past : List Work} {shopId : Uuid}
  {period : ℤ × ℤ} {work : Work}

/-- Only completing a booking takes something. -/
theorem takes_eq_zero
    (hwork : ∀ user id now, work ≠ .booking (.complete user id now)) :
    work.takes env db past shopId period = 0 := by
  cases work with
  | booking op =>
      cases op with
      | complete user id now => exact absurd rfl (hwork user id now)
      | create | reschedule | cancel | confirm | noShow | expire => rfl
  | management | directory | account | rating | reminders => rfl

theorem takes_refused
    {op : BookingOp} (hrefused : ¬ op.Accepted env (workRun env db past)) :
    (Work.booking op).takes env db past shopId period = 0 := by
  cases op with
  | complete user id now =>
      rw [Work.takes, if_neg]
      exact fun h => hrefused h.1
  | create | reschedule | cancel | confirm | noShow | expire => rfl

/-- What is taken in for an appointment is what the row earns when it is
completed. -/
theorem takes_completed
    (hempty : db.appointments = []) {user : User} {a : Appointment} {now : ℤ}
    (haccepted : (BookingOp.complete user a.id now).Accepted env
      (workRun env db past))
    (hrow : (workRun env db past).appointment? a.id = some a) :
    (Work.booking (.complete user a.id now)).takes env db past shopId period =
      (workRun env db past).earns shopId period
        { a with status := .completed } := by
  have hprice : bookedPrice env db past a.id = some a.totalPrice := by
    have hprices := workRun_prices env db past a.id
    have hnone : db.appointment? a.id = none := by
      rw [appointment?, hempty]
      rfl
    rw [hrow, hnone] at hprices
    exact hprices.symm
  have hat : (workRun env db past).AtShop shopId { a with status := .completed } =
      (workRun env db past).AtShop shopId a := rfl
  rw [Work.takes, earns, hprice, hrow, hat]
  simp [haccepted]

/-- A step of a run adds to the revenue what the work takes in. -/
theorem workStep_revenue
    (hempty : db.appointments = []) (hjoined : (workRun env db past).Joined)
    (work : Work) :
    (workStep env (workRun env db past) work).revenueOf shopId period =
      (workRun env db past).revenueOf shopId period +
        work.takes env db past shopId period := by
  rcases work.booking_or_beside with ⟨op, rfl⟩ | hwork
  · rcases bookingOp_alone env op (workRun env db past) with
      ⟨hrefused, hstate⟩ | ⟨haccepted, s', hdone, hstate⟩
    · change workStep env _ (.booking op) = _ at hstate
      rw [hstate, takes_refused hrefused, add_zero]
    · change workStep env _ (.booking op) = _ at hstate
      rw [hstate, revenueOf_told]
      rcases hdone.revenue hjoined with
        ⟨a, user, now, rfl, hrow, hadded⟩ | ⟨hop, hsame⟩
      · rw [hadded, takes_completed hempty haccepted hrow]
      · rw [hsame, takes_eq_zero (by simpa using hop), add_zero]
  · have hsame : (workStep env (workRun env db past) work).revenueOf shopId period =
        (workRun env db past).revenueOf shopId period :=
      revenueOf_eq hjoined (workStep_persists env _ work)
        (workStep_beside_bookings hwork).1
    rw [hsame, takes_eq_zero fun user id now => hwork _, add_zero]

/-- The revenue after a run is what the run has taken in. -/
theorem workRun_revenue
    (hvalid : db.Joined) (hempty : db.appointments = []) (works : List Work) :
    (workRun env db works).revenueOf shopId period =
      takings env db shopId period [] works := by
  induction works using List.reverseRecOn with
  | nil =>
      rw [workRun_nil, revenueOf, hempty]
      rfl
  | append_singleton works work ih =>
      have hjoined : (workRun env db works).Joined :=
        workRun_keeps (fun _ _ _ ht hcommit => hcommit.joined ht) hvalid works
      rw [workRun_concat, workStep_revenue hempty hjoined, ih, takings_concat,
        List.nil_append]

end

/-! ## What the dashboard reports -/

/-- The dashboard reports the revenue of the shop. -/
theorem shopDashboard_revenue
    {env : Env} {db : Database} (hkeys : UniqueKeys Barber.id db.barbers)
    {collation : Collation} {user : User} {shopId : Uuid} {dateFrom dateTo now : ℤ}
    {d : ShopDashboard}
    (h : ((shopDashboard env collation user shopId (some dateFrom) (some dateTo)
      now).run db).1 = .ok d) :
    d.monthlyRevenue = db.revenueOf shopId (dateFrom, dateTo) := by
  obtain ⟨-, shop, f, top, -, -, hf, -, rfl⟩ :=
    run_shopDashboard_eq_ok_iff.mp (Prod.ext h rfl)
  have hperiod : (dateFrom, dateTo) = f.period := Except.ok.inj hf.period
  rw [hperiod, ← sumPrices_earning hkeys]
  exact (moneyOf_eq_ok hf.money).2

/-- In every run from a database without appointments, the revenue of every shop
and every period is what the run has taken in for them. -/
theorem revenueConserved
    (env : Env) (db : Database) (works : List Work) (hvalid : db.Valid)
    (hempty : db.appointments = []) : RevenueConserved env db works := by
  have hjoined : ∀ works, (workRun env db works).Joined := fun works =>
    workRun_keeps (fun _ _ _ ht hcommit => hcommit.joined ht) hvalid.joined works
  have hreported : ∀ works collation user shopId dateFrom dateTo now d,
      ((shopDashboard env collation user shopId (some dateFrom) (some dateTo)
        now).run (workRun env db works)).1 = .ok d →
      d.monthlyRevenue = takings env db shopId (dateFrom, dateTo) [] works := by
    intro works collation user shopId dateFrom dateTo now d hd
    rw [shopDashboard_revenue (hjoined works).barbers hd,
      workRun_revenue hvalid.joined hempty]
  constructor
  · exact hreported works
  · intro work hwork collation user shopId dateFrom dateTo now now' d d' hd hd'
    rw [hreported _ _ _ _ _ _ _ _ hd, hreported _ _ _ _ _ _ _ _ hd',
      takings_concat, takes_eq_zero hwork, add_zero]

/-- A booking that is completed takes in the price of a haircut. -/
theorem revenueConserved_booked_and_completed :
    RevenueConserved Sample.env Sample.db
        [firstBooking, .booking (.complete Sample.stylist 40 (Sample.clock 12 0))] ∧
      takings Sample.env Sample.db 10 (Sample.clock 0 0, Sample.clock 20 0) []
        [firstBooking, .booking (.complete Sample.stylist 40 (Sample.clock 12 0))] =
        Sample.haircut.price := by
  constructor
  · exact revenueConserved Sample.env Sample.db _ Sample.db_valid rfl
  · decide +kernel

end BarberHub
