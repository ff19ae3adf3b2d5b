import BarberHub.Analytics.Dashboards
import BarberHub.Booking.Moving
import BarberHub.Search.Pages

/-!
# Who sees which appointment

What a user is shown of the appointments: one of them, the lists and the
dashboards.  Nothing of it depends on appointments that the user takes no part
in, but for whether an id is taken; and one appointment is shown to exactly
those in whose lists it is.
-/

namespace BarberHub

open KeyedTable ReadCommitted Program Grouping Paging Fallible

/-! ## Taking part -/

namespace Database

/-- The user owns the shop. -/
def ownsShop (db : Database) (user : User) (shopId : Uuid) : Bool :=
  (db.barbershop? shopId).any fun shop => shop.ownerId = user.id

/-- The user is the customer of the appointment, its barber, or the owner of the
barber's shop. -/
def takesPart (db : Database) (user : User) (a : Appointment) : Bool :=
  decide (a.customerId = user.id) || (db.barber? a.barberId).any fun barber =>
    decide (barber.userId = user.id) || db.ownsShop user barber.shopId

/-- Two states that differ at most in appointments the user takes no part in, and
in what no appointment is shown with. -/
structure AlikeFor (user : User) (s t : Database) : Prop where
  frame : t = { s with
    workingHours := t.workingHours
    barberBreaks := t.barberBreaks
    shopClosures := t.shopClosures
    appointments := t.appointments
    refreshTokens := t.refreshTokens
    reviews := t.reviews
    appointmentReminders := t.appointmentReminders
    queue := t.queue }
  own : t.appointments.filter (s.takesPart user) =
    s.appointments.filter (s.takesPart user)

variable {user : User} {s t : Database}

/-- A statement on appointments of the user has the same rows in both. -/
theorem AlikeFor.filter_eq (h : s.AlikeFor user t) {keep : Appointment → Bool}
    (hkeep : ∀ a, keep a = true → s.takesPart user a = true) :
    t.appointments.filter keep = s.appointments.filter keep := by
  have hown : ∀ rows : List Appointment,
      (rows.filter (s.takesPart user)).filter keep = rows.filter keep := by
    intro rows
    rw [List.filter_filter]
    apply List.filter_congr
    intro a _
    by_cases hkept : keep a = true
    · rw [hkept, hkeep a hkept]
      rfl
    · simp [hkept]
  rw [← hown, h.own, hown]

theorem AlikeFor.eager_eq (h : s.AlikeFor user t) : t.eager = s.eager := by
  rw [h.frame]
  rfl

end Database

/-! ## The lists -/

section

variable {user : User} {s t : Database}

/-- Executed alone, the request is answered alike in both states. -/
def AnsweredAlike {α : Type} (s t : Database) (p : Request α) : Prop :=
  (p.run t).1 = (p.run s).1

theorem answeredAlike_query_bind {α β : Type} {f : Database → α}
    {p : α → Request β} (hf : f t = f s) (h : AnsweredAlike s t (p (f s))) :
    AnsweredAlike s t (query f >>= p) := by
  rw [AnsweredAlike, query_bind, run_read, run_read, hf]
  exact h

theorem answeredAlike_bind {α β : Type} {p : Request α} {f : α → Request β}
    (hp : p.ReadOnly) (h : AnsweredAlike s t p)
    (hf : ∀ a, (p.run s).1 = .ok a → AnsweredAlike s t (f a)) :
    AnsweredAlike s t (p >>= f) := by
  have hs := hp.run_state s
  have ht := hp.run_state t
  rw [AnsweredAlike] at h
  rw [AnsweredAlike, run_bind, run_bind]
  rcases hrun : p.run s with ⟨r, s'⟩
  rcases hrun' : p.run t with ⟨r', t'⟩
  rw [hrun] at hs h
  rw [hrun'] at ht h
  dsimp only at hs ht h
  subst hs ht h
  cases r' with
  | error e => rfl
  | ok a => exact hf a (by rw [hrun])

/-- What is computed from no state. -/
theorem answeredAlike_ofExcept {α : Type} (r : Except Raised α) :
    AnsweredAlike s t (ofExcept r) := rfl

theorem answeredAlike_require {p : Prop} [Decidable p] {e : Raised} :
    AnsweredAlike s t (require p e) := by
  rw [require]
  split
  · exact answeredAlike_ofExcept (.ok _)
  · exact answeredAlike_ofExcept (.error _)

theorem answeredAlike_rowOr {α : Type} (e : Raised) (row : Option α) :
    AnsweredAlike s t (rowOr e row) := by
  cases row with
  | none => exact answeredAlike_ofExcept (.error _)
  | some row => exact answeredAlike_ofExcept (.ok _)

theorem answeredAlike_paginate (h : s.AlikeFor user t)
    {stmt : Database → List Appointment} (hstmt : stmt t = stmt s)
    (scan : Scan Appointment) (params : PageParams)
    (filters : AppointmentFilters) :
    AnsweredAlike s t (paginate stmt scan params filters) := by
  rw [paginate]
  apply answeredAlike_query_bind
  · rw [applyFilters, applyFilters, hstmt]
  apply answeredAlike_query_bind
  · rw [applyFilters, applyFilters, hstmt, h.eager_eq]
  apply answeredAlike_bind (readOnly_ofExcept _) (answeredAlike_ofExcept _)
  exact fun _ _ => answeredAlike_ofExcept (.ok _)

theorem answeredAlike_listMyAppointments (h : s.AlikeFor user t)
    (hkeys : UniqueKeys Barber.id s.barbers) (filters : AppointmentFilters)
    (asBarber : Bool) (scan : Scan Appointment) (params : PageParams) :
    AnsweredAlike s t
      (listMyAppointments user filters asBarber scan params) := by
  rw [listMyAppointments]
  split
  · apply answeredAlike_query_bind
    · rw [h.frame]
    apply answeredAlike_bind (readOnly_require _ _) answeredAlike_require
    intro _ _
    apply answeredAlike_paginate h
    apply h.filter_eq
    intro a ha
    have hmine := (mem_barberIds_iff hkeys user a.barberId).mp
      (of_decide_eq_true ha)
    rw [Database.takesPart, Bool.or_eq_true]
    right
    rw [Option.any_eq_true] at hmine ⊢
    obtain ⟨barber, hbarber, huser⟩ := hmine
    exact ⟨barber, hbarber, by simp [of_decide_eq_true huser]⟩
  · apply answeredAlike_paginate h
    apply h.filter_eq
    intro a ha
    rw [Database.takesPart, ha, Bool.true_or]

theorem answeredAlike_getShopOr404 (h : s.AlikeFor user t) (shopId : Uuid)
    (viewer : Option User) :
    AnsweredAlike s t (getShopOr404 shopId viewer) := by
  rw [getShopOr404]
  apply answeredAlike_query_bind
  · rw [h.frame]
    rfl
  · apply answeredAlike_bind (readOnly_rowOr _ _) (answeredAlike_rowOr _ _)
    intro shop _
    apply answeredAlike_bind (readOnly_require _ _) answeredAlike_require
    exact fun _ _ => answeredAlike_ofExcept (.ok _)

/-- The appointments of a shop are seen by its owner. -/
theorem takesPart_of_shop (hkeys : UniqueKeys Barber.id s.barbers)
    {a : Appointment} {barber : Barber} (hbarber : barber ∈ s.barbers)
    (hid : barber.id = a.barberId)
    (howns : s.ownsShop user barber.shopId = true) :
    s.takesPart user a = true := by
  have hrow : s.barber? a.barberId = some barber :=
    hkeys.lookup_eq_some_iff.mpr ⟨hbarber, hid⟩
  rw [Database.takesPart, hrow, Option.any_some, howns, Bool.or_true,
    Bool.or_true]

/-- Who is not an admin passes the check of a shop as its owner. -/
theorem ownsShop_of_load {shopId : Uuid} {shop : Barbershop}
    (hadmin : user.role ≠ .admin)
    (hload : ((getShopOr404 shopId (some user)).run s).1 = .ok shop)
    (hmay : user.role = .admin ∨ shop.ownerId = user.id) :
    s.ownsShop user shopId = true := by
  have hstate := (readOnly_getShopOr404 shopId (some user)).run_state s
  obtain ⟨hshop, -, -⟩ := run_getShopOr404_eq_ok_iff.mp
    (Prod.ext hload hstate : (getShopOr404 shopId (some user)).run s =
      (.ok shop, s))
  rw [Database.ownsShop, hshop]
  exact decide_eq_true (hmay.resolve_left hadmin)

theorem of_answer_require {p : Prop} [Decidable p] {e : Raised} {u : Unit}
    (h : ((require p e).run s).1 = .ok u) : p := by
  by_contra hnot
  rw [require, if_neg hnot] at h
  simp [raise] at h

theorem bookedAt_alike (h : s.AlikeFor user t)
    (hkeys : UniqueKeys Barber.id s.barbers) {shopId : Uuid}
    (howns : s.ownsShop user shopId = true) :
    t.bookedAt shopId = s.bookedAt shopId := by
  have hbarbers : t.barbers = s.barbers := by
    rw [h.frame]
  have hrow : ∀ a : Appointment, t.barber? a.barberId = s.barber? a.barberId := by
    intro a
    rw [Database.barber?, Database.barber?, hbarbers]
  rw [bookedAt_eq_filter shopId hkeys,
    bookedAt_eq_filter shopId (hbarbers ▸ hkeys)]
  simp only [hrow]
  apply h.filter_eq
  intro a ha
  obtain ⟨barber, hbarber, hshop⟩ := Option.any_eq_true _ _ |>.mp ha
  apply takesPart_of_shop hkeys (mem_of_lookup hbarber) (key_of_lookup hbarber)
  rw [of_decide_eq_true hshop]
  exact howns

theorem answeredAlike_listShopAppointments (h : s.AlikeFor user t)
    (hkeys : UniqueKeys Barber.id s.barbers) (hadmin : user.role ≠ .admin)
    (shopId : Uuid) (filters : AppointmentFilters) (scan : Scan Appointment)
    (params : PageParams) :
    AnsweredAlike s t
      (listShopAppointments user shopId filters scan params) := by
  apply answeredAlike_bind (readOnly_getShopOr404 _ _)
    (answeredAlike_getShopOr404 h _ _)
  intro shop hload
  apply answeredAlike_bind (readOnly_require _ _) answeredAlike_require
  intro _ hmay
  apply answeredAlike_paginate h
  exact bookedAt_alike h hkeys
    (ownsShop_of_load hadmin hload (of_answer_require hmay))

/-! ## The dashboards -/

/-- A scope within the appointments of the user. -/
def Database.Within (s : Database) (user : User) (scope : Scope) : Prop :=
  ∀ a, ∀ b ∈ s.barbers, b.id = a.barberId → scope a b = true →
    s.takesPart user a = true

theorem booked_alike (h : s.AlikeFor user t) {scope : Scope}
    (hscope : s.Within user scope) (period : ℤ × ℤ) :
    t.booked scope period = s.booked scope period := by
  have hown : ∀ rows : List Appointment,
      (rows.flatMap fun a =>
        (s.barbers.filter fun b => b.id = a.barberId ∧ scope a b = true ∧
          period.1 ≤ a.startTime ∧ a.startTime < period.2).map fun b => (a, b)) =
      (rows.filter (s.takesPart user)).flatMap fun a =>
        (s.barbers.filter fun b => b.id = a.barberId ∧ scope a b = true ∧
          period.1 ≤ a.startTime ∧ a.startTime < period.2).map
            fun b => (a, b) := by
    intro rows
    induction rows with
    | nil => rfl
    | cons a rows ih =>
        rw [List.flatMap_cons, List.filter_cons]
        by_cases hpart : s.takesPart user a = true
        · rw [if_pos hpart, List.flatMap_cons, ih]
        · have hnone : (s.barbers.filter fun b => b.id = a.barberId ∧
              scope a b = true ∧ period.1 ≤ a.startTime ∧
                a.startTime < period.2) = [] := by
            rw [List.filter_eq_nil_iff]
            intro b hb hmatch
            obtain ⟨hid, hin, -⟩ := of_decide_eq_true hmatch
            exact hpart (hscope a b hb hid hin)
          rw [if_neg hpart, hnone, List.map_nil, List.nil_append, ih]
  have hbarbers : t.barbers = s.barbers := by
    rw [h.frame]
  rw [Database.booked, Database.booked, hbarbers, hown, hown s.appointments,
    h.own]

theorem answeredAlike_overPeriod {α : Type} {f : Database → α}
    (hf : f t = f s) (period : ℤ × ℤ) :
    AnsweredAlike s t (overPeriod period f) := by
  apply answeredAlike_bind (readOnly_ofExcept _) (answeredAlike_ofExcept _)
  intro _ _
  apply answeredAlike_bind (readOnly_ofExcept _) (answeredAlike_ofExcept _)
  intro _ _
  rw [AnsweredAlike, run_query, run_query, hf]

theorem readOnly_overPeriod {α : Type} (period : ℤ × ℤ) (f : Database → α) :
    (overPeriod period f).ReadOnly :=
  (readOnly_ofExcept _).bind fun _ => (readOnly_ofExcept _).bind fun _ =>
    readOnly_query _

theorem readOnly_figures (collation : Collation) (scope : Scope) (tz : Zone)
    (dateFrom dateTo : Option ℤ) (now : ℤ) :
    (figures collation scope tz dateFrom dateTo now).ReadOnly := by
  apply (readOnly_ofExcept _).bind
  intro period
  apply (readOnly_overPeriod _ _).bind
  intro counts
  apply ReadOnly.bind
  · exact (readOnly_overPeriod _ _).bind fun _ => readOnly_ofExcept _
  intro money
  apply (readOnly_ofExcept _).bind
  intro localNow
  apply ReadOnly.bind
  · exact (readOnly_ofExcept _).bind fun _ => readOnly_overPeriod _ _
  intro today
  exact (readOnly_overPeriod _ _).bind fun _ => trivial

theorem answeredAlike_figures (h : s.AlikeFor user t) (collation : Collation)
    {scope : Scope} (hscope : s.Within user scope) (tz : Zone)
    (dateFrom dateTo : Option ℤ) (now : ℤ) :
    AnsweredAlike s t (figures collation scope tz dateFrom dateTo now) := by
  have hbooked := booked_alike h hscope
  have hservices : t.services = s.services := by
    rw [h.frame]
  apply answeredAlike_bind (readOnly_ofExcept _) (answeredAlike_ofExcept _)
  intro period _
  apply answeredAlike_bind (readOnly_overPeriod _ _)
  · apply answeredAlike_overPeriod
    rw [Database.statusCounts, Database.statusCounts, hbooked]
  intro counts _
  apply answeredAlike_bind
  · exact (readOnly_overPeriod _ _).bind fun _ => readOnly_ofExcept _
  · apply answeredAlike_bind (readOnly_overPeriod _ _)
    · apply answeredAlike_overPeriod
      rw [Database.earning, Database.earning, hbooked]
    · exact fun _ _ => answeredAlike_ofExcept _
  intro money _
  apply answeredAlike_bind (readOnly_ofExcept _) (answeredAlike_ofExcept _)
  intro localNow _
  apply answeredAlike_bind
  · exact (readOnly_ofExcept _).bind fun _ => readOnly_overPeriod _ _
  · apply answeredAlike_bind (readOnly_ofExcept _) (answeredAlike_ofExcept _)
    intro bounds _
    apply answeredAlike_overPeriod
    rw [hbooked]
  intro today _
  apply answeredAlike_bind (readOnly_overPeriod _ _)
  · apply answeredAlike_overPeriod
    rw [Database.popularService, Database.popularService,
      Database.serviceCounts, Database.serviceCounts, Database.servicesBooked,
      Database.servicesBooked, hbooked, hservices]
  · exact fun _ _ => answeredAlike_ofExcept (.ok _)

theorem answeredAlike_shopDashboard (h : s.AlikeFor user t)
    (hkeys : UniqueKeys Barber.id s.barbers) (hadmin : user.role ≠ .admin)
    (env : Env) (collation : Collation) (shopId : Uuid)
    (dateFrom dateTo : Option ℤ) (now : ℤ) :
    AnsweredAlike s t
      (shopDashboard env collation user shopId dateFrom dateTo now) := by
  apply answeredAlike_bind (readOnly_getShopOr404 _ _)
    (answeredAlike_getShopOr404 h _ _)
  intro shop hload
  apply answeredAlike_bind (readOnly_require _ _) answeredAlike_require
  intro _ hmay
  have howns := ownsShop_of_load hadmin hload (of_answer_require hmay)
  have hscope : s.Within user (shopScope shopId) := by
    intro a b hb hid hshop
    apply takesPart_of_shop hkeys hb hid
    rw [of_decide_eq_true hshop]
    exact howns
  apply answeredAlike_bind (readOnly_figures _ _ _ _ _ _)
    (answeredAlike_figures h collation hscope _ _ _ _)
  intro f _
  have husers : t.users = s.users := by
    rw [h.frame]
  apply answeredAlike_bind
  · apply (readOnly_overPeriod _ _).bind
    intro row
    cases row with
    | none => trivial
    | some row => exact (readOnly_ofExcept _).bind fun _ => trivial
  · apply answeredAlike_bind (readOnly_overPeriod _ _)
    · apply answeredAlike_overPeriod
      rw [Database.barberEarnings, Database.barberEarnings, Database.earners,
        Database.earners, Database.earning, Database.earning,
        booked_alike h hscope, husers]
    · intro row _
      cases row with
      | none => exact answeredAlike_ofExcept (.ok _)
      | some row =>
          apply answeredAlike_bind (readOnly_ofExcept _)
            (answeredAlike_ofExcept _)
          exact fun _ _ => answeredAlike_ofExcept (.ok _)
  · exact fun _ _ => answeredAlike_ofExcept (.ok _)

theorem answeredAlike_barberDashboard (h : s.AlikeFor user t)
    (hkeys : UniqueKeys Barber.id s.barbers) (env : Env)
    (collation : Collation) (dateFrom dateTo : Option ℤ) (now : ℤ) :
    AnsweredAlike s t
      (barberDashboard env collation user dateFrom dateTo now) := by
  apply answeredAlike_query_bind
  · rw [h.frame]
  cases hfound : s.barbers.find? fun b => b.userId = user.id with
  | none => exact answeredAlike_ofExcept (.error _)
  | some barber =>
      have hmem := List.mem_of_find?_eq_some hfound
      have hself : barber.userId = user.id := by
        simpa using List.find?_some hfound
      have hscope : s.Within user (barberScope barber.id) := by
        intro a b hb hid hin
        have hrow : s.barber? a.barberId = some barber :=
          hkeys.lookup_eq_some_iff.mpr ⟨hmem, (of_decide_eq_true hin).symm⟩
        rw [Database.takesPart, hrow, Option.any_some, decide_eq_true hself,
          Bool.true_or, Bool.or_true]
      apply answeredAlike_query_bind
      · rw [h.frame]
        rfl
      · apply answeredAlike_bind (readOnly_figures _ _ _ _ _ _)
          (answeredAlike_figures h collation hscope _ _ _ _)
        exact fun _ _ => answeredAlike_ofExcept (.ok _)

/-! ## One appointment -/

/-- The people of an appointment are its customer and its staff. -/
theorem involved_iff {a : Appointment} :
    a.customerId = user.id ∨ s.StaffFor user a ↔
      user.role = .admin ∨ s.takesPart user a = true := by
  rw [Database.StaffFor, Database.takesPart, Bool.or_eq_true,
    decide_eq_true_eq, Option.any_eq_true]
  simp only [Bool.or_eq_true, decide_eq_true_eq, Database.ownsShop,
    Option.any_eq_true]
  exact or_left_comm

/-- What `get_appointment` answers. -/
theorem answer_getAppointment (hrefs : s.ReferencesHold) (user : User)
    (id : Uuid) :
    ((getAppointment user id).run s).1 =
      match s.appointment? id with
      | none => .error (notFound "Appointment not found")
      | some a =>
          if user.role = .admin ∨ s.takesPart user a = true then
            (s.eager a).toRead
          else .error (forbidden "You are not part of this appointment") := by
  cases hrow : s.appointment? id with
  | none =>
      simp [getAppointment, load, query_bind, Database.loadedAppointment?_eq,
        hrow, rowOr, raise]
  | some a =>
      have hload : (load id).run s = (.ok (s.eager a), s) := by
        simp [load, query_bind, Database.loadedAppointment?_eq, hrow, rowOr]
      have hview : ∃ may, (mayView user (s.eager a)).run s = (.ok may, s) ∧
          (may = true ↔ user.role = .admin ∨ s.takesPart user a = true) := by
        rw [mayView]
        by_cases hown : (s.eager a).appointment.customerId = user.id
        · refine ⟨true, ?_, ?_⟩
          · rw [if_pos hown]
            rfl
          · rw [← involved_iff]
            exact iff_of_true rfl (Or.inl hown)
        · rw [if_neg hown]
          obtain ⟨isStaff, hrun, hstaff⟩ := run_isStaffFor user (show
            (s.eager a).barber = s.barber? (s.eager a).appointment.barberId from rfl)
            (hrefs.appointments a (mem_of_lookup hrow)).2.1
          refine ⟨isStaff, hrun, ?_⟩
          rw [hstaff, ← involved_iff]
          exact (or_iff_right hown).symm
      obtain ⟨may, hrun, hmay⟩ := hview
      rw [getAppointment, run_bind_of_ok hload, run_bind_of_ok hrun, require]
      dsimp only
      by_cases hpart : user.role = .admin ∨ s.takesPart user a = true
      · rw [if_pos (hmay.mpr hpart), if_pos hpart]
        rfl
      · rw [if_neg (mt hmay.mp hpart), if_neg hpart]
        rfl

/-- Neither whether there is an appointment nor which. -/
def Concealed (answer : Except Raised AppointmentRead) : Prop :=
  answer = .error (notFound "Appointment not found") ∨
    answer = .error (forbidden "You are not part of this appointment")

theorem getAppointment_alike (h : s.AlikeFor user t) (hs : s.Valid)
    (ht : t.Valid) (hadmin : user.role ≠ .admin) (id : Uuid) :
    AnsweredAlike s t (getAppointment user id) ∨
      Concealed ((getAppointment user id).run s).1 ∧
        Concealed ((getAppointment user id).run t).1 := by
  have hpart : t.takesPart user = s.takesPart user := by
    rw [h.frame]
    rfl
  have hrows : ∀ a, s.takesPart user a = true →
      (t.appointment? id = some a ↔ s.appointment? id = some a) := by
    intro a ha
    have hmem : a ∈ t.appointments ↔ a ∈ s.appointments := by
      have hown := h.own
      constructor
      · intro hin
        have hfilter := List.mem_filter.mpr ⟨hin, ha⟩
        rw [hown] at hfilter
        exact (List.mem_filter.mp hfilter).1
      · intro hin
        have hfilter := List.mem_filter.mpr ⟨hin, ha⟩
        rw [← hown] at hfilter
        exact (List.mem_filter.mp hfilter).1
    rw [Database.appointment?, Database.appointment?,
      ht.keys.appointments.lookup_eq_some_iff,
      hs.keys.appointments.lookup_eq_some_iff, hmem]
  have hconcealed : ∀ u : Database, u.ReferencesHold →
      u.takesPart user = s.takesPart user →
      (∀ a, s.takesPart user a = true → u.appointment? id ≠ some a) →
      Concealed ((getAppointment user id).run u).1 := by
    intro u hrefs hsame hforeign
    rw [answer_getAppointment hrefs]
    cases hrow : u.appointment? id with
    | none => exact Or.inl rfl
    | some a =>
        dsimp only
        rw [if_neg]
        · exact Or.inr rfl
        · rintro (hrole | hmine)
          · exact hadmin hrole
          · exact hforeign a (hsame ▸ hmine) hrow
  by_cases hmine : ∃ a, s.takesPart user a = true ∧ s.appointment? id = some a
  · obtain ⟨a, ha, hrow⟩ := hmine
    left
    rw [AnsweredAlike, answer_getAppointment ht.references,
      answer_getAppointment hs.references, hrow, (hrows a ha).mpr hrow, hpart,
      h.eager_eq]
  · right
    constructor
    · exact hconcealed s hs.references rfl fun a ha hrow => hmine ⟨a, ha, hrow⟩
    · exact hconcealed t ht.references hpart fun a ha hrow =>
        hmine ⟨a, ha, (hrows a ha).mp hrow⟩

end

/-! ## All of them -/

/-- What the user is shown of the appointments is the same. -/
structure SeenAlike (env : Env) (user : User) (s t : Database) : Prop where
  mine : ∀ filters asBarber scan params,
    AnsweredAlike s t (listMyAppointments user filters asBarber scan params)
  ofShop : ∀ shopId filters scan params,
    AnsweredAlike s t (listShopAppointments user shopId filters scan params)
  shopFigures : ∀ collation shopId dateFrom dateTo now, AnsweredAlike s t
    (shopDashboard env collation user shopId dateFrom dateTo now)
  barberFigures : ∀ collation dateFrom dateTo now, AnsweredAlike s t
    (barberDashboard env collation user dateFrom dateTo now)
  one : ∀ id, AnsweredAlike s t (getAppointment user id) ∨
    Concealed ((getAppointment user id).run s).1 ∧
      Concealed ((getAppointment user id).run t).1

/-- Whoever is not an admin is shown the same in two states that differ only in
appointments they take no part in. -/
theorem nothing_leaks
    (env : Env) (user : User) (s t : Database) (hs : s.Valid) (ht : t.Valid)
    (hadmin : user.role ≠ .admin) (h : s.AlikeFor user t) :
    SeenAlike env user s t where
  mine := answeredAlike_listMyAppointments h hs.keys.barbers
  ofShop := answeredAlike_listShopAppointments h hs.keys.barbers hadmin
  shopFigures := answeredAlike_shopDashboard h hs.keys.barbers hadmin env
  barberFigures := answeredAlike_barberDashboard h hs.keys.barbers env
  one := getAppointment_alike h hs ht hadmin

/-- The shop with the customer's booking, as a stranger sees it. -/
theorem nothing_leaks_stranger :
    SeenAlike Sample.env (Sample.account 5 "Sam" "Stranger" .customer) Sample.db
      Sample.bookedDb :=
  nothing_leaks _ _ _ _ Sample.db_valid Sample.bookedDb_valid (by decide)
    ⟨rfl, by decide +kernel⟩

/-! ## Where an appointment is listed -/

/-- The appointment is on a page of the user's lists: their own, those of their
chairs, or those of the shop where it takes place. -/
inductive Listed (db : Database) (user : User) (item : AppointmentRead) : Prop
  | mine (asBarber : Bool) (scan : Scan Appointment) (params : PageParams)
      (page : Page AppointmentRead)
      (hpage : (listMyAppointments user {} asBarber scan params).run db =
        (.ok page, db)) (hitem : item ∈ page.items)
  | ofShop (scan : Scan Appointment) (params : PageParams)
      (page : Page AppointmentRead)
      (hpage : (listShopAppointments user item.shopId {} scan params).run db =
        (.ok page, db)) (hitem : item ∈ page.items)

/-- Somewhere on the pages, and nowhere else. -/
theorem PagedBy.mem_iff {ρ α : Type}
    {request : Scan ρ → PageParams → Request (Page α)} {db : Database}
    {rows : List ρ} {le : ρ → ρ → Prop} {read : ρ → Except Raised α}
    (h : PagedBy request db rows le read) (item : α) :
    (∃ scan params page, (request scan params).run db = (.ok page, db) ∧
        item ∈ page.items) ↔ ∃ row ∈ rows, read row = .ok item := by
  obtain ⟨sorted, items, hperm, -, -, hread, hpages⟩ := h
  have hitems : item ∈ items ↔ ∃ row ∈ rows, read row = .ok item := by
    have hrows := exists_mem_mapM_iff hread (· = item)
    constructor
    · intro hitem
      obtain ⟨row, hrow, _, hok, rfl⟩ := hrows.mp ⟨item, hitem, rfl⟩
      exact ⟨row, hperm.mem_iff.mp hrow, hok⟩
    · rintro ⟨row, hrow, hok⟩
      obtain ⟨_, hitem, rfl⟩ :=
        hrows.mpr ⟨row, hperm.mem_iff.mpr hrow, item, hok, rfl⟩
      exact hitem
  rw [← hitems]
  constructor
  · rintro ⟨scan, params, page, hpage, hitem⟩
    obtain ⟨answers, hrun, hpart⟩ :=
      hpages params.limit params.limit_pos fun _ => scan
    obtain rfl : answers params.page = page := by
      have hsame := hrun params.page params.page_pos
      rw [hpage] at hsame
      exact (Except.ok.inj (Prod.mk.inj hsame).1).symm
    have hwithin : params.page ≤ (answers params.page).pages := by
      by_contra hlater
      rw [hpart.later _ params.page_pos (not_le.mp hlater)] at hitem
      exact List.not_mem_nil hitem
    rw [← hpart.concat _ params.page_pos, List.mem_flatMap]
    refine ⟨params.page - 1, ?_, ?_⟩
    · rw [List.mem_range]
      have hpos := params.page_pos
      omega
    · rwa [Nat.sub_add_cancel params.page_pos]
  · intro hitem
    obtain ⟨answers, hrun, hpart⟩ := hpages 1 le_rfl fun _ => ⟨id, List.Perm.refl⟩
    rw [← hpart.concat 1 le_rfl, List.mem_flatMap] at hitem
    obtain ⟨i, -, hitem⟩ := hitem
    exact ⟨_, _, _, hrun (i + 1) (Nat.le_add_left 1 i), hitem⟩

section

variable {db : Database} {user : User} {item : AppointmentRead}

/-- What an appointment is shown as. -/
theorem shown_as {a : Appointment} (h : (db.eager a).toRead = .ok item) :
    item.id = a.id ∧ ∃ barber, db.barber? a.barberId = some barber ∧
      item.shopId = barber.shopId := by
  rw [LoadedAppointment.toRead] at h
  split at h
  · next customer barber barberUser service hcustomer hbarber huser hservice =>
      obtain rfl := Except.ok.inj h
      exact ⟨rfl, barber, hbarber, rfl⟩
  · simp at h

/-- A list that is answered is not refused. -/
theorem accepted_of_page {asBarber : Bool} {filters : AppointmentFilters}
    {scan : Scan Appointment} {params : PageParams} {page : Page AppointmentRead}
    (h : (listMyAppointments user filters asBarber scan params).run db =
      (.ok page, db)) :
    (Listing.myAppointments user filters asBarber).Accepted db := by
  intro hbarber
  rw [listMyAppointments, if_pos hbarber, query_bind, run_read,
    run_require_bind_eq_ok_iff] at h
  obtain ⟨id, hid⟩ := List.exists_mem_of_ne_nil _ h.1
  obtain ⟨barber, hmem, -⟩ := List.mem_map.mp hid
  obtain ⟨hmem, huser⟩ := List.mem_filter.mp hmem
  exact ⟨barber, hmem, of_decide_eq_true huser⟩

theorem accepted_of_shopPage {shopId : Uuid} {filters : AppointmentFilters}
    {scan : Scan Appointment} {params : PageParams} {page : Page AppointmentRead}
    (h : (listShopAppointments user shopId filters scan params).run db =
      (.ok page, db)) :
    (Listing.shopAppointments user shopId filters).Accepted db := by
  rw [listShopAppointments, run_bind_eq_ok_iff] at h
  obtain ⟨shop, t, hload, h⟩ := h
  obtain ⟨hshop, -, rfl⟩ := run_getShopOr404_eq_ok_iff.mp hload
  exact ⟨shop, hshop, (run_require_bind_eq_ok_iff.mp h).1⟩

/-- Without conditions every appointment is admitted. -/
theorem admits_all (a : Appointment) :
    ({} : AppointmentFilters).admits a = true := rfl

theorem takesPart_of_mine {asBarber : Bool} {a : Appointment}
    (h : (if asBarber then (db.barber? a.barberId).any
      fun b => b.userId = user.id else decide (a.customerId = user.id)) = true) :
    db.takesPart user a = true := by
  rw [Database.takesPart, Bool.or_eq_true]
  cases asBarber with
  | false => exact Or.inl h
  | true =>
      right
      obtain ⟨barber, hbarber, hself⟩ := (Option.any_eq_true _ _).mp h
      exact (Option.any_eq_true _ _).mpr
        ⟨barber, hbarber, by simp [of_decide_eq_true hself]⟩

/-- The rows of a list are shown one by one, too. -/
theorem shown_of_row (hdb : db.Valid) {a : Appointment}
    (ha : a ∈ db.appointments) (hread : (db.eager a).toRead = .ok item)
    (hpart : user.role = .admin ∨ db.takesPart user a = true) :
    (getAppointment user item.id).run db = (.ok item, db) := by
  have hrow : db.appointment? item.id = some a := by
    rw [(shown_as hread).1]
    exact hdb.keys.appointments.lookup_eq_some_iff.mpr ⟨ha, rfl⟩
  have hanswer := answer_getAppointment hdb.references user item.id
  rw [hrow] at hanswer
  dsimp only at hanswer
  rw [if_pos hpart, hread] at hanswer
  exact Prod.ext hanswer ((readOnly_getAppointment user item.id).run_state db)

/-- Who is shown an appointment finds it in a list. -/
theorem listed_of_shown (hdb : db.Valid)
    (h : (getAppointment user item.id).run db = (.ok item, db)) :
    Listed db user item := by
  have hanswer := answer_getAppointment hdb.references user item.id
  rw [h] at hanswer
  cases hrow : db.appointment? item.id with
  | none => simp [hrow] at hanswer
  | some a =>
      rw [hrow] at hanswer
      dsimp only at hanswer
      have ha := mem_of_lookup hrow
      by_cases hpart : user.role = .admin ∨ db.takesPart user a = true
      · rw [if_pos hpart] at hanswer
        obtain ⟨-, barber, hbarber, hshopId⟩ := shown_as hanswer.symm
        have hofShop : (user.role = .admin ∨
            db.ownsShop user item.shopId = true) → Listed db user item := by
          intro hmay
          obtain ⟨shop, hshop⟩ := Option.isSome_iff_exists.mp
            (hdb.references.barbers barber (mem_of_lookup hbarber)).2
          rw [← hshopId] at hshop
          have howner : user.role = .admin ∨ shop.ownerId = user.id := by
            rw [Database.ownsShop, hshop] at hmay
            exact hmay.imp_right of_decide_eq_true
          have haccepted : (Listing.shopAppointments user item.shopId
              {}).Accepted db := ⟨shop, hshop, howner⟩
          have hpaged := partitioned_shopAppointments hdb haccepted
          obtain ⟨scan, params, page, hpage, hitem⟩ :=
            (hpaged.mem_iff item).mpr ⟨a, List.mem_filter.mpr ⟨ha, by
              simp [hbarber, hshopId, admits_all]⟩, hanswer.symm⟩
          exact .ofShop scan params page hpage hitem
        have hmine : ∀ asBarber, (Listing.myAppointments user {} asBarber).Accepted
            db → (if asBarber then (db.barber? a.barberId).any
              fun b => b.userId = user.id else a.customerId = user.id) →
            Listed db user item := by
          intro asBarber haccepted hown
          obtain ⟨scan, params, page, hpage, hitem⟩ :=
            ((partitioned_myAppointments hdb haccepted).mem_iff item).mpr
              ⟨a, List.mem_filter.mpr ⟨ha, by simpa [admits_all] using hown⟩,
                hanswer.symm⟩
          exact .mine asBarber scan params page hpage hitem
        rcases hpart with hadmin | hpart
        · exact hofShop (Or.inl hadmin)
        · rw [Database.takesPart, Bool.or_eq_true, hbarber, Option.any_some,
            Bool.or_eq_true, decide_eq_true_eq, decide_eq_true_eq] at hpart
          rcases hpart with hcustomer | hself | howns
          · exact hmine false (by simp [Listing.Accepted]) (by simpa using hcustomer)
          · refine hmine true (fun _ => ⟨barber, mem_of_lookup hbarber, hself⟩) ?_
            simp [hbarber, hself]
          · rw [← hshopId] at howns
            exact hofShop (Or.inr howns)
      · rw [if_neg hpart] at hanswer
        simp at hanswer

/-- One appointment is shown to exactly those in whose lists it is. -/
theorem shown_iff_listed (db : Database) (hdb : db.Valid) (user : User)
    (item : AppointmentRead) :
    (getAppointment user item.id).run db = (.ok item, db) ↔
      Listed db user item := by
  refine ⟨listed_of_shown hdb, ?_⟩
  rintro (⟨asBarber, scan, params, page, hpage, hitem⟩ |
    ⟨scan, params, page, hpage, hitem⟩)
  · have hpaged := partitioned_myAppointments hdb (accepted_of_page hpage)
    obtain ⟨a, ha, hread⟩ :=
      (hpaged.mem_iff item).mp ⟨scan, params, page, hpage, hitem⟩
    obtain ⟨ha, hkeep⟩ := List.mem_filter.mp ha
    rw [admits_all, Bool.and_true] at hkeep
    exact shown_of_row hdb ha hread (Or.inr (takesPart_of_mine hkeep))
  · have haccepted := accepted_of_shopPage hpage
    have hpaged := partitioned_shopAppointments hdb haccepted
    obtain ⟨a, ha, hread⟩ :=
      (hpaged.mem_iff item).mp ⟨scan, params, page, hpage, hitem⟩
    obtain ⟨ha, -⟩ := List.mem_filter.mp ha
    apply shown_of_row hdb ha hread
    obtain ⟨-, barber, hbarber, hshopId⟩ := shown_as hread
    obtain ⟨shop, hshop, hmay⟩ := haccepted
    refine hmay.imp_right fun howner => ?_
    apply takesPart_of_shop hdb.keys.barbers (mem_of_lookup hbarber)
      (key_of_lookup hbarber)
    rw [Database.ownsShop, ← hshopId, hshop]
    exact decide_eq_true howner

/-- The sample booking, as it is shown. -/
def Sample.shownBooking : AppointmentRead where
  id := 40
  customer := ⟨4, "Cara", "Customer"⟩
  barberId := 20
  barber := ⟨20, "Boris", "Barber"⟩
  shopId := 10
  service := ⟨30, "Haircut", 30⟩
  startTime := Sample.clock 9 0
  endTime := Sample.clock 9 30
  status := .confirmed
  totalPrice := 500000
  cancellationReason := none
  createdAt := Sample.clock 0 0

/-- The barber has it on the list, the admin on the shop's. -/
theorem shown_iff_listed_staff :
    Listed Sample.bookedDb Sample.stylist Sample.shownBooking ∧
      Listed Sample.bookedDb Sample.admin Sample.shownBooking :=
  ⟨(shown_iff_listed Sample.bookedDb Sample.bookedDb_valid Sample.stylist
      Sample.shownBooking).mp (by decide +kernel),
    (shown_iff_listed Sample.bookedDb Sample.bookedDb_valid Sample.admin
      Sample.shownBooking).mp (by decide +kernel)⟩

end

end BarberHub
