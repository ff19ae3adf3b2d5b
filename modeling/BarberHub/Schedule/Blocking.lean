import BarberHub.Directory.Editing
import BarberHub.Slots.Interference

/-!
# Working hours, breaks and closures

The writes of `app/services/schedule.py` and `app/services/closures.py`, each
up to its commit.  Before a break or a closure is recorded, the appointments it
would cover are looked up.
-/

namespace BarberHub

open HalfOpen KeyedTable ReadCommitted Program Fallible

/-! ## The tables -/

/-- DELETE of the rows with these keys and INSERT of new ones into
`working_hours`. -/
def flushWorkingHours (deleted : List Uuid) (rows : List WorkingHours)
    (db : Database) : Except Raised Database := do
  let kept := db.workingHours.filter fun h => h.id ∉ deleted
  enforce (∀ h ∈ rows, h.Checked) .check
  enforce (UniqueKeys WorkingHours.id (kept ++ rows)) .unique
  enforce (UniqueKeys (fun h : WorkingHours =>
    (h.barberId, h.weekday, h.startTime)) (kept ++ rows)) .unique
  enforce (∀ h ∈ rows, (db.barber? h.barberId).isSome) .foreignKey
  pure { db with workingHours := kept ++ rows }

/-- `INSERT INTO barber_breaks`. -/
def insertBreak (row : BarberBreak) (db : Database) :
    Except Raised Database := do
  enforce (row.startDatetime < row.endDatetime) .check
  enforce (db.barberBreak? row.id = none) .unique
  enforce (db.barber? row.barberId).isSome .foreignKey
  pure { db with barberBreaks := db.barberBreaks ++ [row] }

/-- `DELETE FROM barber_breaks`. -/
def deleteBreakRow (id : Uuid) (db : Database) : Except Raised Database :=
  .ok { db with barberBreaks := db.barberBreaks.filter fun b => b.id ≠ id }

/-- `INSERT INTO shop_closures`. -/
def insertClosure (row : ShopClosure) (db : Database) :
    Except Raised Database := do
  enforce (row.startDate ≤ row.endDate) .check
  enforce (db.shopClosure? row.id = none) .unique
  enforce (∀ c ∈ db.shopClosures, (c.shopId, c.startDate, c.endDate) ≠
    (row.shopId, row.startDate, row.endDate)) .unique
  enforce (db.barbershop? row.shopId).isSome .foreignKey
  pure { db with shopClosures := db.shopClosures ++ [row] }

/-- `DELETE FROM shop_closures`. -/
def deleteClosureRow (id : Uuid) (db : Database) : Except Raised Database :=
  .ok { db with shopClosures := db.shopClosures.filter fun c => c.id ≠ id }

/-- Active appointments that meet a period and satisfy a condition. -/
def Database.clashes (db : Database) (start stop : ℤ)
    (concerns : Appointment → Bool) : List Appointment :=
  db.appointments.filter fun a =>
    concerns a = true ∧ a.status.blocksSlot = true ∧
      Overlap a.startTime a.endTime start stop

section

variable {db db' : Database}

/-- Replacing shifts touches no other table. -/
theorem flushWorkingHours_eq_ok {deleted : List Uuid}
    {rows : List WorkingHours}
    (h : flushWorkingHours deleted rows db = .ok db') :
    db' = { db with workingHours := db'.workingHours } := by
  rw [flushWorkingHours] at h
  simp only [bind_eq_ok_iff] at h
  obtain ⟨_, -, _, -, _, -, _, -, h⟩ := h
  obtain rfl := Except.ok.inj h
  rfl

theorem insertBreak_eq_ok {row : BarberBreak}
    (h : insertBreak row db = .ok db') :
    db' = { db with barberBreaks := db.barberBreaks ++ [row] } := by
  rw [insertBreak] at h
  simp only [bind_eq_ok_iff] at h
  obtain ⟨_, -, _, -, _, -, h⟩ := h
  exact (Except.ok.inj h).symm

theorem insertClosure_eq_ok {row : ShopClosure}
    (h : insertClosure row db = .ok db') :
    db' = { db with shopClosures := db.shopClosures ++ [row] } := by
  rw [insertClosure] at h
  simp only [bind_eq_ok_iff] at h
  obtain ⟨_, -, _, -, _, -, _, -, h⟩ := h
  exact (Except.ok.inj h).symm

/-- Without clashes, the appointments concerned are inactive or stay clear of
the period. -/
theorem Database.not_overlap_of_clashes {start stop : ℤ}
    {concerns : Appointment → Bool} (h : db.clashes start stop concerns = [])
    {a : Appointment} (ha : a ∈ db.appointments)
    (hconcerns : concerns a = true) (hactive : a.status.blocksSlot = true) :
    ¬ Overlap a.startTime a.endTime start stop := by
  intro hoverlap
  have hmem : a ∈ db.clashes start stop concerns := by
    rw [clashes]
    rw [List.mem_filter]
    exact ⟨ha, by simpa [hconcerns, hactive] using hoverlap⟩
  rw [h] at hmem
  simp at hmem

end

/-! ## Working hours -/

/-- `_get_barber`. -/
def getBarber (barberId : Uuid) : Request Barber :=
  loadBarber barberId

structure WorkingHoursSlot where
  weekday : ℤ
  startTime : TimeOfDay
  endTime : TimeOfDay
  deriving DecidableEq, Repr

/-- `replace_working_hours`.  The DELETE picks its rows when it runs; `newId`
gives the keys of the new ones. -/
def replaceWorkingHours (user : User) (barberId : Uuid)
    (items : List WorkingHoursSlot) (newId : ℕ → Uuid) : Request Unit := do
  let barber ← getBarber barberId
  ensureCanManageBarber user barber
  let deleted ← query fun db =>
    (db.workingHours.filter (·.barberId = barberId)).map WorkingHours.id
  write (flushWorkingHours deleted (items.mapIdx fun i slot =>
    { id := newId i
      barberId := barberId
      weekday := slot.weekday
      startTime := slot.startTime
      endTime := slot.endTime }))

/-! ## Breaks -/

structure BreakCreate where
  startDatetime : ℤ
  endDatetime : ℤ
  reason : Option String
  deriving DecidableEq, Repr

/-- `_appointments_overlapping`. -/
def appointmentsOverlapping (barberId : Uuid) (start stop : ℤ) :
    Request (List Uuid) := do
  let start ← ofExcept (bindParam start)
  let stop ← ofExcept (bindParam stop)
  let rows ← query (·.clashes start stop (·.barberId = barberId))
  pure (rows.map Appointment.id)

/-- The row `create_break` adds. -/
def BreakCreate.row (payload : BreakCreate) (barberId id : Uuid) :
    BarberBreak where
  id := id
  barberId := barberId
  startDatetime := payload.startDatetime
  endDatetime := payload.endDatetime
  reason := payload.reason

def createBreak (user : User) (barberId : Uuid) (payload : BreakCreate)
    (id : Uuid) : Request Unit := do
  let barber ← getBarber barberId
  ensureCanManageBarber user barber
  let clashing ← appointmentsOverlapping barberId payload.startDatetime
    payload.endDatetime
  require (clashing = [])
    (conflict "This break overlaps appointments that are already booked"
      [("conflicting_appointments", .ids clashing)])
  write (insertBreak (payload.row barberId id))

def deleteBreak (user : User) (breakId : Uuid) : Request Unit := do
  let found ← query (·.barberBreak? breakId)
  let barberBreak ← rowOr (notFound "Break not found") found
  let barber ← getBarber barberBreak.barberId
  ensureCanManageBarber user barber
  write (deleteBreakRow barberBreak.id)

/-! ## Closures -/

structure ClosureCreate where
  startDate : ℤ
  endDate : ℤ
  reason : Option String
  deriving DecidableEq, Repr

/-- `_local_midnight`, as a reading of the shop's clock. -/
def localMidnight (day : ℤ) (daysAfter : ℤ := 0) : Except Raised ℤ :=
  if dateMax < day + daysAfter then .error .overflowError
  else .ok (midnight (day + daysAfter))

/-- The row `create_closure` adds. -/
def ClosureCreate.row (payload : ClosureCreate) (shopId id : Uuid) :
    ShopClosure where
  id := id
  shopId := shopId
  startDate := payload.startDate
  endDate := payload.endDate
  reason := payload.reason

def createClosure (env : Env) (user : User) (shopId : Uuid)
    (payload : ClosureCreate) (id : Uuid) : Request Unit := do
  let shop ← getShopOr404 shopId (some user)
  ensureCanManageShop user shop
  let tz := env.shopTimezone shop
  let windowStart ← ofExcept (localMidnight payload.startDate)
  let windowEnd ← ofExcept (localMidnight payload.endDate 1)
  let start ← ofExcept (bindParam (tz.toInstant windowStart))
  let stop ← ofExcept (bindParam (tz.toInstant windowEnd))
  let rows ← query fun db => db.clashes start stop (db.AtShop shop.id)
  let clashing := rows.map Appointment.id
  require (clashing = [])
    (conflict "Customers already have appointments during that period"
      [("conflicting_appointments", .ids (clashing.take 20)),
        ("count", .number clashing.length)])
  commitOrConflict "That closure is already recorded"
    (insertClosure (payload.row shop.id id))

def deleteClosure (user : User) (closureId : Uuid) : Request Unit := do
  let found ← query (·.shopClosure? closureId)
  let closure ← rowOr (notFound "Closure not found") found
  let shop ← getShopOr404 closure.shopId (some user)
  ensureCanManageShop user shop
  write (deleteClosureRow closure.id)

/-! ## What the checks have seen -/

theorem respects_getShopOr404 (shopId : Uuid) (viewer : Option User) :
    (getShopOr404 shopId viewer).Respects Database.SameDirectory :=
  (respects_query fun a b h => by rw [h.barbershop?]).bind fun _ =>
    (respects_rowOr _ _ _).bind fun _ => (respects_require _ _ _).bind
      fun _ => trivial

theorem localMidnight_eq_ok {day daysAfter w : ℤ}
    (h : localMidnight day daysAfter = .ok w) :
    w = midnight (day + daysAfter) := by
  rw [localMidnight] at h
  split at h
  · simp at h
  · exact (Except.ok.inj h).symm

section

variable {rely guar : Database → Database → Prop}

/-- `create_break` inserts a break over which it saw no appointment. -/
theorem learns_createBreak
    (hrely : IsRely rely) {user : User} {barberId : Uuid}
    {payload : BreakCreate} {id : Uuid} {s : Database}
    (hcommit : ∀ t u u', rely s t → rely t u →
      t.clashes payload.startDatetime payload.endDatetime
        (·.barberId = barberId) = [] →
      insertBreak (payload.row barberId id) u = .ok u' → guar u u') :
    (createBreak user barberId payload id).Learns rely guar
      (fun _ _ => True) s := by
  rw [createBreak, getBarber]
  have hstable : ∀ t u, rely s t → rely t u → rely s u :=
    fun _ _ => hrely.trans
  apply Learns.bind hrely ((readOnly_loadBarber _).learns hstable
    (hrely.refl s))
  intro barber t hst
  apply Learns.bind hrely ((readOnly_ensureCanManageBarber _ _).learns hstable
    hst)
  intro _ u hsu
  refine Learns.bind hrely (Q := fun clashing v => ∃ t, rely s t ∧ rely t v ∧
    clashing = (t.clashes payload.startDatetime payload.endDatetime
      (·.barberId = barberId)).map Appointment.id) ?_ ?_
  · rw [appointmentsOverlapping]
    apply Learns.bind hrely (learns_ofExcept hrely
      (fun _ => bindParam_eq_ok) hsu)
    intro x v h
    obtain ⟨rfl, hsv⟩ := h
    apply Learns.bind hrely (learns_ofExcept hrely
      (fun _ => bindParam_eq_ok) hsv)
    intro y w h
    obtain ⟨rfl, hsw⟩ := h
    apply Learns.bind hrely (learns_query (Q := fun rows x => ∃ t, rely s t ∧
      rely t x ∧ rows = t.clashes payload.startDatetime payload.endDatetime
        (·.barberId = barberId)) fun t x hwt htx =>
          ⟨t, hrely.trans hsw hwt, htx, rfl⟩)
    intro rows x h
    obtain ⟨t, hst, htx, rfl⟩ := h
    exact learns_done fun ids y hids hxy =>
      ⟨t, hst, hrely.trans htx hxy, (Except.ok.inj hids).symm⟩
  intro clashing v h
  obtain ⟨t, hst, htv, rfl⟩ := h
  apply Learns.bind hrely (learns_require (Q := fun _ w => rely t w ∧
    t.clashes payload.startDatetime payload.endDatetime
      (·.barberId = barberId) = []) fun w hnone hvw =>
        ⟨hrely.trans htv hvw, List.map_eq_nil_iff.mp hnone⟩)
  intro _ w h
  obtain ⟨htw, hnone⟩ := h
  exact learns_write fun x x' hwx hw =>
    ⟨hcommit t x x' hst (hrely.trans htw hwx) hnone hw, fun _ _ => trivial⟩

theorem learns_commitOrConflict
    {message : String} {w : Database → Except Raised Database} {s : Database}
    (h : ∀ t t', rely s t → w t = .ok t' → guar t t') :
    (commitOrConflict message w).Learns rely guar (fun _ _ => True) s := by
  rw [commitOrConflict]
  refine learns_write fun t t' hst hw => ⟨h t t' hst ?_, fun _ _ => trivial⟩
  split at hw
  · simp at hw
  · exact hw

/-- The instants between which `create_closure` looks for appointments. -/
def ClosureCreate.start (payload : ClosureCreate) (tz : Zone) : ℤ :=
  dayStart tz payload.startDate

def ClosureCreate.stop (payload : ClosureCreate) (tz : Zone) : ℤ :=
  dayStart tz (payload.endDate + 1)

/-- `create_closure` inserts a closure over which it saw no appointment. -/
theorem learns_createClosure
    (hrely : IsRely rely) (hdir : ∀ a b, rely a b → a.SameDirectory b)
    {env : Env} {user : User} {shopId : Uuid} {payload : ClosureCreate}
    {id : Uuid} {s : Database}
    (hcommit : ∀ shop t u u', s.barbershop? shopId = some shop →
      rely s t → rely t u →
      t.clashes (payload.start (env.shopTimezone shop))
        (payload.stop (env.shopTimezone shop)) (t.AtShop shop.id) = [] →
      insertClosure (payload.row shop.id id) u = .ok u' → guar u u') :
    (createClosure env user shopId payload id).Learns rely guar
      (fun _ _ => True) s := by
  rw [createClosure]
  have hrespects : (getShopOr404 shopId (some user)).Respects
      Database.SameDirectory := respects_getShopOr404 _ _
  apply Learns.bind hrely (hrespects.learns hrely hdir)
  intro shop t h
  obtain ⟨hrun, hst⟩ := h
  have hshop : s.barbershop? shopId = some shop :=
    (run_getShopOr404_eq_ok_iff.mp (Prod.ext hrun rfl)).1
  have hstable : ∀ t u, rely s t → rely t u → rely s u :=
    fun _ _ => hrely.trans
  apply Learns.bind hrely ((readOnly_ensureCanManageShop _ _).learns hstable
    hst)
  intro _ u hsu
  apply Learns.bind hrely (learns_ofExcept hrely
    (fun _ => localMidnight_eq_ok) hsu)
  intro first v h
  obtain ⟨rfl, hsv⟩ := h
  apply Learns.bind hrely (learns_ofExcept hrely
    (fun _ => localMidnight_eq_ok) hsv)
  intro last w h
  obtain ⟨rfl, hsw⟩ := h
  apply Learns.bind hrely (learns_ofExcept hrely (fun _ => bindParam_eq_ok) hsw)
  intro start x h
  obtain ⟨rfl, hsx⟩ := h
  apply Learns.bind hrely (learns_ofExcept hrely (fun _ => bindParam_eq_ok) hsx)
  intro stop y h
  obtain ⟨rfl, hsy⟩ := h
  refine Learns.bind hrely (learns_query (Q := fun rows z => ∃ t, rely s t ∧
    rely t z ∧ rows = t.clashes (payload.start (env.shopTimezone shop))
      (payload.stop (env.shopTimezone shop)) (t.AtShop shop.id))
        fun t z hyt htz => ⟨t, hrely.trans hsy hyt, htz, ?_⟩) ?_
  · rw [add_zero]
    rfl
  intro rows z h
  obtain ⟨t, hst, htz, rfl⟩ := h
  apply Learns.bind hrely (learns_require (Q := fun _ a => rely t a ∧
    t.clashes (payload.start (env.shopTimezone shop))
      (payload.stop (env.shopTimezone shop)) (t.AtShop shop.id) = [])
        fun a hnone hza =>
          ⟨hrely.trans htz hza, List.map_eq_nil_iff.mp hnone⟩)
  intro _ a h
  obtain ⟨hta, hnone⟩ := h
  exact learns_commitOrConflict fun b b' hab hw =>
    hcommit shop t b b' hshop hst (hrely.trans hta hab) hnone hw

end

end BarberHub
