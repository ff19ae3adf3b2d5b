import BarberHub.Booking.Transitions
import BarberHub.Core.Pagination
import BarberHub.Directory.Permissions
import BarberHub.Reviews.Ratings
import BarberHub.Support.Paging

/-!
# Lists of appointments and reviews

`list_my_appointments` and `list_shop_appointments` of
`app/services/booking.py`, and `list_barber_reviews` of
`app/services/reviews.py`.  As in a search, `scan` is the order in which the
database comes to see the rows.
-/

namespace BarberHub

open KeyedTable ReadCommitted Program Grouping Paging

/-! ## Appointments -/

structure AppointmentFilters where
  status : Option AppointmentStatus := none
  dateFrom : Option ℤ := none
  dateTo : Option ℤ := none
  barberId : Option Uuid := none
  deriving DecidableEq, Repr

/-- The conditions of `_apply_filters`. -/
def AppointmentFilters.admits (filters : AppointmentFilters) (a : Appointment) :
    Bool :=
  filters.status.all (a.status = ·) && filters.dateFrom.all (· < a.endTime) &&
    filters.dateTo.all (a.startTime < ·) && filters.barberId.all (a.barberId = ·)

/-- `_apply_filters`, of the rows a statement has. -/
def applyFilters (stmt : Database → List Appointment)
    (filters : AppointmentFilters) (db : Database) : List Appointment :=
  (stmt db).filter filters.admits

/-- `ORDER BY start_time DESC, id`. -/
def byStart : Appointment → Appointment → Prop :=
  thenBy (fun a b => b.startTime ≤ a.startTime) fun a b => a.id ≤ b.id

instance : DecidableRel byStart :=
  inferInstanceAs (DecidableRel (thenBy _ _))

/-- `_paginate`. -/
def paginate (stmt : Database → List Appointment) (scan : Scan Appointment)
    (params : PageParams) (filters : AppointmentFilters) :
    Request (Page AppointmentRead) := do
  let total ← query fun db => (applyFilters stmt filters db).length
  let rows ← query fun db => (slice scan byStart params.offset params.limit
    (applyFilters stmt filters db)).map db.eager
  let items ← ofExcept (rows.mapM LoadedAppointment.toRead)
  pure (Page.build items total params)

def listMyAppointments (user : User) (filters : AppointmentFilters)
    (asBarber : Bool) (scan : Scan Appointment) (params : PageParams) :
    Request (Page AppointmentRead) :=
  if asBarber then do
    let barberIds ← query fun db =>
      (db.barbers.filter fun b => b.userId = user.id).map Barber.id
    require (barberIds ≠ []) (forbidden "You do not have a barber profile")
    paginate (fun db => db.appointments.filter fun a => a.barberId ∈ barberIds)
      scan params filters
  else
    paginate (fun db => db.appointments.filter fun a => a.customerId = user.id)
      scan params filters

/-- The appointments joined with the barbers of a shop. -/
def Database.bookedAt (shopId : Uuid) (db : Database) : List Appointment :=
  db.appointments.flatMap fun a =>
    (db.barbers.filter fun b => b.shopId = shopId ∧ b.id = a.barberId).map
      fun _ => a

def listShopAppointments (user : User) (shopId : Uuid)
    (filters : AppointmentFilters) (scan : Scan Appointment)
    (params : PageParams) : Request (Page AppointmentRead) := do
  let shop ← getShopOr404 shopId (some user)
  require (user.role = .admin ∨ shop.ownerId = user.id)
    (forbidden "You do not own this barbershop")
  paginate (Database.bookedAt shopId) scan params filters

/-! ## Reviews -/

/-- `_to_read` of a review and its customer. -/
def Review.toRead (review : Review) : Option User → Except Raised ReviewRead
  | some customer => .ok
      { id := review.id
        barberId := review.barberId
        appointmentId := review.appointmentId
        rating := review.rating
        comment := review.comment
        author := displayName customer
        createdAt := review.createdAt }
  | none => .error .attributeError

/-- `ORDER BY created_at DESC, id`. -/
def byNewest : Review → Review → Prop :=
  thenBy (fun a b => b.createdAt ≤ a.createdAt) fun a b => a.id ≤ b.id

instance : DecidableRel byNewest :=
  inferInstanceAs (DecidableRel (thenBy _ _))

/-- The reviews of a barber. -/
def Database.reviewsOf (db : Database) (barberId : Uuid) : List Review :=
  db.reviews.filter fun r => r.barberId = barberId

def listBarberReviews (barberId : Uuid) (scan : Scan Review)
    (params : PageParams) : Request (Page ReviewRead) := do
  let barber ← query (·.barber? barberId)
  let _ ← rowOr (notFound "Barber not found") barber
  let total ← query fun db => (db.reviewsOf barberId).length
  let rows ← query fun db => (slice scan byNewest params.offset params.limit
    (db.reviewsOf barberId)).map fun r => (r, db.user? r.customerId)
  let items ← ofExcept (rows.mapM fun row => row.1.toRead row.2)
  pure (Page.build items total params)

/-! ## The rows -/

theorem preorders_byStart : Preorders byStart :=
  (preorders_le.swap.comap Appointment.startTime).thenBy
    (preorders_le.comap Appointment.id)

theorem preorders_byNewest : Preorders byNewest :=
  (preorders_le.swap.comap Review.createdAt).thenBy
    (preorders_le.comap Review.id)

/-- The join has every appointment once. -/
theorem bookedAt_eq_filter {db : Database} (shopId : Uuid)
    (h : UniqueKeys Barber.id db.barbers) :
    db.bookedAt shopId = db.appointments.filter fun a =>
      (db.barber? a.barberId).any fun b => b.shopId = shopId := by
  have hrow : ∀ a : Appointment,
      ((db.barbers.filter fun b => b.shopId = shopId ∧ b.id = a.barberId).map
        fun _ => a) =
      if (db.barber? a.barberId).any (fun b => b.shopId = shopId) then [a]
        else [] := by
    intro a
    have hone := h.filter_eq_lookup (k := a.barberId)
    simp only [Bool.decide_and, ← List.filter_filter, hone, Database.barber?]
    rcases (lookup Barber.id db.barbers a.barberId).eq_none_or_eq_some with
      hnone | ⟨b, hsome⟩
    · simp [hnone]
    · by_cases hshop : b.shopId = shopId <;> simp [hsome, hshop]
  rw [Database.bookedAt]
  simp only [hrow]
  induction db.appointments with
  | nil => rfl
  | cons a rest ih =>
      rw [List.flatMap_cons, ih, List.filter_cons]
      split <;> rfl

end BarberHub
