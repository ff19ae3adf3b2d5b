import BarberHub.Core.Environment
import BarberHub.Support.LockedTransactions
import BarberHub.Support.Rounding

/-!
# Reviews and ratings

`create_review` of `app/services/reviews.py`, `app/services/ratings.py`, and
the nightly task `recompute_barber_ratings` of `app/workers/tasks.py`, as
transactions that lock the barber's row.  `avg` is exact.  A change of a mapped
object is sent with the commit at the latest, and nothing reads it before, so
it is a pending write from the assignment on.
-/

namespace BarberHub

open KeyedTable Rounding LockedTransactions Transaction

/-- What these transactions wait for: the barber's row, and the unique key of a
review that is not committed yet. -/
inductive RatingLock where
  | barber (id : Uuid)
  | reviewOf (appointmentId : Uuid)
  deriving DecidableEq, Repr

/-- A transaction that locks barbers and reviews, and sends nothing. -/
abbrev RatingTransaction (α : Type) :=
  Transaction Database RatingLock Empty Raised α

namespace Database

/-- The ratings in the reviews of a barber. -/
def ratingsOf (db : Database) (barberId : Uuid) : List ℤ :=
  (db.reviews.filter fun r => r.barberId = barberId).map Review.rating

/-- `select(func.avg(Review.rating), func.count())`. -/
def averageAndCount (db : Database) (barberId : Uuid) : Option ℚ × ℕ :=
  let ratings := db.ratingsOf barberId
  (if ratings = [] then none else some (ratings.sum / ratings.length),
    ratings.length)

/-- Assign the columns `rating` and `reviews_count` of a barber. -/
def setRating (barberId : Uuid) (rating : ℤ) (count : ℕ) (db : Database) :
    Database :=
  { db with
    barbers := updateAt Barber.id barberId
      (fun b => { b with rating := rating, reviewsCount := count }) db.barbers }

/-- The constraints an `INSERT` into `reviews` is checked against. -/
def AcceptsReview (db : Database) (review : Review) : Prop :=
  (∀ r ∈ db.reviews, r.id ≠ review.id) ∧
    (∀ r ∈ db.reviews, r.appointmentId ≠ review.appointmentId) ∧
    review.Checked ∧ (db.user? review.customerId).isSome ∧
    (db.barber? review.barberId).isSome ∧
    (db.appointment? review.appointmentId).isSome

instance (db : Database) (review : Review) :
    Decidable (db.AcceptsReview review) :=
  inferInstanceAs (Decidable (_ ∧ _ ∧ _ ∧ _ ∧ _ ∧ _))

def addReview (review : Review) (db : Database) : Database :=
  { db with reviews := db.reviews ++ [review] }

end Database

/-- The rating in hundredths: `Decimal("0")` without reviews, and otherwise the
average quantized to two decimals, `ROUND_HALF_UP`. -/
def quantizedRating (average : Option ℚ) (count : ℕ) : ℤ :=
  if count = 0 then 0 else halfUp (100 * average.getD 0)

def lockBarberForUpdate (barberId : Uuid) : RatingTransaction Barber := do
  lock (.barber barberId)
  let row ← query fun db => db.barber? barberId
  foundOr .noResultFound row

def recomputeBarberRating (barberId : Uuid) : RatingTransaction Unit := do
  let _barber ← lockBarberForUpdate barberId
  let (average, count) ← query fun db => db.averageAndCount barberId
  modify (Database.setRating barberId (quantizedRating average count) count)

/-- The request body of a review. -/
structure ReviewCreate where
  rating : ℤ
  comment : Option String
  rating_range : 1 ≤ rating ∧ rating ≤ 5
  comment_length : ∀ text, comment = some text → text.length ≤ 2000

/-- `ReviewRead`. -/
structure ReviewRead where
  id : Uuid
  barberId : Uuid
  appointmentId : Uuid
  rating : ℤ
  comment : Option String
  author : String
  createdAt : ℤ
  deriving DecidableEq, Repr

/-- `_display_name`: the first name and an initial. -/
def displayName (customer : User) : String :=
  match customer.lastName.toList with
  | [] => customer.firstName
  | initial :: _ =>
      customer.firstName ++ " " ++ String.singleton initial ++ "."

/-- `_load` of a review with its author. -/
def loadReview (reviewId : Uuid) : RatingTransaction ReviewRead := do
  let row ← query fun db => lookup Review.id db.reviews reviewId
  let review ← foundOr .noResultFound row
  let author ← query fun db => db.user? review.customerId
  let customer ← foundOr .attributeError author
  pure
    { id := review.id
      barberId := review.barberId
      appointmentId := review.appointmentId
      rating := review.rating
      comment := review.comment
      author := displayName customer
      createdAt := review.createdAt }

/-- `create_review`; `reviewId` and `createdAt` are the `uuid4()` and the
`now()` that the row is inserted with. -/
def createReview (user : User) (appointmentId : Uuid) (payload : ReviewCreate)
    (reviewId : Uuid) (createdAt : ℤ) : RatingTransaction ReviewRead := do
  let row ← query fun db => db.appointment? appointmentId
  let appointment ← foundOr (notFound "Appointment not found") row
  ensure (appointment.customerId = user.id)
    (forbidden "You can only review your own appointments")
  ensure (appointment.status = .completed)
    (.app ⟨.invalidTransitionError,
      "Only completed appointments can be reviewed",
      [("status", .text appointment.status.value)]⟩)
  let _barber ← lockBarberForUpdate appointment.barberId
  let review : Review :=
    { id := reviewId
      customerId := user.id
      barberId := appointment.barberId
      appointmentId := appointment.id
      rating := payload.rating
      comment := payload.comment
      createdAt := createdAt }
  let inserted ← insertRow (.reviewOf appointment.id)
    (fun db => ¬ db.AcceptsReview review) (Database.addReview review)
  if inserted then
    recomputeBarberRating appointment.barberId
    commitPending
    loadReview review.id
  else raise alreadyReviewed

/-! ## The nightly task -/

/-- `_recompute_one`: whether a column changed. -/
def recomputeOne (barberId : Uuid) : RatingTransaction Bool := do
  let barber ← lockBarberForUpdate barberId
  let (average, count) ← query fun db => db.averageAndCount barberId
  let rating := quantizedRating average count
  modify (Database.setRating barberId rating count)
  pure (barber.rating ≠ rating ∨ barber.reviewsCount ≠ count)

/-- The loop of `recompute_barber_ratings` over the barbers that are left. -/
def recomputeAll : List Uuid → ℕ → RatingTransaction ℕ
  | [], repaired => pure repaired
  | barberId :: barberIds, repaired => do
      let changed ← recomputeOne barberId
      recomputeAll barberIds (if changed then repaired + 1 else repaired)

def recomputeBarberRatings : RatingTransaction ℕ := do
  let barberIds ← query fun db => db.barbers.map Barber.id
  let repaired ← recomputeAll barberIds 0
  commitPending
  pure repaired

end BarberHub
