import Mathlib.Data.Int.Notation
import Mathlib.Data.Nat.Notation

/-!
# Errors

The error hierarchy of `app/core/errors.py` and the exceptions that escape it.
An `AppError` is answered with its own envelope; any other exception becomes a
500.  The values of `details` are kept as the code has them before they are
rendered as text.
-/

namespace BarberHub

/-- Primary and foreign keys (`uuid.UUID`). -/
abbrev Uuid := ℕ

/-- The subclasses of `AppError` the booking, schedule, account and review
services raise. -/
inductive ErrorClass where
  | validationError
  | unauthorizedError
  | forbiddenError
  | notFoundError
  | conflictError
  | slotTakenError
  | outsideWorkingHoursError
  | invalidTransitionError
  | cutoffPassedError
  | alreadyReviewedError
  deriving DecidableEq, Repr

/-- `code` of the class. -/
def ErrorClass.code : ErrorClass → String
  | validationError => "VALIDATION_ERROR"
  | unauthorizedError => "UNAUTHORIZED"
  | forbiddenError => "FORBIDDEN"
  | notFoundError => "NOT_FOUND"
  | conflictError => "CONFLICT"
  | slotTakenError => "SLOT_TAKEN"
  | outsideWorkingHoursError => "OUTSIDE_WORKING_HOURS"
  | invalidTransitionError => "INVALID_TRANSITION"
  | cutoffPassedError => "CUTOFF_PASSED"
  | alreadyReviewedError => "ALREADY_REVIEWED"

/-- One value of `details`. -/
inductive Detail where
  | text (value : String)
  | number (value : ℤ)
  | instant (value : ℤ)
  /-- An aware datetime on the clock it is written on. -/
  | aware (wall offset : ℤ)
  | instants (values : List ℤ)
  | date (value : ℤ)
  | id (value : Uuid)
  | ids (values : List Uuid)
  deriving DecidableEq, Repr

/-- An `AppError`. -/
structure AppError where
  cls : ErrorClass
  message : String
  details : List (String × Detail) := []
  deriving DecidableEq, Repr

/-- The kind of schema constraint a write can violate. -/
inductive Violation where
  | notNull
  | check
  | unique
  | exclusion
  | foreignKey
  deriving DecidableEq, Repr

/-- What a request can raise. -/
inductive Raised where
  | app (error : AppError)
  | valueError
  | overflowError
  | assertionError
  | attributeError
  | staleDataError
  /-- `scalar_one` of no row. -/
  | noResultFound
  /-- A value that the driver or the database cannot encode. -/
  | dataError
  /-- `decimal.InvalidOperation`. -/
  | invalidOperation
  | integrityError (violation : Violation)
  deriving DecidableEq, Repr

/-- The class of an `AppError`, none for any other exception. -/
def Raised.cls : Raised → Option ErrorClass
  | app error => some error.cls
  | _ => none

def notFound (message : String) : Raised :=
  .app ⟨.notFoundError, message, []⟩

def forbidden (message : String) : Raised :=
  .app ⟨.forbiddenError, message, []⟩

def unauthorized (message : String) : Raised :=
  .app ⟨.unauthorizedError, message, []⟩

def conflict (message : String) (details : List (String × Detail) := []) :
    Raised :=
  .app ⟨.conflictError, message, details⟩

/-- `SlotTakenError()`. -/
def slotTaken : Raised :=
  .app ⟨.slotTakenError,
    "This time slot has just been booked by someone else", []⟩

/-- `AlreadyReviewedError()`. -/
def alreadyReviewed : Raised :=
  .app ⟨.alreadyReviewedError,
    "This appointment has already been reviewed", []⟩

end BarberHub
