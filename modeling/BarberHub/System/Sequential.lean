import BarberHub.Booking.Alone
import BarberHub.Support.Runs
import BarberHub.System.Commits

/-!
# Works one after another

A run executes works one after another, each of them alone.  What the commits
of a work keep is kept by the work, and only bookings touch the appointments
and the queue.
-/

namespace BarberHub

open ReadCommitted Program Database

/-- The database after a work has run alone. -/
def workStep (env : Env) (s : Database) (work : Work) : Database :=
  ((work.program env).run s).2

/-- The database after the works have run one after another. -/
def workRun (env : Env) (db : Database) (works : List Work) : Database :=
  works.foldl (workStep env) db

@[simp] theorem workRun_nil (env : Env) (db : Database) :
    workRun env db [] = db := rfl

theorem workRun_concat (env : Env) (db : Database) (works : List Work)
    (work : Work) :
    workRun env db (works ++ [work]) =
      workStep env (workRun env db works) work := by
  rw [workRun, List.foldl_append]
  rfl

section

variable {env : Env} {s : Database} {work : Work}

/-- An invariant that every commit of a work keeps is kept by the work. -/
theorem workStep_keeps
    {P : Database → Prop}
    (hcommit : ∀ t t', P t → WorkCommit env t t' work → P t') (hs : P s) :
    P (workStep env s work) :=
  (Ensures.run isRely_persists (work_learns env work s) hs hcommit).2

theorem workStep_persists (env : Env) (s : Database) (work : Work) :
    s.Persists (workStep env s work) := by
  refine workStep_keeps (P := s.Persists) ?_ (isRely_persists.refl s)
  intro t t' ht hcommit
  exact isRely_persists.trans ht hcommit.persists

/-- Only bookings touch the appointments and the queue. -/
theorem workStep_beside_bookings (hwork : ∀ op, work ≠ .booking op) :
    (workStep env s work).appointments = s.appointments ∧
      (workStep env s work).queue = s.queue := by
  refine workStep_keeps (P := fun t : Database =>
    t.appointments = s.appointments ∧ t.queue = s.queue) ?_ ⟨rfl, rfl⟩
  intro t t' ht hcommit
  obtain ⟨hrows, hqueue⟩ := hcommit.beside_bookings hwork
  exact ⟨hrows.trans ht.1, hqueue.trans ht.2⟩

theorem workStep_appointment? (hwork : ∀ op, work ≠ .booking op) (id : Uuid) :
    (workStep env s work).appointment? id = s.appointment? id := by
  rw [appointment?, appointment?, (workStep_beside_bookings hwork).1]

/-- A work is a booking, or it leaves the appointments and the queue. -/
theorem Work.booking_or_beside (work : Work) :
    (∃ op, work = .booking op) ∨ ∀ op, work ≠ .booking op := by
  cases work with
  | booking op => exact Or.inl ⟨op, rfl⟩
  | management | directory | account | rating | reminders =>
      right
      intro op
      simp

end

/-- A run that keeps to a condition keeps every invariant its commits keep. -/
theorem workRun_keeps
    {env : Env} {db : Database} {Inv : Database → Prop}
    (hcommit : ∀ work t t', Inv t → WorkCommit env t t' work → Inv t')
    (hdb : Inv db) (works : List Work) : Inv (workRun env db works) := by
  apply List.foldlRecOn works _ (motive := Inv) hdb
  intro s hs work _
  exact workStep_keeps (hcommit work) hs

/-! ## The sample shop -/

/-- The first customer books the barber at nine. -/
def firstBooking : Work :=
  .booking (.create Sample.customer ⟨20, 30, Sample.start 9 0⟩ (Sample.clock 0 0)
    40 (Sample.clock 0 0))

/-- The shop vets its bookings. -/
def vettedDb : Database :=
  { Sample.db with
    barbershops := [{ Sample.shop with requiresConfirmation := true }] }

theorem workStep_firstBooking :
    workStep Sample.env Sample.db firstBooking =
      { Sample.bookedDb with queue := [(.created, 40)] } := by
  decide +kernel

end BarberHub
