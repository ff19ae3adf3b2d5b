import BarberHub.Booking.Losses
import BarberHub.System.Commits

/-!
# One person, several chairs

A person may have a barber's row at each of several shops.  The constraint on
double bookings compares the appointments of one row, so in any interleaving of
everything the bookings of a person at one shop never overlap, while those at
two shops may.
-/

namespace BarberHub

open HalfOpen KeyedTable ReadCommitted Program Pool Fallible

variable {ι : Type} [DecidableEq ι]

/-- Two active appointments at the same time, with whomever. -/
def Appointment.Clash (a b : Appointment) : Prop :=
  a.id ≠ b.id ∧ a.status.blocksSlot ∧ b.status.blocksSlot ∧
    Overlap a.startTime a.endTime b.startTime b.endTime

instance (a b : Appointment) : Decidable (a.Clash b) :=
  inferInstanceAs (Decidable (_ ∧ _ ∧ _ ∧ _))

namespace Database

/-- No two active appointments of one person overlap. -/
def NobodyTwice (db : Database) : Prop :=
  ∀ userId, ∀ a ∈ db.appointments, ∀ b ∈ db.appointments, ∀ shopA shopB,
    db.WorksAt a.barberId userId shopA → db.WorksAt b.barberId userId shopB →
    ¬ a.Clash b

/-- No two active appointments of one person at one shop overlap. -/
def NobodyTwiceAtOneShop (db : Database) : Prop :=
  ∀ userId, ∀ a ∈ db.appointments, ∀ b ∈ db.appointments, ∀ shopA shopB,
    db.WorksAt a.barberId userId shopA → db.WorksAt b.barberId userId shopB →
    a.Clash b → shopA ≠ shopB

/-- A person has one row at a shop, and the appointments satisfy their
constraints. -/
structure OneRow (db : Database) : Prop where
  consistent : db.Consistent
  keys : UniqueKeys Barber.id db.barbers
  rows : UniqueKeys (fun b : Barber => (b.userId, b.shopId)) db.barbers

theorem Valid.oneRow {db : Database} (h : db.Valid) : db.OneRow where
  consistent :=
    ⟨h.keys.appointments, h.checks.appointments, h.noDoubleBooking⟩
  keys := h.keys.barbers
  rows := h.barbers_unique

theorem OneRow.apart {db : Database} (h : db.OneRow) :
    db.NobodyTwiceAtOneShop := by
  rintro userId a ha b hb shopA shopB ⟨rowA, hrowA, huserA, hshopA⟩
    ⟨rowB, hrowB, huserB, hshopB⟩ ⟨hne, hactiveA, hactiveB, hoverlap⟩ hsame
  have hrow : rowA = rowB := by
    apply h.rows.eq_of_mem (mem_of_lookup hrowA) (mem_of_lookup hrowB)
    rw [huserA, huserB, hshopA, hshopB, hsame]
  subst hrow
  have hbarber : a.barberId = b.barberId :=
    (key_of_lookup hrowA).symm.trans (key_of_lookup hrowB)
  exact h.consistent.disjoint a ha b hb hne
    ⟨hbarber, hactiveA, hactiveB, hoverlap⟩

end Database

/-! ## One commit -/

section

variable {env : Env} {s s' : Database} {work : Work}

theorem Database.Consistent.of_appointments_eq
    (h : s.Consistent) (heq : s'.appointments = s.appointments) :
    s'.Consistent where
  keys := by
    rw [heq]
    exact h.keys
  checked := by
    rw [heq]
    exact h.checked
  disjoint := by
    rw [NoDoubleBooking, heq]
    exact h.disjoint

theorem WorkCommit.consistent
    (henforced : env.noDoubleBooking = true) (h : WorkCommit env s s' work)
    (hs : s.Consistent) : s'.Consistent := by
  rcases h.appointments_cases with heq | ⟨row, -, hinsert⟩ | ⟨id, u, hupdate⟩ |
    ⟨stale, hupdate⟩
  · exact hs.of_appointments_eq heq
  · exact hs.insert henforced hinsert
  · exact hs.update henforced hupdate
  · exact hs.expired henforced hupdate

theorem WorkCommit.oneRow
    (henforced : env.noDoubleBooking = true) (h : WorkCommit env s s' work)
    (hs : s.OneRow) : s'.OneRow where
  consistent := h.consistent henforced hs.consistent
  keys := h.barber_keys hs.keys
  rows := h.barber_rows hs.keys hs.rows

end

/-! ## Every interleaving -/

/-- In every state of every interleaving of everything, the active appointments
of a person at one shop do not overlap: two that do are at different shops. -/
theorem nobodyTwiceAtOneShop
    (env : Env) (works : ι → Work) (db : Database)
    (henforced : env.noDoubleBooking = true) (hvalid : db.Valid)
    (schedule : List ι) :
    ((workPool env works db).exec schedule).committed.NobodyTwiceAtOneShop :=
  (workPool_invariant env works hvalid.oneRow
    (fun _ _ _ hs h => h.oneRow henforced hs) schedule).apart

/-! ## The sample shop with a rival -/

/-- The owner's second shop. -/
def rivalShop : Barbershop :=
  { Sample.shop with id := 11, name := "Rival shop" }

def rivalHaircut : Service :=
  { Sample.haircut with id := 31, shopId := 11 }

/-- Two shops, a service at each, and no barber yet. -/
def twoShopsDb : Database :=
  { Sample.db with
    barbershops := [Sample.shop, rivalShop]
    barbers := []
    services := [Sample.haircut, rivalHaircut]
    barberServices := []
    workingHours := [] }

/-- Nine to five on Mondays. -/
def mondayHours : WorkingHoursSlot :=
  ⟨0, Sample.timeOfDay 9 0, Sample.timeOfDay 17 0⟩

/-- The owner takes the same person on at both shops, and a customer books the
person at nine in each. -/
def twoChairs : Fin 8 → Work
  | 0 => .directory (.addBarber Sample.owner 10 ⟨"Boris", none, 0⟩ 20)
  | 1 => .directory (.addBarber Sample.owner 11 ⟨"Boris", none, 0⟩ 21)
  | 2 => .directory (.setServices Sample.owner 20 [30])
  | 3 => .directory (.setServices Sample.owner 21 [31])
  | 4 => .management (.replaceWorkingHours Sample.owner 20 [mondayHours]
      fun n => 50 + n) (Sample.clock 0 0)
  | 5 => .management (.replaceWorkingHours Sample.owner 21 [mondayHours]
      fun n => 60 + n) (Sample.clock 0 0)
  | 6 => .booking (.create Sample.customer ⟨20, 30, Sample.start 9 0⟩
      (Sample.clock 0 0) 40 (Sample.clock 0 0))
  | 7 => .booking (.create Sample.customer ⟨21, 31, Sample.start 9 0⟩
      (Sample.clock 0 0) 41 (Sample.clock 0 0))

/-- One after the other. -/
def oneAfterTheOther : List (Fin 8) :=
  (List.finRange 8).flatMap (List.replicate 24)

theorem twoShopsDb_valid : twoShopsDb.Valid := by
  decide +kernel

theorem nobodyTwiceAtOneShop_twoChairs :
    ((workPool Sample.env twoChairs twoShopsDb).exec
      oneAfterTheOther).committed.NobodyTwiceAtOneShop :=
  nobodyTwiceAtOneShop Sample.env twoChairs twoShopsDb rfl twoShopsDb_valid
    oneAfterTheOther

/-- The person is expected in both shops at nine. -/
theorem not_nobodyTwice_twoChairs :
    ¬ ((workPool Sample.env twoChairs twoShopsDb).exec
      oneAfterTheOther).committed.NobodyTwice := by
  intro h
  have hclash : ∃ a ∈ ((workPool Sample.env twoChairs twoShopsDb).exec
        oneAfterTheOther).committed.appointments,
      ∃ b ∈ ((workPool Sample.env twoChairs twoShopsDb).exec
        oneAfterTheOther).committed.appointments,
      (∃ row ∈ ((workPool Sample.env twoChairs twoShopsDb).exec
        oneAfterTheOther).committed.barber? a.barberId, row.userId = 3) ∧
      (∃ row ∈ ((workPool Sample.env twoChairs twoShopsDb).exec
        oneAfterTheOther).committed.barber? b.barberId, row.userId = 3) ∧
      a.Clash b := by
    decide +kernel
  obtain ⟨a, ha, b, hb, ⟨rowA, hrowA, huserA⟩, ⟨rowB, hrowB, huserB⟩, hclash⟩ :=
    hclash
  exact h 3 a ha b hb rowA.shopId rowB.shopId ⟨rowA, hrowA, huserA, rfl⟩
    ⟨rowB, hrowB, huserB, rfl⟩ hclash

end BarberHub
