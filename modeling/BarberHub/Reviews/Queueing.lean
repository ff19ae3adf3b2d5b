import Mathlib.Data.List.Basic
import BarberHub.Reviews.Drift
import BarberHub.Support.LockOrder

/-!
# Reviewers queue

Requests to review lock the barber before they insert, and the nightly task
locks the barbers in the order in which it has read them.  So however many
reviewers there are around one nightly task, they wait for each other but never
in a circle: whatever has happened, every request that was not killed can still
be answered.  The key-share locks an `INSERT` takes besides are on rows that are
locked already or that none of these transactions updates.
-/

namespace BarberHub

open LockedTransactions Transaction Pool

/-- The place of a barber in the table, and after all of them the reviews. -/
def Database.lockRank (db : Database) : RatingLock → ℕ
  | .barber id => (db.barbers.map Barber.id).idxOf id
  | .reviewOf _ => db.barbers.length + 1

/-- The same barbers in the same order. -/
def Database.SameBarbers (db s : Database) : Prop :=
  s.barbers.map Barber.id = db.barbers.map Barber.id

section

variable {db s : Database}

theorem Database.SameBarbers.setRating (h : db.SameBarbers s) (barberId : Uuid)
    (rating : ℤ) (count : ℕ) :
    db.SameBarbers (s.setRating barberId rating count) := by
  have hids : (s.setRating barberId rating count).barbers.map Barber.id =
      s.barbers.map Barber.id :=
    KeyedTable.map_updateAt fun _ _ _ => rfl
  exact hids.trans h

theorem Database.lockRank_barber_lt (id appointmentId : Uuid) :
    db.lockRank (.barber id) < db.lockRank (.reviewOf appointmentId) := by
  have hle : (db.barbers.map Barber.id).idxOf id ≤
      (db.barbers.map Barber.id).length := List.idxOf_le_length
  rw [List.length_map] at hle
  exact Nat.lt_succ_of_le hle

/-- Barbers met earlier in the table come first. -/
theorem Database.lockRank_barber_lt_of_append {first rest : List Uuid}
    {id next : Uuid} (hids : db.barbers.map Barber.id = first ++ next :: rest)
    (hid : id ∈ first) (hnext : next ∉ first) :
    db.lockRank (.barber id) < db.lockRank (.barber next) := by
  rw [lockRank, lockRank, hids, List.idxOf_append, List.idxOf_append,
    if_pos hid, if_neg hnext]
  have hlt := List.idxOf_lt_length_of_mem hid
  omega

end

/-! ## One transaction -/

section

variable {db : Database} {held : Set RatingLock}

theorem inOrder_lockBarberForUpdate {barberId : Uuid}
    {Q : Barber → Set RatingLock → Prop}
    (horder : .barber barberId ∉ held →
      ∀ k ∈ held, db.lockRank k < db.lockRank (.barber barberId))
    (h : ∀ barber, Q barber (insert (.barber barberId) held)) :
    (lockBarberForUpdate barberId).InOrder db.SameBarbers db.lockRank Q
      held := by
  rw [lockBarberForUpdate]
  refine (inOrder_lock (Q := fun _ held' =>
    held' = insert (RatingLock.barber barberId) held) horder rfl).bind ?_
  rintro - _ rfl
  refine (inOrder_query (Q := fun _ held' =>
    held' = insert (RatingLock.barber barberId) held) fun _ _ => rfl).bind ?_
  rintro row _ rfl
  exact inOrder_foundOr _ fun barber _ => h barber

theorem inOrder_recomputeBarberRating {barberId : Uuid}
    (hbarber : .barber barberId ∈ held) :
    (recomputeBarberRating barberId).InOrder db.SameBarbers db.lockRank
      (fun _ _ => True) held := by
  rw [recomputeBarberRating]
  refine (inOrder_lockBarberForUpdate (Q := fun _ _ => True)
    (fun hfree => absurd hbarber hfree) fun _ => trivial).bind ?_
  intro barber held' _
  refine (inOrder_query (Q := fun _ _ => True) fun _ _ => trivial).bind ?_
  rintro ⟨average, count⟩ held' _
  exact inOrder_modify (fun s hs => hs.setRating _ _ _) trivial

/-- A request locks its barber, and then its review. -/
theorem inOrder_createReview (user : User) (appointmentId : Uuid)
    (payload : ReviewCreate) (reviewId : Uuid) (createdAt : ℤ) :
    (createReview user appointmentId payload reviewId createdAt).InOrder
      db.SameBarbers db.lockRank (fun _ _ => True) ∅ := by
  rw [createReview]
  refine (inOrder_query (Q := fun _ held => held = ∅) fun _ _ => rfl).bind ?_
  rintro row _ rfl
  refine (inOrder_foundOr (Q := fun _ held => held = ∅) _
    fun _ _ => rfl).bind ?_
  rintro appointment _ rfl
  refine (inOrder_ensure (Q := fun _ held => held = ∅) _ _
    fun _ => rfl).bind ?_
  rintro - _ rfl
  refine (inOrder_ensure (Q := fun _ held => held = ∅) _ _
    fun _ => rfl).bind ?_
  rintro - _ rfl
  refine (inOrder_lockBarberForUpdate (Q := fun _ held =>
    held = {RatingLock.barber appointment.barberId})
    (fun _ k hk => absurd hk (Set.notMem_empty k))
    fun _ => LawfulSingleton.insert_empty_eq _).bind ?_
  rintro barber _ rfl
  rw [insertRow_bind]
  refine ⟨?_, ?_, ?_⟩
  · intro _ k hk
    obtain rfl := Set.mem_singleton_iff.mp hk
    exact Database.lockRank_barber_lt _ _
  · rw [if_pos rfl]
    refine ⟨fun s hs => hs, ?_⟩
    refine (inOrder_recomputeBarberRating
      (Set.mem_insert_of_mem _ (Set.mem_singleton _))).bind ?_
    intro _ held' _
    exact (readOnly_loadReview _).inOrder fun _ => trivial
  · intro _ a ha
    simp at ha

/-- The loop of the nightly task, which holds the barbers met so far. -/
theorem inOrder_recomputeAll (first rest : List Uuid)
    (hids : db.barbers.map Barber.id = first ++ rest) (repaired : ℕ) :
    (recomputeAll rest repaired).InOrder db.SameBarbers db.lockRank
      (fun _ _ => True) {k | ∃ id ∈ first, k = .barber id} := by
  induction rest generalizing first repaired with
  | nil => exact fun _ _ => trivial
  | cons next rest ih =>
      rw [recomputeAll]
      have hheld : insert (RatingLock.barber next)
          {k | ∃ id ∈ first, k = .barber id} =
            {k | ∃ id ∈ first ++ [next], k = .barber id} := by
        ext k
        simp only [Set.mem_insert_iff, Set.mem_ofPred_eq, List.mem_append,
          List.mem_singleton, or_and_right, exists_or, exists_eq_left]
        exact or_comm
      have hone : (recomputeOne next).InOrder db.SameBarbers db.lockRank
          (fun _ held => held = {k | ∃ id ∈ first ++ [next], k = .barber id})
          {k | ∃ id ∈ first, k = .barber id} := by
        rw [recomputeOne]
        refine (inOrder_lockBarberForUpdate (Q := fun _ held =>
          held = {k | ∃ id ∈ first ++ [next], k = .barber id}) ?_
            fun _ => hheld).bind ?_
        · rintro hfree _ ⟨id, hid, rfl⟩
          exact Database.lockRank_barber_lt_of_append hids hid
            fun hmem => hfree ⟨next, hmem, rfl⟩
        rintro barber _ rfl
        refine (inOrder_query (Q := fun _ held =>
          held = {k | ∃ id ∈ first ++ [next], k = .barber id})
            fun _ _ => rfl).bind ?_
        rintro ⟨average, count⟩ _ rfl
        refine (inOrder_modify (Q := fun _ held =>
          held = {k | ∃ id ∈ first ++ [next], k = .barber id})
            (fun s hs => hs.setRating _ _ _) rfl).bind ?_
        rintro - _ rfl
        exact fun _ _ => rfl
      refine hone.bind ?_
      rintro changed _ rfl
      apply ih
      rw [hids, List.append_assoc, List.singleton_append]

theorem inOrder_recomputeBarberRatings :
    recomputeBarberRatings.InOrder db.SameBarbers db.lockRank
      (fun _ _ => True) ∅ := by
  rw [recomputeBarberRatings, query_bind]
  intro s hs
  have hnone : {k | ∃ id ∈ ([] : List Uuid), k = RatingLock.barber id} = ∅ := by
    simp
  have hall := inOrder_recomputeAll [] (s.barbers.map Barber.id) hs.symm 0
  rw [hnone] at hall
  refine hall.bind ?_
  intro repaired held _
  exact fun _ _ => trivial

theorem inOrder_ratingWork (work : RatingWork) :
    work.transaction.InOrder db.SameBarbers db.lockRank (fun _ _ => True) ∅ := by
  cases work with
  | review user appointmentId payload reviewId createdAt =>
      refine (inOrder_createReview user appointmentId payload reviewId
        createdAt).bind ?_
      exact fun _ _ _ _ _ => trivial
  | recompute =>
      refine inOrder_recomputeBarberRatings.bind ?_
      exact fun _ _ _ _ _ => trivial

end

/-! ## Any number of reviewers and the nightly task -/

/-- A request to review an appointment. -/
structure ReviewRequest where
  user : User
  appointmentId : Uuid
  payload : ReviewCreate
  reviewId : Uuid
  createdAt : ℤ

/-- The nightly task, beside requests to review. -/
def besideNightlyTask {ι : Type} (reviews : ι → ReviewRequest) :
    Option ι → RatingWork
  | none => .recompute
  | some i => .review (reviews i).user (reviews i).appointmentId
      (reviews i).payload (reviews i).reviewId (reviews i).createdAt

/-- Whatever statements have been executed and whichever sessions killed, any of
the others can be brought to an answer by executing more statements: no reviewer
and no nightly task waits forever. -/
theorem reviewers_queue
    {ι : Type} [DecidableEq ι] (reviews : ι → ReviewRequest) (db : Database)
    (moves : List (Move (Option ι))) (waiting : Finset (Option ι)) :
    ∃ more : List (Option ι), ∀ i ∈ waiting, Move.abort i ∉ moves →
      ∃ r, (((Pool.start db fun i =>
        (besideNightlyTask reviews i).transaction).exec
          (moves ++ more.map .step)).session i).rest = some (.done r) :=
  exists_answers db.SameBarbers db.lockRank rfl
    (fun i => inOrder_ratingWork (besideNightlyTask reviews i)) moves waiting

end BarberHub
