import BarberHub.Booking.Concurrent

/-!
# The confirmation timeout under concurrency

`expire_stale_pending` selects the stale bookings with one statement and
cancels them by primary key when it commits.  Nothing holds the rows in
between.  This module shows what that leaves of the promise that a confirmed
booking never expires: it holds as long as no booking is confirmed between the
job's SELECT of it and the job's commit, and one such confirmation is enough to
lose a confirmed booking.
-/

namespace BarberHub

open HalfOpen KeyedTable ReadCommitted Program Pool

variable {ι : Type} [DecidableEq ι]

/-- No timeout job changes a booking that is CONFIRMED when the job commits. -/
def ConfirmedKept (env : Env) (ops : ι → BookingOp) (db : Database)
    (schedule : List ι) : Prop :=
  ∀ started j now id a, started ++ [j] <+: schedule → ops j = .expire now →
    ((bookingPool env ops db).exec started).committed.appointment? id =
      some a → a.status = .confirmed →
    ((bookingPool env ops db).exec (started ++ [j])).committed.appointment? id =
      some a

/-- No confirmation of a booking that a timeout job has selected commits before
that job does. -/
def SelectionsStand (env : Env) (ops : ι → BookingOp) (db : Database)
    (schedule : List ι) : Prop :=
  ∀ first between i k now user id,
    first ++ i :: between ++ [k] <+: schedule → i ∉ first → i ∉ between →
    ops i = .expire now → ops k = .confirm user id →
    id ∈ (((bookingPool env ops db).exec first).committed.stalePending
      (now - minutes 30)).map Appointment.id →
    ((bookingPool env ops db).exec (first ++ i :: between ++ [k])).committed =
      ((bookingPool env ops db).exec (first ++ i :: between)).committed

/-! ## The job -/

/-- The job writes what it has selected with its one statement. -/
theorem transaction_expire
    (env : Env) {now : ℤ} (h : Representable (now - minutes 30)) :
    (BookingOp.expire now).transaction env = .read fun s =>
      .commit (fun db => (s.stalePending (now - minutes 30)).foldlM
        (fun db a => updateAppointment env a.id (expiry a) db) db)
        (.done (.ok ())) := by
  rw [BookingOp.transaction, discard, expireStalePending, representable_of h]
  rfl

theorem finished_expire
    (env : Env) {now : ℤ} (h : ¬ Representable (now - minutes 30)) :
    ((BookingOp.expire now).transaction env).Finished := by
  rw [BookingOp.transaction, discard, expireStalePending, representable,
    if_neg h]
  trivial

section

variable {env : Env} {ops : ι → BookingOp} {db : Database}
  {first between : List ι} {i : ι} {now : ℤ}

/-- A job that has made its statement and has not stepped since. -/
theorem running_expire
    (env : Env) (db : Database)
    (hop : ops i = .expire now) (hfirst : i ∉ first) (hbetween : i ∉ between)
    (hnow : Representable (now - minutes 30)) :
    ((bookingPool env ops db).exec (first ++ i :: between)).running i =
      .commit (fun t =>
        (((bookingPool env ops db).exec first).committed.stalePending
          (now - minutes 30)).foldlM
            (fun t a => updateAppointment env a.id (expiry a) t) t)
        (.done (.ok ())) := by
  have hbegin : ((bookingPool env ops db).exec first).running i =
      (BookingOp.expire now).transaction env := by
    rw [exec_running_of_not_mem _ hfirst, ← hop]
    rfl
  rw [transaction_expire env hnow] at hbegin
  rw [running_after_read hbegin hbetween]

/-- The job steps twice. -/
theorem finished_of_committed
    (hop : ops i = .expire now) (hfirst : i ∉ first) (hagain : i ∈ between)
    (hnow : Representable (now - minutes 30)) :
    (((bookingPool env ops db).exec
      (first ++ i :: between)).running i).Finished := by
  obtain ⟨waiting, rest, rfl, hwaiting⟩ := List.eq_append_cons_of_mem hagain
  have hsplit : first ++ i :: (waiting ++ i :: rest) =
      first ++ i :: waiting ++ [i] ++ rest := by simp
  rw [hsplit, exec_append]
  refine finished_exec ?_ rest
  have hrunning := running_expire env db hop hfirst hwaiting hnow
  rw [exec_concat]
  cases hw : (((bookingPool env ops db).exec first).committed.stalePending
      (now - minutes 30)).foldlM
        (fun t a => updateAppointment env a.id (expiry a) t)
        ((bookingPool env ops db).exec (first ++ i :: waiting)).committed with
  | error e =>
      rw [step_of_refused hrunning hw, update_running_self]
      trivial
  | ok s =>
      rw [step_of_accepted hrunning hw]
      simp [update, Finished]

/-- The SELECT of the job commits nothing. -/
theorem committed_select
    (hop : ops i = .expire now) (hfirst : i ∉ first)
    (hnow : Representable (now - minutes 30)) :
    ((bookingPool env ops db).exec (first ++ [i])).committed =
      ((bookingPool env ops db).exec first).committed := by
  have hbegin : ((bookingPool env ops db).exec first).running i =
      (BookingOp.expire now).transaction env := by
    rw [exec_running_of_not_mem _ hfirst, ← hop]
    rfl
  rw [transaction_expire env hnow] at hbegin
  rw [exec_concat, step_of_read hbegin, update_committed]

/-! ## Until the job commits -/

/-- A booking that the job has selected is not CONFIRMED before the job
commits. -/
theorem not_confirmed_of_selected
    {schedule : List ι}
    (hkeys : UniqueKeys Appointment.id db.appointments)
    (hstand : SelectionsStand env ops db schedule)
    (hpre : first ++ i :: between <+: schedule)
    (hop : ops i = .expire now) (hfirst : i ∉ first) (hbetween : i ∉ between)
    (hnow : Representable (now - minutes 30)) {a : Appointment}
    (ha : a ∈ ((bookingPool env ops db).exec first).committed.stalePending
      (now - minutes 30)) :
    ∃ b, ((bookingPool env ops db).exec
        (first ++ i :: between)).committed.appointment? a.id = some b ∧
      b.status ≠ .confirmed := by
  have hpool := bookingPool_verified env ops hkeys
  have htol : ∀ schedule, (bookingPool env ops db).Tolerant
      (fun _ _ _ => True) schedule := fun _ _ _ _ _ _ _ => trivial
  induction between using List.reverseRecOn with
  | nil =>
      rw [committed_select hop hfirst hnow]
      rw [Database.mem_stalePending] at ha
      have hkeys' := hpool.invariant (htol first)
      refine ⟨a, hkeys'.lookup_eq_some_iff.mpr ⟨ha.1, rfl⟩, ?_⟩
      rw [ha.2.1]
      simp
  | append_singleton between k ih =>
      have happend : first ++ i :: (between ++ [k]) =
          first ++ i :: between ++ [k] := by simp
      rw [happend] at hpre ⊢
      rw [List.mem_append, not_or] at hbetween
      obtain ⟨b, hb, hopen⟩ :=
        ih ((List.prefix_append _ _).trans hpre) hbetween.1
      by_cases hconfirm : ∃ user, ops k = .confirm user a.id
      · obtain ⟨user, hk⟩ := hconfirm
        refine ⟨b, ?_, hopen⟩
        rw [hstand first between i k now user a.id hpre hfirst hbetween.1 hop hk
          (List.mem_map_of_mem ha)]
        exact hb
      · -- no other operation confirms a booking
        have hstep := hpool.step_commits (htol (first ++ i :: between ++ [k]))
        rw [← exec_concat] at hstep
        rcases hstep with heq | hframe
        · exact ⟨b, by rw [heq]; exact hb, hopen⟩
        · obtain ⟨c, hc, -, hstatus⟩ := hframe.rows a.id b hb
          refine ⟨c, hc, ?_⟩
          intro hconfirmed
          exact (hstatus hconfirmed).elim hopen hconfirm

end

/-- The confirmation timeout cancels no confirmed booking in any run in which
no booking is confirmed between the job's SELECT of it and the job's commit. -/
theorem confirmed_kept
    (env : Env) (ops : ι → BookingOp) (db : Database) (schedule : List ι)
    (hkeys : UniqueKeys Appointment.id db.appointments)
    (hstand : SelectionsStand env ops db schedule) :
    ConfirmedKept env ops db schedule := by
  intro started j now id a hpre hop ha hconfirmed
  by_cases hnow : Representable (now - minutes 30)
  · by_cases hmem : j ∈ started
    · obtain ⟨first, between, rfl, hfirst⟩ := List.eq_append_cons_of_mem hmem
      by_cases hagain : j ∈ between
      · rw [exec_concat,
          step_of_finished (finished_of_committed hop hfirst hagain hnow)]
        exact ha
      have hrunning := running_expire env db hop hfirst hagain
        hnow
      rw [exec_concat]
      cases hw : (((bookingPool env ops db).exec first).committed.stalePending
          (now - minutes 30)).foldlM
            (fun t a => updateAppointment env a.id (expiry a) t)
            ((bookingPool env ops db).exec (first ++ j :: between)).committed with
      | error e =>
          rw [step_of_refused hrunning hw, update_committed]
          exact ha
      | ok s =>
          rw [step_of_accepted hrunning hw]
          obtain ⟨-, -, hrows⟩ := expired_rows id
            (fun b hb => (Database.mem_stalePending.mp hb).2.1) hw
          obtain ⟨b, hb, rfl | ⟨-, c, hc, rfl⟩⟩ := hrows a ha
          · exact hb
          · obtain ⟨d, hd, hopen⟩ := not_confirmed_of_selected hkeys hstand
              ((List.prefix_append _ _).trans hpre) hop hfirst hagain hnow hc
            obtain rfl := Option.some.inj (ha.symm.trans hd)
            exact absurd hconfirmed hopen
    · rw [committed_select hop hmem hnow]
      exact ha
  · have hfinished : ((bookingPool env ops db).running j).Finished := by
      change ((ops j).transaction env).Finished
      rw [hop]
      exact finished_expire env hnow
    rw [exec_concat, step_of_finished (finished_exec hfinished started)]
    exact ha

/-! ## A job and a confirmation -/

/-- The sample shop with a booking nobody has confirmed for eight hours. -/
def pendingDb : Database :=
  { Sample.db with
    appointments :=
      [Sample.booking 40 (Sample.clock 9 0) (Sample.clock 9 30) .pending] }

/-- The timeout job, and an administrator who confirms the booking. -/
def expireAndConfirm : Bool → BookingOp
  | false => .expire (Sample.clock 8 0)
  | true => .confirm Sample.admin 40

theorem confirmed_kept_one_after_the_other :
    ConfirmedKept Sample.env expireAndConfirm pendingDb
      [true, true, false, false] := by
  apply confirmed_kept _ _ _ _ (by decide)
  intro first between i k now user id hpre _ _ hi hk
  obtain rfl : i = false := by cases i <;> simp [expireAndConfirm] at hi ⊢
  obtain rfl : k = true := by cases k <;> simp [expireAndConfirm] at hk ⊢
  -- no step of the confirmation follows one of the job
  have horder : [false, true].Sublist [true, true, false, false] := by
    refine List.Sublist.trans ?_ hpre.sublist
    rw [List.append_assoc, List.cons_append]
    exact List.sublist_append_of_sublist_right
      ((List.sublist_append_right between [true]).cons_cons false)
  exact absurd horder (by decide)

/-- When the job has selected the booking before it is confirmed, the confirmed
booking is cancelled. -/
theorem confirmed_lost :
    ¬ ConfirmedKept Sample.env expireAndConfirm pendingDb
      [false, true, true, false] := by
  intro h
  have hlost := h [false, true, true] false (Sample.clock 8 0) 40
    (Sample.booking 40 (Sample.clock 9 0) (Sample.clock 9 30) .confirmed)
    (List.prefix_refl _) rfl (by decide +kernel) rfl
  revert hlost
  decide +kernel

end BarberHub
