import BarberHub.System.Constraints

/-!
# The constraints hold throughout

What the schema demands of the tables holds in every committed state, whatever
runs against the database.  Of reviews, ratings and reminders, whose transactions
run here without their locks, it holds in the runs that do not touch them.
-/

namespace BarberHub

open KeyedTable ReadCommitted Program Pool Fallible

namespace Database

variable {env : Env} {s s' : Database}

/-! ## Any statement -/

/-- Every statement leaves what the schema demands. -/
theorem Intact.statement {work : Work} (h : s.Intact env)
    (hw : Statement env work s s') : s'.Intact env := by
  have hkept := ((keepsRecords_of_statement hw) h.editedKeys).2.has
  cases hw with
  | insertedAppointment customer row hwork hcustomer hnew hw =>
      exact h.insertAppointment hkept hnew hw
  | updatedAppointment id u hw => exact h.updateAppointment hkept hw
  | expiredAppointments stale hw => exact h.expired hw
  | queued task hw =>
      rw [hw]
      exact ⟨{ h.keys with }, { h.references with }, { h.checks with },
        h.noDoubleBooking⟩
  | flushedBarber id u hw => exact h.flushBarber hkept hw
  | flushedService id u hw => exact h.flushService hkept hw
  | flushedShop id u hw => exact h.flushShop hkept hw
  | flushedBarberServices barberId removed added hw =>
      exact h.flushBarberServices hkept hw
  | insertedShop owner row hwork howner hw => exact h.insertShop hkept hw
  | insertedService row hw => exact h.insertService hkept hw
  | flushedNewBarber user shopId payload id hwork row account haccount hw =>
      exact h.flushNewBarber hw
  | flushedWorkingHours deleted rows hw => exact h.flushWorkingHours hkept hw
  | insertedBreak row hw => exact h.insertBreak hkept hw
  | deletedBreak id hw =>
      rw [← Except.ok.inj hw]
      exact h.deleteBreaks _
  | insertedClosure row hw => exact h.insertClosure hkept hw
  | deletedClosure id hw =>
      rw [← Except.ok.inj hw]
      exact h.deleteClosures _
  | registered user token t hrole haccount htoken =>
      exact (h.flushAccount haccount).insertRefreshToken htoken
  | signedIn user password salt token t hrehash htoken =>
      exact (h.flushRehash hrehash).insertRefreshToken htoken
  | rotated id moment token hw => exact h.rotateToken hw
  | revoked ids moment hw =>
      rw [hw]
      exact h.revokeTokens ids moment
  | noted hwork hw => exact h.noted hkept hw

/-- Reviews and reminders are as they were, and a barber that is new or edited
has passed the check. -/
structure LeavesGrades (s s' : Database) : Prop where
  reviews : s'.reviews = s.reviews
  reminders : s'.appointmentReminders = s.appointmentReminders
  barbers : ∀ b ∈ s'.barbers, b ∈ s.barbers ∨ b.Checked

theorem leavesGrades_of_frame
    (hframe : s' = { s' with
      reviews := s.reviews
      appointmentReminders := s.appointmentReminders
      barbers := s.barbers }) : s.LeavesGrades s' := by
  rw [hframe]
  exact ⟨rfl, rfl, fun b hb => Or.inl hb⟩

theorem leavesGrades_flushBarber {id : Uuid} {u : BarberUpdate}
    (hw : flushBarber id u s = .ok s') : s.LeavesGrades s' := by
  rw [flushBarber] at hw
  split at hw
  · obtain rfl := Except.ok.inj hw
    exact leavesGrades_of_frame rfl
  simp only [bind_eq_ok_iff] at hw
  obtain ⟨_, -, barbers, hrows, hw⟩ := hw
  obtain rfl := Except.ok.inj hw
  obtain ⟨row, new, -, -, hconstraints, rfl⟩ := updateRow_eq_ok hrows
  exact ⟨rfl, rfl, forall_mem_replace (fun b hb => Or.inl hb)
    (Or.inr (enforce_eq_ok hconstraints))⟩

theorem leavesGrades_flushNewBarber {row : Barber} {account : User}
    (hw : flushNewBarber row account s = .ok s') : s.LeavesGrades s' := by
  have hframe := (flushNewBarber_eq_ok hw).1
  rw [flushNewBarber] at hw
  obtain ⟨t, hinsert, -⟩ := bind_eq_ok_iff.mp hw
  rw [insertBarber] at hinsert
  obtain ⟨_, hchecked, -⟩ := bind_eq_ok_iff.mp hinsert
  rw [hframe]
  exact ⟨rfl, rfl, forall_mem_concat (fun b hb => Or.inl hb)
    (Or.inr (enforce_eq_ok hchecked))⟩

theorem leavesGrades_of_statement {work : Work} (hwork : ¬ work.Notes)
    (hw : Statement env work s s') : s.LeavesGrades s' := by
  cases hw with
  | insertedAppointment customer row hcreates hcustomer hnew hw =>
      exact leavesGrades_of_frame (by rw [(insertAppointment_eq_ok hw).1])
  | updatedAppointment id u hw =>
      exact leavesGrades_of_frame (by rw [updateAppointment_eq_ok hw])
  | expiredAppointments stale hw =>
      exact leavesGrades_of_frame (by rw [expired_frame hw])
  | queued task hw => exact leavesGrades_of_frame (by rw [hw])
  | flushedBarber id u hw => exact leavesGrades_flushBarber hw
  | flushedService id u hw =>
      exact leavesGrades_of_frame (by rw [(flushService_eq_ok hw).1])
  | flushedShop id u hw =>
      exact leavesGrades_of_frame (by rw [(flushShop_eq_ok hw).1])
  | flushedBarberServices barberId removed added hw =>
      exact leavesGrades_of_frame (by rw [(flushBarberServices_eq_ok hw).1])
  | insertedShop owner row hcreates howner hw =>
      exact leavesGrades_of_frame (by rw [insertShop_eq_ok hw])
  | insertedService row hw =>
      exact leavesGrades_of_frame (by rw [(insertService_eq_ok hw).1])
  | flushedNewBarber user shopId payload id hcreates row account haccount hw =>
      exact leavesGrades_flushNewBarber hw
  | flushedWorkingHours deleted rows hw =>
      exact leavesGrades_of_frame (by rw [flushWorkingHours_eq_ok hw])
  | insertedBreak row hw =>
      exact leavesGrades_of_frame (by rw [insertBreak_eq_ok hw])
  | deletedBreak id hw =>
      exact leavesGrades_of_frame (by rw [← Except.ok.inj hw])
  | insertedClosure row hw =>
      exact leavesGrades_of_frame (by rw [insertClosure_eq_ok hw])
  | deletedClosure id hw =>
      exact leavesGrades_of_frame (by rw [← Except.ok.inj hw])
  | registered user token t hrole haccount htoken =>
      obtain rfl := flushAccount_eq_ok haccount
      exact leavesGrades_of_frame (by rw [(insertRefreshToken_eq_ok htoken).2])
  | signedIn user password salt token t hrehash htoken =>
      have hframe := (flushRehash_frame hrehash).1
      have htoken := (insertRefreshToken_eq_ok htoken).2
      exact leavesGrades_of_frame (by rw [htoken, hframe])
  | rotated id moment token hw =>
      rw [rotateToken] at hw
      split at hw
      · exact leavesGrades_of_frame (by rw [(insertRefreshToken_eq_ok hw).2]; rfl)
      · simp at hw
  | revoked ids moment hw => exact leavesGrades_of_frame (by rw [hw]; rfl)
  | noted hnotes hw => exact absurd hnotes hwork

theorem Graded.leave (h : s.Graded) (hkept : s.RecordsKept s')
    (hleaves : s.LeavesGrades s') : s'.Graded where
  ratings b hb := by
    rcases hleaves.barbers b hb with hold | hchecked
    · exact h.ratings b hold
    · exact hchecked.2
  reviews := by rw [hleaves.reviews]; exact h.reviews
  reviewed := by rw [hleaves.reviews]; exact h.reviewed
  reviewChecks := by rw [hleaves.reviews]; exact h.reviewChecks
  reviewReferences := by
    rw [hleaves.reviews]
    intro r hr
    obtain ⟨hcustomer, hbarber, happointment⟩ := h.reviewReferences r hr
    exact ⟨hkept.has _ hcustomer, hkept.has _ hbarber,
      hkept.appointment happointment⟩
  reminders := by rw [hleaves.reminders]; exact h.reminders
  reminderReferences := by
    rw [hleaves.reminders]
    exact fun r hr => hkept.appointment (h.reminderReferences r hr)

end Database

/-! ## Every run -/

open Database

variable {ι : Type} [DecidableEq ι]

theorem intact_exec
    {env : Env} {works : ι → Work} {db : Database} (hdb : db.Intact env)
    (schedule : List ι) :
    ((workPool env works db).exec schedule).committed.Intact env := by
  have hrely : IsRely fun s s' : Database => s.Intact env → s'.Intact env :=
    ⟨fun _ h => h, fun h h' hs => h' (h hs)⟩
  refine (related_exec hrely (fun i => ?_) schedule).1 hdb
  exact (work_writesWithin (works i)).mono fun s s' hw h => h.statement hw

/-- In every committed state of every interleaving of requests and tasks the
constraints hold; in those that leave reviews, ratings and reminders alone, a
valid database stays valid. -/
theorem integrity_kept
    (env : Env) (works : ι → Work) (db : Database) (hdb : db.Intact env)
    (schedule : List ι) :
    let c := (workPool env works db).exec schedule
    c.committed.Intact env ∧
      (env.noDoubleBooking = true → (∀ i, ¬ (works i).Notes) → db.Valid →
        c.committed.Valid) := by
  intro c
  have hintact : c.committed.Intact env := intact_exec hdb schedule
  refine ⟨hintact, ?_⟩
  intro henforced hplain hvalid
  have hrely : IsRely fun s s' : Database =>
      s.Intact env → s.Graded → s'.Intact env ∧ s'.Graded := by
    refine ⟨fun _ h hg => ⟨h, hg⟩, ?_⟩
    intro s t u h h' hs hg
    obtain ⟨ht, hgt⟩ := h hs hg
    exact h' ht hgt
  refine hintact.valid henforced ((related_exec hrely (fun i => ?_)
    schedule).1 hdb hvalid.graded).2
  apply (work_writesWithin (works i)).mono
  intro s s' hw h hg
  have hkept := (keepsRecords_of_statement hw h.editedKeys).2
  exact ⟨h.statement hw, hg.leave hkept (leavesGrades_of_statement (hplain i) hw)⟩

/-- What a valid database is not asked for: emails, names and links that differ,
and accounts behind tokens and cancellations. -/
theorem Database.Valid.intact {env : Env} {db : Database} (h : db.Valid)
    (hemails : UniqueKeys (fun u : User => env.lower u.email) db.users)
    (hnames : db.NamesUnique env) (hlinks : db.barberServices.Nodup)
    (hcancelled : ∀ a ∈ db.appointments, ∀ id ∈ a.cancelledById,
      db.Has (.user id))
    (htokens : ∀ t ∈ db.refreshTokens, db.Has (.user t.userId)) :
    db.Intact env where
  keys :=
    { h.keys with
      emails := hemails
      places := h.barbers_unique
      names := hnames
      barberServices := hlinks
      shifts := h.workingHours_unique
      ranges := h.shopClosures_unique
      tokenHashes := h.tokenHash_unique }
  references :=
    { h.references with
      appointments := by
        intro a ha
        obtain ⟨hcustomer, hbarber, hservice⟩ := h.references.appointments a ha
        exact ⟨hcustomer, hbarber, hservice, hcancelled a ha⟩
      refreshTokens := htokens }
  checks := { h.checks with barbers := fun b hb => (h.checks.barbers b hb).1 }
  noDoubleBooking _ := h.noDoubleBooking

theorem Sample.bookedDb_intact : Sample.bookedDb.Intact Sample.env :=
  Sample.bookedDb_valid.intact (by decide) (by rw [NamesUnique]; decide)
    (by decide) (by decide) (by decide)

end BarberHub
