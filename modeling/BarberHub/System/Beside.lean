import BarberHub.System.Works

/-!
# What is written beside the directory

Reviews, the nightly task and the reminder sweep rate barbers, and add reviews
and reminders.  They leave the directory and the appointments as they are, the
ratings of the barbers apart.
-/

namespace BarberHub

open ReadCommitted LockedTransactions Transaction Database

/-- The same barber, rated differently. -/
def Barber.Rerated (b b' : Barber) : Prop :=
  b' = { b with rating := b'.rating, reviewsCount := b'.reviewsCount }

/-- Barbers may be rated differently, and reviews and reminders follow those
there were. -/
structure Database.Noted (s s' : Database) : Prop where
  frame : s' = { s with
    barbers := s'.barbers
    reviews := s'.reviews
    appointmentReminders := s'.appointmentReminders }
  barbers : ∃ rate : Barber → Barber,
    (∀ b : Barber, b.Rerated (rate b)) ∧ s'.barbers = s.barbers.map rate
  reviews : s.reviews <+: s'.reviews
  reminders : s.appointmentReminders <+: s'.appointmentReminders

theorem noted_of_eq {s s' : Database}
    (hframe : s' = { s with
      reviews := s'.reviews
      appointmentReminders := s'.appointmentReminders })
    (hreviews : s.reviews <+: s'.reviews)
    (hreminders : s.appointmentReminders <+: s'.appointmentReminders) :
    s.Noted s' := by
  refine ⟨?_, ?_, hreviews, hreminders⟩
  · rw [hframe]
  · have hsame : s'.barbers = s.barbers := by
      rw [hframe]
    exact ⟨id, fun _ => rfl, by rw [hsame, List.map_id]⟩

theorem Barber.Rerated.trans {a b c : Barber} (h : a.Rerated b)
    (h' : b.Rerated c) : a.Rerated c := by
  rw [Rerated] at h h' ⊢
  rw [h', h]

theorem isRely_noted : Program.IsRely Noted where
  refl _ := noted_of_eq rfl (List.prefix_refl _) (List.prefix_refl _)
  trans h h' := by
    refine ⟨?_, ?_, h.reviews.trans h'.reviews,
      h.reminders.trans h'.reminders⟩
    · rw [h'.frame, h.frame]
    · obtain ⟨rate, hrate, hbarbers⟩ := h.barbers
      obtain ⟨rate', hrate', hbarbers'⟩ := h'.barbers
      refine ⟨rate' ∘ rate, fun b => (hrate b).trans (hrate' _), ?_⟩
      rw [hbarbers', hbarbers, List.map_map]

/-- Reviews, ratings and reminders are beside the directory. -/
theorem Database.Noted.beside {s s' : Database} (h : s.Noted s') :
    s.Beside s' := by
  have hframe := h.frame
  obtain ⟨rate, hrate, hbarbers⟩ := h.barbers
  refine ⟨by rw [hframe], by rw [hframe], by rw [hframe], by rw [hframe],
    by rw [hframe], rate, fun b => ?_, hbarbers⟩
  rw [hrate b]
  exact ⟨rfl, rfl, rfl, rfl⟩

variable {env : Env}

/-! ## Ratings -/

theorem rerated_setRating (barberId : Uuid) (rating : ℤ) (count : ℕ)
    (b : Barber) : b.Rerated (if b.id = barberId then
      { b with rating := rating, reviewsCount := count } else b) := by
  split
  · rfl
  · rfl

theorem noted_setRating (barberId : Uuid) (rating : ℤ) (count : ℕ)
    (s : Database) : s.Noted (s.setRating barberId rating count) :=
  ⟨rfl, ⟨_, rerated_setRating barberId rating count, rfl⟩, List.prefix_refl _,
    List.prefix_refl _⟩

theorem noted_addReview (review : Review) (s : Database) :
    s.Noted (s.addReview review) :=
  noted_of_eq rfl (List.prefix_append _ _) (List.prefix_refl _)

theorem noted_addReminder (key : ReminderKey) (s : Database) :
    s.Noted (s.addReminder key) :=
  noted_of_eq rfl (List.prefix_refl _) (List.prefix_append _ _)

theorem noted_lockBarberForUpdate (barberId : Uuid) :
    (lockBarberForUpdate barberId).Writes Noted :=
  (writes_lock _).bind fun _ => ((readOnly_query _).bind fun _ =>
    readOnly_foundOr _ _).writes

theorem noted_recomputeBarberRating (barberId : Uuid) :
    (recomputeBarberRating barberId).Writes Noted :=
  (noted_lockBarberForUpdate barberId).bind fun _ =>
    (readOnly_query _).writes.bind fun _ =>
      writes_modify (noted_setRating _ _ _)

theorem noted_loadReview (reviewId : Uuid) :
    (loadReview reviewId).Writes Noted := by
  apply (readOnly_query _).writes.bind
  intro row
  apply (readOnly_foundOr _ _).writes.bind
  intro review
  apply (readOnly_query _).writes.bind
  intro author
  apply (readOnly_foundOr _ _).writes.bind
  intro customer
  trivial

theorem noted_createReview (user : User) (appointmentId : Uuid)
    (payload : ReviewCreate) (reviewId : Uuid) (createdAt : ℤ) :
    (createReview user appointmentId payload reviewId createdAt).Writes
      Noted := by
  apply (readOnly_query _).writes.bind
  intro row
  apply (readOnly_foundOr _ _).writes.bind
  intro appointment
  apply (writes_ensure _ _).bind
  intro _
  apply (writes_ensure _ _).bind
  intro _
  apply (noted_lockBarberForUpdate _).bind
  intro barber
  apply (writes_insertRow (noted_addReview _)).bind
  intro inserted
  cases inserted with
  | true =>
      apply (noted_recomputeBarberRating _).bind
      intro _
      exact Writes.bind (p := commitPending) trivial fun _ =>
        noted_loadReview _
  | false => trivial

theorem noted_recomputeAll (barberIds : List Uuid) (repaired : ℕ) :
    (recomputeAll barberIds repaired).Writes Noted := by
  induction barberIds generalizing repaired with
  | nil => trivial
  | cons barberId barberIds ih =>
      refine Writes.bind (p := recomputeOne barberId) ?_
        fun changed => ih _
      apply (noted_lockBarberForUpdate _).bind
      intro barber
      apply (readOnly_query _).writes.bind
      rintro ⟨average, count⟩
      exact (writes_modify (noted_setRating _ _ _)).bind fun _ => trivial

theorem noted_ratingWork (work : RatingWork) :
    work.transaction.Writes Noted := by
  cases work with
  | review user appointmentId payload reviewId createdAt =>
      exact (noted_createReview _ _ _ _ _).bind fun _ => trivial
  | recompute =>
      refine Writes.bind (p := recomputeBarberRatings) ?_
        fun _ => trivial
      apply (readOnly_query _).writes.bind
      intro barberIds
      apply (noted_recomputeAll _ _).bind
      intro repaired
      trivial

/-! ## Reminders -/

theorem noted_remindAll (related : Related) (kind : ReminderKind)
    (due : List Appointment) (queued : ℕ) :
    (remindAll env related kind due queued).Writes Noted := by
  induction due generalizing queued with
  | nil => trivial
  | cons a due ih =>
      apply (writes_insertRow (noted_addReminder (a.id, kind))).bind
      intro claimed
      cases claimed with
      | true =>
          cases hmail : reminderMail env related kind a with
          | ok mail => simpa [hmail, Writes] using ih (queued + 1)
          | error e => simp [Writes]
      | false => exact ih queued

theorem noted_sendAppointmentReminders (moment : ℤ) :
    (sendAppointmentReminders env moment).Writes Noted := by
  have heager : eager.ReadOnly :=
    (readOnly_query _).bind fun _ =>
      (readOnly_query _).bind fun _ =>
        (readOnly_query _).bind fun _ =>
          (readOnly_query _).bind fun _ =>
            (readOnly_query _).bind fun _ => trivial
  have hkind : ∀ kind queued, (remindKind env moment kind queued).Writes
      Noted := by
    intro kind queued
    refine Writes.bind (p := done _) trivial fun target => ?_
    refine Writes.bind (p := done _) trivial fun stop => ?_
    apply (readOnly_query _).writes.bind
    intro due
    apply heager.writes.bind
    intro related
    exact noted_remindAll _ _ _ _
  apply (hkind _ _).bind
  intro queued
  apply (hkind _ _).bind
  intro queued
  trivial

end BarberHub
