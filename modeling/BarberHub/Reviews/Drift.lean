import Mathlib.Algebra.Order.BigOperators.Group.List
import BarberHub.Reviews.Ratings
import BarberHub.Support.LockedPools

/-!
# The stored rating never drifts

Whatever the order in which requests to review and nightly recomputations take
locks, insert, roll back and commit, `barbers.rating` and
`barbers.reviews_count` are those of the committed reviews: a transaction that
inserts a review holds the barber's row, so nobody adds a review of the barber
between its aggregate and its commit.
-/

namespace BarberHub

open KeyedTable Rounding LockedTransactions Transaction Discipline

/-! ## What the columns say -/

/-- The mean in hundredths, rounded half up; 0 of no ratings. -/
def roundedMean (ratings : List ℤ) : ℤ :=
  if ratings = [] then 0
  else ⌊100 * ((ratings.sum : ℚ) / ratings.length) + 1 / 2⌋

/-- The hundredths within a half of the mean, above it for a tie. -/
theorem roundedMean_eq_iff {ratings : List ℤ} {n : ℤ} (hsome : ratings ≠ []) :
    roundedMean ratings = n ↔
      (n : ℚ) - 1 / 2 ≤ 100 * ((ratings.sum : ℚ) / ratings.length) ∧
        100 * ((ratings.sum : ℚ) / ratings.length) < n + 1 / 2 := by
  rw [roundedMean, if_neg hsome, floor_add_half_eq_iff]

namespace Database

/-- The denormalized columns of every barber agree with his reviews. -/
def RatingsExact (db : Database) : Prop :=
  ∀ barber ∈ db.barbers,
    barber.reviewsCount = (db.ratingsOf barber.id).length ∧
      barber.rating = roundedMean (db.ratingsOf barber.id)

instance (db : Database) : Decidable db.RatingsExact :=
  inferInstanceAs (Decidable (∀ barber ∈ _, _ ∧ _))

variable {db : Database} {barberId : Uuid} {review : Review}

theorem mem_ratingsOf {rating : ℤ} :
    rating ∈ db.ratingsOf barberId ↔
      ∃ r ∈ db.reviews, r.barberId = barberId ∧ r.rating = rating := by
  simp [ratingsOf, and_assoc]

@[simp] theorem ratingsOf_setRating (b : Uuid) (rating : ℤ) (count : ℕ) :
    (setRating b rating count db).ratingsOf barberId = db.ratingsOf barberId :=
  rfl

theorem ratingsOf_addReview_of_ne (h : review.barberId ≠ barberId) :
    (addReview review db).ratingsOf barberId = db.ratingsOf barberId := by
  simp [ratingsOf, addReview, h]

theorem ratingsOf_addReview :
    (addReview review db).ratingsOf review.barberId =
      db.ratingsOf review.barberId ++ [review.rating] := by
  simp [ratingsOf, addReview]

/-- The mean of reviews is a number from 1 to 5. -/
theorem mean_bounds
    (hchecked : ∀ r ∈ db.reviews, r.Checked)
    (hsome : db.ratingsOf barberId ≠ []) :
    (1 : ℚ) ≤ (db.ratingsOf barberId).sum / (db.ratingsOf barberId).length ∧
      ((db.ratingsOf barberId).sum : ℚ) / (db.ratingsOf barberId).length ≤ 5 := by
  have hrange : ∀ rating ∈ db.ratingsOf barberId, 1 ≤ rating ∧ rating ≤ 5 := by
    intro rating hrating
    obtain ⟨r, hr, -, rfl⟩ := mem_ratingsOf.mp hrating
    exact hchecked r hr
  have hlow := List.card_nsmul_le_sum (db.ratingsOf barberId) 1
    fun rating hrating => (hrange rating hrating).1
  have hhigh := List.sum_le_card_nsmul (db.ratingsOf barberId) 5
    fun rating hrating => (hrange rating hrating).2
  rw [nsmul_eq_mul] at hlow hhigh
  have hlow' : ((db.ratingsOf barberId).length : ℚ) * 1 ≤
      (db.ratingsOf barberId).sum := by exact_mod_cast hlow
  have hhigh' : ((db.ratingsOf barberId).sum : ℚ) ≤
      (db.ratingsOf barberId).length * 5 := by exact_mod_cast hhigh
  have hpos : (0 : ℚ) < (db.ratingsOf barberId).length := by
    exact_mod_cast List.length_pos_iff.mpr hsome
  constructor
  · rw [le_div_iff₀ hpos]
    linarith
  · rw [div_le_iff₀ hpos]
    linarith

/-- What the transactions compute is the rounded mean: it is positive. -/
theorem quantizedRating_eq
    (hchecked : ∀ r ∈ db.reviews, r.Checked) (barberId : Uuid) :
    quantizedRating (db.averageAndCount barberId).1
      (db.averageAndCount barberId).2 = roundedMean (db.ratingsOf barberId) := by
  by_cases hnone : db.ratingsOf barberId = []
  · simp [quantizedRating, averageAndCount, roundedMean, hnone]
  · have hmean : (0 : ℚ) ≤ 100 *
        (((db.ratingsOf barberId).sum : ℚ) / (db.ratingsOf barberId).length) := by
      have hlow := (mean_bounds hchecked hnone).1
      linarith
    have hlength : (db.ratingsOf barberId).length ≠ 0 := by
      simpa using hnone
    simp only [quantizedRating, averageAndCount, roundedMean, hnone, hlength,
      if_false, Option.getD_some, halfUp_of_nonneg hmean]

/-- The columns are in the ranges their CHECK constraints allow, so that no
assignment of them is refused. -/
theorem RatingsExact.checked
    (h : db.RatingsExact) (hchecked : ∀ r ∈ db.reviews, r.Checked)
    {barber : Barber} (hbarber : barber ∈ db.barbers) :
    0 ≤ barber.rating ∧ barber.rating ≤ 500 ∧ 0 ≤ barber.reviewsCount := by
  obtain ⟨hcount, hrating⟩ := h barber hbarber
  have hlength : 0 ≤ barber.reviewsCount := by
    rw [hcount]
    exact Int.natCast_nonneg _
  by_cases hnone : db.ratingsOf barber.id = []
  · rw [roundedMean, if_pos hnone] at hrating
    exact ⟨by omega, by omega, hlength⟩
  · obtain ⟨hlow, hhigh⟩ := mean_bounds hchecked hnone
    obtain ⟨hbelow, habove⟩ := (roundedMean_eq_iff hnone).mp hrating.symm
    have hfirst : (-1 : ℚ) < barber.rating := by linarith
    have hlast : (barber.rating : ℚ) < 501 := by linarith
    have hfirst' : -1 < barber.rating := by exact_mod_cast hfirst
    have hlast' : barber.rating < 501 := by exact_mod_cast hlast
    exact ⟨by omega, by omega, hlength⟩

/-- Assigning the values they already have. -/
theorem RatingsExact.setRating_eq (h : db.RatingsExact) (barberId : Uuid) :
    setRating barberId (roundedMean (db.ratingsOf barberId))
      (db.ratingsOf barberId).length db = db := by
  have hsame : updateAt Barber.id barberId (fun b =>
      { b with
        rating := roundedMean (db.ratingsOf barberId)
        reviewsCount := (db.ratingsOf barberId).length }) db.barbers =
        db.barbers := by
    rw [updateAt]
    refine (List.map_congr_left ?_).trans (List.map_id _)
    intro b hb
    split
    next hid =>
      obtain ⟨hcount, hrating⟩ := h b hb
      rw [hid] at hcount hrating
      rw [← hcount, ← hrating]
      rfl
    · rfl
  rw [setRating, hsame]

/-- A review of a barber, with the columns recomputed. -/
theorem RatingsExact.addReview
    (h : db.RatingsExact) (review : Review) :
    (setRating review.barberId
      (roundedMean ((addReview review db).ratingsOf review.barberId))
      ((addReview review db).ratingsOf review.barberId).length
      (addReview review db)).RatingsExact := by
  intro barber hbarber
  rw [ratingsOf_setRating]
  rcases mem_updateAt.mp hbarber with ⟨hold, hne⟩ | ⟨old, hold, hid, rfl⟩
  · rw [ratingsOf_addReview_of_ne (Ne.symm hne)]
    exact h barber hold
  · rw [hid]
    exact ⟨rfl, rfl⟩

end Database

/-! ## What the locks protect -/

/-- The columns are exact, every review has a rating in range, and no
appointment has two. -/
structure RatingInvariant (db : Database) : Prop where
  exact : db.RatingsExact
  checked : ∀ r ∈ db.reviews, r.Checked
  once : UniqueKeys Review.appointmentId db.reviews

/-- The lock of a barber protects the reviews of the barber, and a review that
is not committed yet keeps others from reviewing the appointment. -/
def RatingLock.Same : RatingLock → Database → Database → Prop
  | .barber id, db, db' => db'.ratingsOf id = db.ratingsOf id
  | .reviewOf appointmentId, db, db' =>
      (∃ r ∈ db'.reviews, r.appointmentId = appointmentId) ↔
        ∃ r ∈ db.reviews, r.appointmentId = appointmentId

/-- The lock discipline of reviews; no messages are sent. -/
def ratingDiscipline : Discipline Database RatingLock Empty where
  Inv := RatingInvariant
  Same := RatingLock.Same
  keyOf := nofun
  Settled _ _ := False
  same_refl k db := by
    cases k with
    | barber id => rfl
    | reviewOf appointmentId => exact Iff.rfl
  same_trans {k _ _ _} h h' := by
    cases k with
    | barber id => exact Eq.trans h' h
    | reviewOf appointmentId => exact Iff.trans h' h

section Locking

variable {α : Type} {post : Except Raised α → Standing Database RatingLock → Prop}
  {barberId : Uuid} {v : Standing Database RatingLock}

/-- After `lock_barber_for_update` the barber's key is held. -/
theorem guards_lockBarberForUpdate_bind
    {g : Barber → RatingTransaction α}
    (herror : ∀ e v', v'.sent = v.sent → post (.error e) v')
    (h : ∀ barber s, ratingDiscipline.Rely v.held v.committed s →
      (v.pending s).barber? barberId = some barber →
      Guards ratingDiscipline post (g barber)
        { v with held := insert (.barber barberId) v.held, committed := s }) :
    Guards ratingDiscipline post (lockBarberForUpdate barberId >>= g) v := by
  simp only [lockBarberForUpdate, bind_bind]
  refine guards_lock_bind ?_
  intro s hs
  refine guards_query_bind ?_
  intro t ht
  refine guards_foundOr_bind (fun u => herror _ _ rfl) ?_
  intro barber hbarber
  have hst : ratingDiscipline.Rely v.held s t :=
    ht.weaken (Set.subset_insert _ _)
  exact h barber t (hs.trans hst) hbarber

/-- After `recompute_barber_rating` the columns of the barber, whose key is
held, are pending. -/
theorem guards_recomputeBarberRating_bind
    {g : Unit → RatingTransaction α}
    (herror : ∀ e v', v'.sent = v.sent → post (.error e) v')
    (h : ∀ s, ratingDiscipline.Rely v.held v.committed s →
      Guards ratingDiscipline post (g ())
        { v with
          held := insert (.barber barberId) v.held
          pending := Database.setRating barberId
            (quantizedRating ((v.pending s).averageAndCount barberId).1
              ((v.pending s).averageAndCount barberId).2)
            ((v.pending s).averageAndCount barberId).2 ∘ v.pending
          committed := s }) :
    Guards ratingDiscipline post (recomputeBarberRating barberId >>= g) v := by
  simp only [recomputeBarberRating, bind_bind]
  apply guards_lockBarberForUpdate_bind herror
  intro barber s hs _
  apply guards_query_bind
  intro t ht
  have hst : ratingDiscipline.Rely v.held s t :=
    ht.weaken (Set.subset_insert _ _)
  exact h t (hs.trans hst)

end Locking

/-! ## A request to review -/

section Review

variable {db : Database} {review : Review}

/-- The commit of a review and of the columns recomputed after it. -/
theorem allows_review
    {held : Set RatingLock} {pending : Database → Database}
    (hinv : RatingInvariant db) (haccepted : review.Checked)
    (hnew : ∀ r ∈ db.reviews, r.appointmentId ≠ review.appointmentId)
    (hbarber : .barber review.barberId ∈ held)
    (hreview : .reviewOf review.appointmentId ∈ held)
    (hpending : pending db = Database.setRating review.barberId
      (roundedMean ((Database.addReview review db).ratingsOf review.barberId))
      ((Database.addReview review db).ratingsOf review.barberId).length
      (Database.addReview review db)) :
    ratingDiscipline.Allows held [] db (pending db) := by
  rw [hpending]
  refine ⟨⟨hinv.exact.addReview review, ?_, ?_⟩, ?_, fun _ h => h, by simp⟩
  · intro r hr
    rcases List.mem_append.mp hr with hr | hr
    · exact hinv.checked r hr
    · obtain rfl := List.mem_singleton.mp hr
      exact haccepted
  · exact hinv.once.append_singleton hnew
  · intro k hk
    cases k with
    | barber id =>
        apply Database.ratingsOf_addReview_of_ne
        rintro rfl
        exact hk hbarber
    | reviewOf appointmentId =>
        have hne : review.appointmentId ≠ appointmentId := by
          rintro rfl
          exact hk hreview
        change (∃ r ∈ db.reviews ++ [review], r.appointmentId = appointmentId) ↔
          ∃ r ∈ db.reviews, r.appointmentId = appointmentId
        simp [or_and_right, exists_or, hne]

theorem readOnly_loadReview (reviewId : Uuid) :
    (loadReview reviewId).ReadOnly :=
  (readOnly_query _).bind fun _ => (readOnly_foundOr _ _).bind fun _ =>
    (readOnly_query _).bind fun _ => (readOnly_foundOr _ _).bind fun _ => trivial

/-- Once its review is inserted, a request recomputes the columns and commits:
nobody else has added a review of the barber in between. -/
theorem guards_inserted
    {held : Set RatingLock} {s : Database} (haccepts : s.AcceptsReview review)
    (hbarber : .barber review.barberId ∈ held)
    (hreview : .reviewOf review.appointmentId ∈ held) :
    Guards ratingDiscipline (fun _ v => v.sent = [])
      (do
        recomputeBarberRating review.barberId
        commitPending
        loadReview review.id)
      ⟨held, [], Database.addReview review, s⟩ := by
  apply guards_recomputeBarberRating_bind (fun _ _ h => h)
  intro t hst u htu
  refine ⟨?_, guards_readOnly (readOnly_loadReview _) fun _ _ => rfl⟩
  have hsu : ratingDiscipline.Rely held s u :=
    hst.trans (htu.weaken (Set.subset_insert _ _))
  have hratings : u.ratingsOf review.barberId = t.ratingsOf review.barberId :=
    htu.2 (.barber review.barberId) (Set.mem_insert _ _)
  have hcheckedt : ∀ r ∈ (Database.addReview review t).reviews, r.Checked := by
    intro r hr
    rcases List.mem_append.mp hr with hr | hr
    · exact hst.1.checked r hr
    · obtain rfl := List.mem_singleton.mp hr
      exact haccepts.2.2.1
  refine allows_review hsu.1 haccepts.2.2.1 ?_ (Set.mem_insert_of_mem _ hbarber)
    (Set.mem_insert_of_mem _ hreview) ?_
  · intro r hr heq
    obtain ⟨old, hold, heq⟩ := (hsu.2 _ hreview).mp ⟨r, hr, heq⟩
    exact haccepts.2.1 old hold heq
  · have hsame : (Database.addReview review u).ratingsOf review.barberId =
        (Database.addReview review t).ratingsOf review.barberId := by
      rw [Database.ratingsOf_addReview, Database.ratingsOf_addReview, hratings]
    rw [hsame, ← Database.quantizedRating_eq hcheckedt review.barberId]
    rfl

/-- A request to review keeps to the discipline. -/
theorem guards_createReview
    {db : Database} (user : User) (appointmentId : Uuid)
    (payload : ReviewCreate) (reviewId : Uuid) (createdAt : ℤ) :
    Guards ratingDiscipline (fun _ v => v.sent = [])
      (createReview user appointmentId payload reviewId createdAt)
      (.idle db) := by
  rw [createReview]
  refine guards_query_bind ?_
  intro s _
  refine guards_foundOr_bind (fun _ => rfl) ?_
  intro appointment _
  refine guards_ensure_bind (fun _ => rfl) ?_
  intro _
  refine guards_ensure_bind (fun _ => rfl) ?_
  intro _
  refine guards_lockBarberForUpdate_bind (fun _ _ h => h) ?_
  intro _ t _ _
  refine guards_insertRow_bind (fun u _ _ _ _ => rfl) ?_
  intro u _ htaken
  have haccepts := of_not_not (of_decide_eq_false htaken)
  exact guards_inserted haccepts (Set.mem_insert_of_mem _ (Set.mem_insert _ _))
    (Set.mem_insert _ _)

end Review

/-! ## The nightly task -/

section Recompute

variable {v : Standing Database RatingLock}

/-- The pending writes assign what the columns hold anyway, whatever others
commit. -/
def Harmless (v : Standing Database RatingLock) : Prop :=
  v.sent = [] ∧
    ∀ s, ratingDiscipline.Rely v.held v.committed s → v.pending s = s

/-- A barber's columns are exact, so recomputing them changes nothing. -/
theorem guards_recomputeOne
    (barberId : Uuid) (hv : Harmless v) :
    Guards ratingDiscipline
      (fun r v' => v'.sent = [] ∧
        ∀ changed, r = .ok changed → changed = false ∧ Harmless v')
      (recomputeOne barberId) v := by
  rw [recomputeOne]
  refine guards_lockBarberForUpdate_bind
    (fun e v' hsent => ⟨hsent.trans hv.1, fun _ h => by simp at h⟩)
    fun barber s hs hbarber => ?_
  rw [hv.2 s hs] at hbarber
  apply guards_query_bind
  intro t ht
  have hst : ratingDiscipline.Rely v.held v.committed t :=
    hs.trans (ht.weaken (Set.subset_insert _ _))
  have hratings : t.ratingsOf barberId = s.ratingsOf barberId :=
    ht.2 (.barber barberId) (Set.mem_insert _ _)
  have hquantized := Database.quantizedRating_eq ht.1.checked barberId
  obtain ⟨hcount, hrating⟩ := hs.1.exact barber (mem_of_lookup hbarber)
  rw [key_of_lookup hbarber, ← hratings] at hcount hrating
  dsimp only
  rw [hv.2 t hst, hquantized]
  intro u hu
  refine ⟨hv.1, ?_⟩
  intro changed hchanged
  obtain rfl := Except.ok.inj hchanged
  refine ⟨?_, hv.1, ?_⟩
  · simp [hrating, hcount, Database.averageAndCount]
  · intro w hw
    have htw : ratingDiscipline.Rely
        (insert (RatingLock.barber barberId) v.held) t w := hu.trans hw
    have hsame : w.ratingsOf barberId = t.ratingsOf barberId :=
      htw.2 (.barber barberId) (Set.mem_insert _ _)
    have hpending : v.pending w = w :=
      hv.2 w (hst.trans (htw.weaken (Set.subset_insert _ _)))
    change Database.setRating barberId _ _ (v.pending w) = w
    rw [hpending, ← hsame]
    have hexact := hw.1.exact.setRating_eq barberId
    rw [hsame] at hexact ⊢
    exact hexact

theorem guards_recomputeAll
    (barberIds : List Uuid) (repaired : ℕ) (hinv : RatingInvariant v.committed)
    (hv : Harmless v) :
    Guards ratingDiscipline
      (fun r v' => v'.sent = [] ∧
        ∀ n, r = .ok n → n = repaired ∧ Harmless v')
      (recomputeAll barberIds repaired) v := by
  induction barberIds generalizing v with
  | nil =>
      intro s hs
      refine ⟨hv.1, ?_⟩
      intro n hn
      obtain rfl := Except.ok.inj hn
      exact ⟨rfl, hv.1, fun t ht => hv.2 t (hs.trans ht)⟩
  | cons barberId barberIds ih =>
      rw [recomputeAll]
      refine Guards.bind hinv ((guards_recomputeOne barberId hv).mono ?_)
      intro r v' hinv' h
      cases r with
      | error e => exact ⟨h.1, fun _ hn => by simp at hn⟩
      | ok changed =>
          obtain ⟨rfl, hv'⟩ := h.2 changed rfl
          exact ih hinv' hv'

/-- The task commits nothing new, and has nothing to repair. -/
theorem guards_recomputeBarberRatings {db : Database} :
    Guards ratingDiscipline
      (fun r v' => v'.sent = [] ∧ ∀ n, r = .ok n → n = 0)
      recomputeBarberRatings (.idle db) := by
  rw [recomputeBarberRatings]
  apply guards_query_bind
  intro s hs
  have hidle : Harmless (.idle s) := ⟨rfl, fun _ _ => rfl⟩
  have hall := guards_recomputeAll (s.barbers.map Barber.id) 0
    (v := .idle s) hs.1 hidle
  refine Guards.bind hs.1 (hall.mono ?_)
  intro r v' _ h
  cases r with
  | error e => exact ⟨h.1, fun _ hn => by simp at hn⟩
  | ok repaired =>
      obtain ⟨rfl, hsent, hpending⟩ := h.2 repaired rfl
      intro t ht
      rw [hpending t ht, hsent]
      refine ⟨.rfl ht.1, fun u _ => ⟨rfl, fun n hn => ?_⟩⟩
      exact (Except.ok.inj hn).symm

/-! ### Executed alone -/

variable {db : Database}

theorem runFrom_lockBarberForUpdate
    {barberId : Uuid} {row : Barber} (h : db.barber? barberId = some row) :
    (lockBarberForUpdate barberId).runFrom db db = ⟨.ok row, db, db, []⟩ := by
  rw [lockBarberForUpdate, lock_bind, runFrom_acquire, query_bind,
    runFrom_read, h]
  rfl

theorem runFrom_recomputeOne
    (hinv : RatingInvariant db) {barber : Barber} (hbarber : barber ∈ db.barbers) :
    (recomputeOne barber.id).runFrom db db = ⟨.ok false, db, db, []⟩ := by
  obtain ⟨row, hrow⟩ : ∃ row, db.barber? barber.id = some row := by
    cases h : db.barber? barber.id with
    | some row => exact ⟨row, rfl⟩
    | none => exact absurd rfl (lookup_eq_none_iff.mp h barber hbarber)
  obtain ⟨hcount, hrating⟩ := hinv.exact row (mem_of_lookup hrow)
  rw [key_of_lookup hrow] at hcount hrating
  have hquantized := Database.quantizedRating_eq hinv.checked barber.id
  have hsame := hinv.exact.setRating_eq barber.id
  rw [recomputeOne, runFrom_bind_of_ok (runFrom_lockBarberForUpdate hrow)]
  simp only [query_bind, modify_bind, runFrom_read, runFrom_write, hquantized]
  change Transaction.runFrom _ db (Database.setRating barber.id
    (roundedMean (db.ratingsOf barber.id)) (db.ratingsOf barber.id).length db) = _
  rw [hsame]
  simp [hrating, hcount, Database.averageAndCount]

theorem runFrom_recomputeAll
    (hinv : RatingInvariant db) {barbers : List Barber}
    (hbarbers : ∀ barber ∈ barbers, barber ∈ db.barbers) (repaired : ℕ) :
    (recomputeAll (barbers.map Barber.id) repaired).runFrom db db =
      ⟨.ok repaired, db, db, []⟩ := by
  induction barbers with
  | nil => rfl
  | cons barber barbers ih =>
      have hone := runFrom_recomputeOne hinv
        (hbarbers barber List.mem_cons_self)
      have hrest := ih fun b hb => hbarbers b (List.mem_cons_of_mem _ hb)
      rw [List.map_cons, recomputeAll, runFrom_bind_of_ok hone]
      simp [hrest]

/-- From exact columns the task changes nothing and answers 0. -/
theorem run_recomputeBarberRatings (hinv : RatingInvariant db) :
    recomputeBarberRatings.run db = ⟨.ok 0, db, db, []⟩ := by
  rw [run, recomputeBarberRatings, query_bind, runFrom_read,
    runFrom_bind_of_ok (runFrom_recomputeAll hinv (fun _ h => h) 0)]
  rfl

end Recompute

/-! ## Any number of both -/

/-- A request to review, or an execution of the nightly task. -/
inductive RatingWork where
  | review (user : User) (appointmentId : Uuid) (payload : ReviewCreate)
      (reviewId : Uuid) (createdAt : ℤ)
  | recompute

inductive RatingAnswer where
  | reviewed (review : ReviewRead)
  | repaired (count : ℕ)
  deriving DecidableEq, Repr

def RatingWork.transaction : RatingWork → RatingTransaction RatingAnswer
  | .review user appointmentId payload reviewId createdAt => do
      let review ← createReview user appointmentId payload reviewId createdAt
      pure (.reviewed review)
  | .recompute => do
      let count ← recomputeBarberRatings
      pure (.repaired count)

/-- A nightly task that answers has repaired nothing. -/
def NothingToRepair (r : Except Raised RatingAnswer) : Prop :=
  ∀ n, r = .ok (.repaired n) → n = 0

theorem guards_ratingWork
    {db : Database} (hinv : RatingInvariant db) (work : RatingWork) :
    Guards ratingDiscipline (Pool.Concludes NothingToRepair) work.transaction
      (.idle db) := by
  cases work with
  | review user appointmentId payload reviewId createdAt =>
      refine Guards.bind hinv ((guards_createReview user appointmentId payload
        reviewId createdAt).mono ?_)
      intro r v _ hsent
      cases r with
      | error e => exact ⟨fun _ h => by simp at h, fun _ _ => hsent⟩
      | ok review =>
          exact fun _ _ => ⟨fun _ h => by simp at h, fun _ _ => hsent⟩
  | recompute =>
      refine Guards.bind hinv (guards_recomputeBarberRatings.mono ?_)
      intro r v _ h
      cases r with
      | error e => exact ⟨fun _ h => by simp at h, fun _ _ => h.1⟩
      | ok count =>
          obtain rfl := h.2 count rfl
          exact fun _ _ => ⟨fun _ h => by simpa using h.symm, fun _ _ => h.1⟩

/-- In every committed state of every run, the columns of every barber are the
number and the rounded mean of his reviews; from each the nightly task, executed
alone, changes nothing and answers 0, as it does whenever it answers within the
run. -/
theorem ratings_never_drift
    {ι : Type} [DecidableEq ι] (work : ι → RatingWork) (db : Database)
    (hvalid : db.Valid) (hexact : db.RatingsExact) (moves : List (Move ι)) :
    let c := (Pool.start db fun i => (work i).transaction).exec moves
    c.committed.RatingsExact ∧
      recomputeBarberRatings.run c.committed =
        ⟨.ok 0, c.committed, c.committed, []⟩ ∧
      ∀ i n, (c.session i).rest = some (.done (.ok (.repaired n))) → n = 0 := by
  intro c
  have hinv : RatingInvariant db :=
    ⟨hexact, hvalid.checks.reviews, hvalid.reviews_unique⟩
  have hstart : (Pool.start db fun i => (work i).transaction).Keeps
      ratingDiscipline (fun _ r => NothingToRepair r) :=
    Pool.keeps_start hinv fun i => guards_ratingWork hinv (work i)
  have hkeeps : c.Keeps ratingDiscipline (fun _ r => NothingToRepair r) :=
    hstart.exec moves
  exact ⟨hkeeps.inv.exact, run_recomputeBarberRatings hkeeps.inv,
    fun i n hr => hkeeps.answered hr n rfl⟩

/-! ## Two customers and the nightly task -/

namespace Sample

/-- Two finished haircuts that nobody has reviewed. -/
def finishedDb : Database :=
  { db with
    appointments := [
      booking 40 (clock 9 0) (clock 9 30) .completed,
      booking 41 (clock 10 0) (clock 10 30) .completed] }

theorem finishedDb_valid : finishedDb.Valid := by
  decide +kernel

/-- Both haircuts are reviewed, the second one twice, and the nightly task is
executed. -/
def ratingWork : Fin 4 → RatingWork
  | 0 => .review customer 40 ⟨5, none, by decide, nofun⟩ 70 (clock 18 0)
  | 1 => .review customer 41 ⟨4, none, by decide, nofun⟩ 71 (clock 18 0)
  | 2 => .review customer 41 ⟨1, none, by decide, nofun⟩ 72 (clock 18 0)
  | 3 => .recompute

/-- The requests take turns; the third is killed and the task comes last. -/
def ratingMoves : List (Move (Fin 4)) :=
  (List.range 24).flatMap (fun _ => [.step 0, .step 1, .step 3]) ++
    [.step 2, .step 2, .step 2, .abort 2] ++ List.replicate 8 (.step 3)

end Sample

theorem ratings_never_drift_two_customers :
    let c := (Pool.start Sample.finishedDb
      fun i => (Sample.ratingWork i).transaction).exec Sample.ratingMoves
    c.committed.RatingsExact ∧
      recomputeBarberRatings.run c.committed =
        ⟨.ok 0, c.committed, c.committed, []⟩ ∧
      ∀ i n, (c.session i).rest = some (.done (.ok (.repaired n))) → n = 0 :=
  ratings_never_drift Sample.ratingWork Sample.finishedDb
    Sample.finishedDb_valid (by decide) Sample.ratingMoves

example : (((Pool.start Sample.finishedDb
    fun i => (Sample.ratingWork i).transaction).exec
      Sample.ratingMoves).committed.barbers.map
        fun b => (b.rating, b.reviewsCount)) = [(450, 2)] := by
  decide +kernel

end BarberHub
