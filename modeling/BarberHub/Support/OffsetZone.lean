import Mathlib.Data.List.Basic

/-!
# Time zones as sequences of offset changes

A zone is the offset in force before its first change and the list of its
changes, each an instant and the offset in force from then on.  An offset is
what the zone's clock shows ahead of the reference clock.  Instants and wall
clock readings are integers in one unit of time.

Reading the clock at an instant is a function; the converse is not.  Wall
clock readings that a forward change skips, or that a backward change repeats,
are resolved by the `fold = 0` rule: the offset in force before the change is
used.  A span of readings that is converted at its two ends is therefore read
back as meant, unless it ends among skipped readings, or begins among repeated
ones and outlasts them.
-/

namespace OffsetZone

/-- A zone given by any sequence of offset changes. -/
structure Zone where
  key : String
  initial : Int
  changes : List (Int × Int)
  sorted : changes.Pairwise fun a b => a.1 < b.1

/-- The offset in force at an instant: that of the last change not after it. -/
def offsetFrom (before : Int) : List (Int × Int) → Int → Int
  | [], _ => before
  | (change, after) :: later, x =>
      if x < change then before else offsetFrom after later x

/-- The offset the `fold = 0` rule gives to a wall clock reading.  A change
takes effect on the wall at the later of the two readings of its instant: the
end of the skipped readings, or the end of the first pass over the repeated
ones. -/
def foldZeroFrom (before : Int) : List (Int × Int) → Int → Int
  | [], _ => before
  | (change, after) :: later, w =>
      if w < change + max before after then before
      else foldZeroFrom after later w

namespace Zone

/-- Offset in force at an instant. -/
def utcoffset (z : Zone) (x : Int) : Int :=
  offsetFrom z.initial z.changes x

/-- Offset used to turn a wall clock reading into an instant. -/
def wallOffset (z : Zone) (w : Int) : Int :=
  foldZeroFrom z.initial z.changes w

/-- What the zone's clock shows at an instant. -/
def toWall (z : Zone) (x : Int) : Int :=
  x + z.utcoffset x

/-- The instant meant by a wall clock reading. -/
def toInstant (z : Zone) (w : Int) : Int :=
  w - z.wallOffset w

/-- The zone whose clock is never changed. -/
def fixed (key : String) (offset : Int) : Zone where
  key := key
  initial := offset
  changes := []
  sorted := List.Pairwise.nil

@[simp] theorem toWall_fixed (key : String) (offset x : Int) :
    (fixed key offset).toWall x = x + offset := rfl

@[simp] theorem toInstant_fixed (key : String) (offset w : Int) :
    (fixed key offset).toInstant w = w - offset := rfl

/-- An offset below a bound, either way. -/
def Below (bound offset : Int) : Prop :=
  -bound < offset ∧ offset < bound

/-- Every offset of the zone is below the bound. -/
def OffsetsBelow (z : Zone) (bound : Int) : Prop :=
  Below bound z.initial ∧ ∀ c ∈ z.changes, Below bound c.2

theorem OffsetsBelow.utcoffset {z : Zone} {bound : Int} (h : z.OffsetsBelow bound)
    (x : Int) : Below bound (z.utcoffset x) := by
  obtain ⟨hinitial, hchanges⟩ := h
  rw [Zone.utcoffset]
  generalize z.initial = before at hinitial ⊢
  generalize z.changes = changes at hchanges ⊢
  induction changes generalizing before with
  | nil => exact hinitial
  | cons c later ih =>
      rw [offsetFrom]
      split
      · exact hinitial
      · exact ih c.2 (hchanges c List.mem_cons_self) fun c' hc' =>
          hchanges c' (List.mem_cons_of_mem c hc')

theorem OffsetsBelow.wallOffset {z : Zone} {bound : Int} (h : z.OffsetsBelow bound)
    (w : Int) : Below bound (z.wallOffset w) := by
  obtain ⟨hinitial, hchanges⟩ := h
  rw [Zone.wallOffset]
  generalize z.initial = before at hinitial ⊢
  generalize z.changes = changes at hchanges ⊢
  induction changes generalizing before with
  | nil => exact hinitial
  | cons c later ih =>
      rw [foldZeroFrom]
      split
      · exact hinitial
      · exact ih c.2 (hchanges c List.mem_cons_self) fun c' hc' =>
          hchanges c' (List.mem_cons_of_mem c hc')

end Zone

/-! ## The jumps of the clock -/

/-- A change of the offset makes the clock jump, from one reading to another. -/
structure Jump where
  instant : Int
  before : Int
  after : Int
  deriving DecidableEq, Repr

namespace Jump

/-- The clock jumps forward over the reading. -/
def Skips (j : Jump) (w : Int) : Prop :=
  j.instant + j.before < w ∧ w < j.instant + j.after

/-- The clock jumps back over the reading, and shows it again. -/
def Repeats (j : Jump) (w : Int) : Prop :=
  j.instant + j.after < w ∧ w < j.instant + j.before

/-- The span `[s, e)` of readings ends among skipped ones, or begins among
repeated ones and outlasts them. -/
def Distorts (j : Jump) (s e : Int) : Prop :=
  j.Skips e ∨ j.Repeats s ∧ j.instant + j.before ≤ e

instance (j : Jump) (s e : Int) : Decidable (j.Distorts s e) :=
  inferInstanceAs (Decidable ((_ ∧ _) ∨ (_ ∧ _) ∧ _))

/-- The readings between which the clock jumps. -/
def low (j : Jump) : Int := j.instant + min j.before j.after

def high (j : Jump) : Int := j.instant + max j.before j.after

end Jump

/-- The jumps of a list of changes. -/
def jumpsFrom (before : Int) : List (Int × Int) → List Jump
  | [] => []
  | (change, after) :: later => ⟨change, before, after⟩ :: jumpsFrom after later

/-- The jumps of the zone's clock. -/
def Zone.jumps (z : Zone) : List Jump :=
  jumpsFrom z.initial z.changes

/-- The clock is past the readings of a jump when the next one comes. -/
def Zone.InOrder (z : Zone) : Prop :=
  z.jumps.Pairwise fun j k => j.high ≤ k.low

instance (z : Zone) : Decidable z.InOrder :=
  inferInstanceAs (Decidable (List.Pairwise _ _))

section

variable {changes : List (Int × Int)} {before w x : Int} {j : Jump}

theorem exists_change_of_mem_jumpsFrom (h : j ∈ jumpsFrom before changes) :
    ∃ c ∈ changes, c.1 = j.instant := by
  induction changes generalizing before with
  | nil => simp [jumpsFrom] at h
  | cons c later ih =>
      rcases List.mem_cons.mp h with rfl | h
      · exact ⟨c, List.mem_cons_self, rfl⟩
      · obtain ⟨c', hc', hinstant⟩ := ih h
        exact ⟨c', List.mem_cons_of_mem c hc', hinstant⟩

/-- A reading that the clock shows at `start` or later, before any change, is
converted to an instant not before `start`. -/
theorem le_of_le_wall {start : Int}
    (hchanges : ∀ c ∈ changes, start ≤ c.1) (hw : start + before ≤ w) :
    start ≤ w - foldZeroFrom before changes w := by
  induction changes generalizing start before with
  | nil => exact Int.le_sub_right_of_add_le hw
  | cons c later ih =>
      have hstart := hchanges c List.mem_cons_self
      rw [foldZeroFrom]
      split
      · omega
      next hpast =>
        exact ih (fun c' hc' => hchanges c' (List.mem_cons_of_mem c hc'))
          (by omega)

/-- An instant before that of `w` at which the clock shows `w` or more comes
after a jump that skips `w`. -/
theorem exists_skips
    (hx : x < w - foldZeroFrom before changes w)
    (hwall : w ≤ x + offsetFrom before changes x) :
    ∃ j ∈ jumpsFrom before changes, j.Skips w := by
  induction changes generalizing before with
  | nil =>
      rw [foldZeroFrom] at hx
      rw [offsetFrom] at hwall
      omega
  | cons c later ih =>
      rw [foldZeroFrom] at hx
      rw [offsetFrom] at hwall
      by_cases hpast : w < c.1 + max before c.2
      · rw [if_pos hpast] at hx
        split at hwall
        · omega
        · refine ⟨_, List.mem_cons_self, ?_⟩
          rw [Jump.Skips]
          dsimp only
          omega
      · rw [if_neg hpast] at hx
        split at hwall
        · omega
        · obtain ⟨j, hj, hskips⟩ := ih hx hwall
          exact ⟨j, List.mem_cons_of_mem _ hj, hskips⟩

/-- The clock shows less than `w` at an instant after `start`: it did at `start`,
or a jump since has repeated `w`. -/
theorem repeats_or_lt {start : Int} (hstart : start ≤ x)
    (hsorted : changes.Pairwise fun a b => a.1 < b.1)
    (hlater : ∀ c ∈ changes, start < c.1)
    (hwall : x + offsetFrom before changes x < w) :
    (∃ j ∈ jumpsFrom before changes, j.Repeats w ∧ j.instant ≤ x) ∨
      start + before < w := by
  induction changes generalizing start before with
  | nil =>
      rw [offsetFrom] at hwall
      omega
  | cons c later ih =>
      have hc := hlater c List.mem_cons_self
      obtain ⟨hnext, hsorted⟩ := List.pairwise_cons.mp hsorted
      rw [offsetFrom] at hwall
      split at hwall
      · omega
      next hpast =>
        rcases ih (Int.not_lt.mp hpast) hsorted hnext hwall with
          ⟨j, hj, hrepeats⟩ | hlt
        · exact Or.inl ⟨j, List.mem_cons_of_mem _ hj, hrepeats⟩
        · by_cases hreached : w < c.1 + before
          · exact Or.inl ⟨_, List.mem_cons_self, ⟨hlt, hreached⟩, by
              exact Int.not_lt.mp hpast⟩
          · omega

/-- An instant not before that of `w` at which the clock shows less than `w`
comes after a jump that repeats `w`. -/
theorem exists_repeats
    (hsorted : changes.Pairwise fun a b => a.1 < b.1)
    (hx : w - foldZeroFrom before changes w ≤ x)
    (hwall : x + offsetFrom before changes x < w) :
    ∃ j ∈ jumpsFrom before changes, j.Repeats w ∧ j.instant ≤ x := by
  induction changes generalizing before with
  | nil =>
      rw [foldZeroFrom] at hx
      rw [offsetFrom] at hwall
      omega
  | cons c later ih =>
      obtain ⟨hnext, hsorted⟩ := List.pairwise_cons.mp hsorted
      rw [foldZeroFrom] at hx
      rw [offsetFrom] at hwall
      by_cases hbefore : x < c.1
      · rw [if_pos hbefore] at hwall
        split at hx
        · omega
        · have hle : c.1 ≤ w - foldZeroFrom c.2 later w :=
            le_of_le_wall (fun c' hc' => Int.le_of_lt (hnext c' hc'))
              (by omega)
          omega
      rw [if_neg hbefore] at hwall
      by_cases hpast : w < c.1 + max before c.2
      · rcases repeats_or_lt (Int.not_lt.mp hbefore) hsorted hnext hwall with
          ⟨j, hj, hrepeats⟩ | hlt
        · exact ⟨j, List.mem_cons_of_mem _ hj, hrepeats⟩
        · refine ⟨_, List.mem_cons_self, ⟨hlt, ?_⟩, Int.not_lt.mp hbefore⟩
          dsimp only
          omega
      · rw [if_neg hpast] at hx
        obtain ⟨j, hj, hrepeats⟩ := ih hsorted hx hwall
        exact ⟨j, List.mem_cons_of_mem _ hj, hrepeats⟩

/-- A reading that the clock showed before a jump is converted to an instant
before it, unless some jump skips the reading. -/
theorem skips_of_jump_lt
    (hsorted : changes.Pairwise fun a b => a.1 < b.1)
    (hj : j ∈ jumpsFrom before changes) (hw : w < j.instant + j.before)
    (hinstant : j.instant < w - foldZeroFrom before changes w) :
    ∃ k ∈ jumpsFrom before changes, k.Skips w := by
  induction changes generalizing before with
  | nil => simp [jumpsFrom] at hj
  | cons c later ih =>
      obtain ⟨hnext, hsorted⟩ := List.pairwise_cons.mp hsorted
      have hfirst : c.1 ≤ j.instant := by
        rcases List.mem_cons.mp hj with rfl | hj
        · exact Int.le_refl _
        · obtain ⟨c', hc', hinstant⟩ := exists_change_of_mem_jumpsFrom hj
          exact hinstant ▸ Int.le_of_lt (hnext c' hc')
      rw [foldZeroFrom] at hinstant
      split at hinstant
      next hpast =>
        refine ⟨_, List.mem_cons_self, ?_⟩
        rw [Jump.Skips]
        dsimp only
        omega
      next hpast =>
        rcases List.mem_cons.mp hj with rfl | hj
        · dsimp only at hw
          omega
        · obtain ⟨k, hk, hskips⟩ := ih hsorted hj hinstant
          exact ⟨k, List.mem_cons_of_mem _ hk, hskips⟩

end

/-- Between the instants meant by two readings the clock shows a time between
them, unless a jump distorts the span. -/
theorem Zone.toWall_mem_or_distorts
    (z : Zone) {s e x : Int} (hs : z.toInstant s ≤ x) (he : x < z.toInstant e) :
    (s ≤ z.toWall x ∧ z.toWall x < e) ∨ ∃ j ∈ z.jumps, j.Distorts s e := by
  by_cases hforward : e ≤ z.toWall x
  · obtain ⟨j, hj, hskips⟩ := exists_skips he hforward
    exact Or.inr ⟨j, hj, Or.inl hskips⟩
  by_cases hback : z.toWall x < s
  · obtain ⟨j, hj, hrepeats, hinstant⟩ := exists_repeats z.sorted hs hback
    by_cases hend : j.instant + j.before ≤ e
    · exact Or.inr ⟨j, hj, Or.inr ⟨hrepeats, hend⟩⟩
    · obtain ⟨k, hk, hskips⟩ := skips_of_jump_lt z.sorted hj
        (Int.not_le.mp hend) (Int.lt_of_le_of_lt hinstant he)
      exact Or.inr ⟨k, hk, Or.inl hskips⟩
  · exact Or.inl ⟨Int.not_lt.mp hback, Int.not_le.mp hforward⟩

/-! ## Jumps in order -/

section

variable {changes : List (Int × Int)} {before w x : Int} {j : Jump}

/-- Before the first change the first offset is in force. -/
theorem offsetFrom_of_lt (h : ∀ c ∈ changes, x < c.1) :
    offsetFrom before changes x = before := by
  cases changes with
  | nil => rfl
  | cons c later => exact if_pos (h c List.mem_cons_self)

/-- At a jump the offset it leads to is in force. -/
theorem offsetFrom_instant
    (hsorted : changes.Pairwise fun a b => a.1 < b.1)
    (hj : j ∈ jumpsFrom before changes) :
    offsetFrom before changes j.instant = j.after := by
  induction changes generalizing before with
  | nil => simp [jumpsFrom] at hj
  | cons c later ih =>
      obtain ⟨hnext, hsorted⟩ := List.pairwise_cons.mp hsorted
      rw [offsetFrom]
      rcases List.mem_cons.mp hj with rfl | hj
      · rw [if_neg (Int.lt_irrefl _)]
        exact offsetFrom_of_lt hnext
      · obtain ⟨c', hc', hinstant⟩ := exists_change_of_mem_jumpsFrom hj
        rw [if_neg (hinstant ▸ Int.not_lt.mpr (Int.le_of_lt (hnext c' hc')))]
        exact ih hsorted hj

/-- Once the clock shows a reading below all later jumps, it never shows less
again. -/
theorem le_wall_of_low {start bound : Int} (hstart : start ≤ x)
    (hbound : bound ≤ start + before)
    (hlow : ∀ k ∈ jumpsFrom before changes, bound ≤ k.low) :
    bound ≤ x + offsetFrom before changes x := by
  induction changes generalizing start before with
  | nil =>
      rw [offsetFrom]
      omega
  | cons c later ih =>
      rw [offsetFrom]
      split
      · omega
      next hpast =>
        have hc := hlow _ List.mem_cons_self
        rw [Jump.low] at hc
        dsimp only at hc
        exact ih (Int.not_lt.mp hpast) (by omega)
          fun k hk => hlow k (List.mem_cons_of_mem _ hk)

theorem foldZeroFrom_cons (c : Int × Int) (later : List (Int × Int)) :
    foldZeroFrom before (c :: later) w =
      if w < (Jump.mk c.1 before c.2).high then before
      else foldZeroFrom c.2 later w := rfl

/-- A reading that a jump skips or repeats is converted with the offset before
the jump. -/
theorem foldZeroFrom_eq
    (hordered : (jumpsFrom before changes).Pairwise fun j k => j.high ≤ k.low)
    (hj : j ∈ jumpsFrom before changes) (hlow : j.low ≤ w)
    (hhigh : w < j.high) :
    foldZeroFrom before changes w = j.before := by
  induction changes generalizing before with
  | nil => simp [jumpsFrom] at hj
  | cons c later ih =>
      obtain ⟨hnext, hordered⟩ := List.pairwise_cons.mp hordered
      rw [foldZeroFrom_cons]
      rcases List.mem_cons.mp hj with rfl | hj
      · exact if_pos hhigh
      · rw [if_neg (Int.not_lt.mpr (Int.le_trans (hnext j hj) hlow))]
        exact ih hordered hj

/-- A reading past a jump is converted to an instant past it. -/
theorem jump_lt_of_high_le
    (hsorted : changes.Pairwise fun a b => a.1 < b.1)
    (hordered : (jumpsFrom before changes).Pairwise fun j k => j.high ≤ k.low)
    (hj : j ∈ jumpsFrom before changes) (hhigh : j.high ≤ w)
    (hafter : j.instant + j.after < w) :
    j.instant < w - foldZeroFrom before changes w := by
  induction changes generalizing before with
  | nil => simp [jumpsFrom] at hj
  | cons c later ih =>
      obtain ⟨hlater, hsorted⟩ := List.pairwise_cons.mp hsorted
      obtain ⟨hnext, hordered⟩ := List.pairwise_cons.mp hordered
      rw [foldZeroFrom_cons]
      rcases List.mem_cons.mp hj with rfl | hj
      · rw [if_neg (Int.not_lt.mpr hhigh)]
        dsimp only at hafter ⊢
        have hle : c.1 + 1 ≤ w - foldZeroFrom c.2 later w :=
          le_of_le_wall (fun c' hc' => hlater c' hc') (by omega)
        omega
      · have hpast := hnext j hj
        have hspan : j.low ≤ j.high := by
          rw [Jump.low, Jump.high]
          omega
        rw [if_neg (Int.not_lt.mpr
          (Int.le_trans hpast (Int.le_trans hspan hhigh)))]
        exact ih hsorted hordered hj

/-- From a forward jump on the clock shows no reading that the jump skips. -/
theorem after_le_wall
    (hsorted : changes.Pairwise fun a b => a.1 < b.1)
    (hordered : (jumpsFrom before changes).Pairwise fun j k => j.high ≤ k.low)
    (hj : j ∈ jumpsFrom before changes) (hforward : j.before ≤ j.after)
    (hx : j.instant ≤ x) :
    j.instant + j.after ≤ x + offsetFrom before changes x := by
  induction changes generalizing before with
  | nil => simp [jumpsFrom] at hj
  | cons c later ih =>
      obtain ⟨hlater, hsorted⟩ := List.pairwise_cons.mp hsorted
      obtain ⟨hnext, hordered⟩ := List.pairwise_cons.mp hordered
      rw [offsetFrom]
      rcases List.mem_cons.mp hj with rfl | hj
      · rw [if_neg (Int.not_lt.mpr hx)]
        refine le_wall_of_low hx (Int.le_refl _) fun k hk => ?_
        have hhigh := hnext k hk
        rw [Jump.high] at hhigh
        dsimp only at hforward hhigh ⊢
        omega
      · obtain ⟨c', hc', hinstant⟩ := exists_change_of_mem_jumpsFrom hj
        have hc := hlater c' hc'
        rw [if_neg (by omega)]
        exact ih hsorted hordered hj

end

/-- When the jumps are in order, a span of readings that is not empty as
converted is read back as meant exactly when no jump distorts it. -/
theorem Zone.readBack_iff
    (z : Zone) (hordered : z.InOrder) {s e : Int}
    (hlt : z.toInstant s < z.toInstant e) :
    (∀ x, z.toInstant s ≤ x → x < z.toInstant e →
        s ≤ z.toWall x ∧ z.toWall x < e) ↔
      ∀ j ∈ z.jumps, ¬ j.Distorts s e := by
  constructor
  · rintro h j hj (⟨hbefore, hafter⟩ | ⟨⟨hafter, hbefore⟩, hend⟩)
    · -- the span ends among skipped readings
      have hfold : z.wallOffset e = j.before :=
        foldZeroFrom_eq hordered hj (by rw [Jump.low]; omega)
          (by rw [Jump.high]; omega)
      have hpast : max j.instant (z.toInstant s) < z.toInstant e := by
        rw [toInstant, toInstant, hfold] at hlt ⊢
        omega
      have hwall := after_le_wall z.sorted hordered hj (by omega)
        (Int.le_max_left j.instant (z.toInstant s))
      have hread := (h _ (Int.le_max_right _ _) hpast).2
      rw [toWall, utcoffset] at hread
      omega
    · -- the span begins among repeated readings
      have hfold : z.wallOffset s = j.before :=
        foldZeroFrom_eq hordered hj (by rw [Jump.low]; omega)
          (by rw [Jump.high]; omega)
      have hstop : j.instant < z.toInstant e :=
        jump_lt_of_high_le z.sorted hordered hj (by rw [Jump.high]; omega)
          (by omega)
      have hread := (h j.instant (by rw [toInstant, hfold]; omega) hstop).1
      rw [toWall, utcoffset, offsetFrom_instant z.sorted hj] at hread
      omega
  · intro h x hs he
    rcases z.toWall_mem_or_distorts hs he with hmem | ⟨j, hj, hdistorts⟩
    · exact hmem
    · exact absurd hdistorts (h j hj)

end OffsetZone
