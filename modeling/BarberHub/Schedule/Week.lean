import BarberHub.Schedule.Blocking

/-!
# The payload of a week

The validators of `WorkingHoursSlot` and `WorkingHoursUpdate` in
`app/schemas/schedule.py`.  A payload is accepted shift by shift, and then for
each weekday by comparing neighbours in the order of their starts.  A week that
is accepted contains no two overlapping shifts on one weekday, in whatever
order the payload lists them.
-/

namespace BarberHub

open HalfOpen

/-! ## Error texts -/

/-- A number with leading zeros. -/
def padded (width n : ℕ) : String :=
  let digits := toString n
  "".pushn '0' (width - digits.length) ++ digits

/-- `str` of a naive `time`. -/
def isoformat (time : TimeOfDay) : String :=
  let seconds := time.val / 1000000
  let micros := time.val % 1000000
  let hms := padded 2 (seconds / 3600) ++ ":" ++ padded 2 (seconds / 60 % 60) ++
    ":" ++ padded 2 (seconds % 60)
  if micros = 0 then hms else hms ++ "." ++ padded 6 micros

/-- `start_time-end_time`, as the error quotes a shift. -/
def WorkingHoursSlot.span (slot : WorkingHoursSlot) : String :=
  isoformat slot.startTime ++ "-" ++ isoformat slot.endTime

/-! ## The validators -/

/-- `Weekday`: ISO weekday, 0 for Monday. -/
def Weekday (n : ℤ) : Prop :=
  0 ≤ n ∧ n ≤ 6

/-- `end_is_after_start`. -/
def endIsAfterStart (slot : WorkingHoursSlot) : Except String Unit :=
  if slot.endTime ≤ slot.startTime then
    .error "end_time must be after start_time"
  else .ok ()

/-- The first `pairwise` neighbours of which the later one starts before the
earlier one ends. -/
def overlappingNeighbours :
    List WorkingHoursSlot → Option (WorkingHoursSlot × WorkingHoursSlot)
  | earlier :: later :: rest =>
      if later.startTime < earlier.endTime then some (earlier, later)
      else overlappingNeighbours (later :: rest)
  | _ => none

def WorkingHoursSlot.StartsBy (a b : WorkingHoursSlot) : Prop :=
  a.startTime ≤ b.startTime

instance : DecidableRel WorkingHoursSlot.StartsBy := fun a b =>
  inferInstanceAs (Decidable (a.startTime ≤ b.startTime))

/-- The shifts of one weekday, in the order in which they start. -/
def orderedOn (items : List WorkingHoursSlot) (weekday : ℤ) :
    List WorkingHoursSlot :=
  (items.filter (·.weekday = weekday)).insertionSort WorkingHoursSlot.StartsBy

/-- `shifts_do_not_overlap`: weekdays are taken in the order in which the
payload first names them. -/
def shiftsDoNotOverlap (items : List WorkingHoursSlot) : Except String Unit :=
  let weekdays := (items.map WorkingHoursSlot.weekday).eraseDups
  match weekdays.findSome? fun weekday =>
      (overlappingNeighbours (orderedOn items weekday)).map (weekday, ·) with
  | none => .ok ()
  | some (weekday, earlier, later) =>
      .error ("Overlapping shifts on weekday " ++ toString weekday ++ ": " ++
        earlier.span ++ " and " ++ later.span)

/-- A payload of `replace_working_hours` that the schema has accepted. -/
structure WorkingHoursUpdate where
  items : List WorkingHoursSlot
  max_length : items.length ≤ 50
  weekday_range : ∀ slot ∈ items, Weekday slot.weekday
  end_after_start : ∀ slot ∈ items, endIsAfterStart slot = .ok ()
  no_overlap : shiftsDoNotOverlap items = .ok ()

/-! ## What is accepted -/

/-- The shifts are not on one weekday, or do not meet. -/
def WorkingHoursSlot.Apart (a b : WorkingHoursSlot) : Prop :=
  a.weekday = b.weekday → ¬ Overlap a.startTime a.endTime b.startTime b.endTime

theorem WorkingHoursSlot.Apart.symm {a b : WorkingHoursSlot} (h : a.Apart b) :
    b.Apart a := by
  intro hday hoverlap
  exact h hday.symm (overlap_comm.mp hoverlap)

theorem endIsAfterStart_eq_ok_iff {slot : WorkingHoursSlot} :
    endIsAfterStart slot = .ok () ↔ slot.startTime < slot.endTime := by
  rw [endIsAfterStart]
  split
  next h => simpa using h
  next h => simpa using lt_of_not_ge h

/-- The neighbours of a list are in order only if every shift is over before
any later one starts. -/
theorem pairwise_of_overlappingNeighbours
    {slots : List WorkingHoursSlot}
    (hvalid : ∀ slot ∈ slots, slot.startTime < slot.endTime)
    (h : overlappingNeighbours slots = none) :
    slots.Pairwise fun a b => a.endTime ≤ b.startTime := by
  induction slots with
  | nil => exact .nil
  | cons earlier rest ih =>
      cases rest with
      | nil => exact List.pairwise_singleton _ _
      | cons later rest =>
          rw [overlappingNeighbours] at h
          by_cases hmeet : later.startTime < earlier.endTime
          · rw [if_pos hmeet] at h
            simp at h
          rw [if_neg hmeet] at h
          have hrest := ih (fun slot hslot =>
            hvalid slot (List.mem_cons_of_mem _ hslot)) h
          refine List.pairwise_cons.mpr ⟨?_, hrest⟩
          intro slot hslot
          have hnext : earlier.endTime ≤ later.startTime := le_of_not_gt hmeet
          rcases List.mem_cons.mp hslot with rfl | hslot
          · exact hnext
          · have hlater : later.startTime < later.endTime :=
              hvalid later (by simp)
            have hafter : later.endTime ≤ slot.startTime :=
              (List.pairwise_cons.mp hrest).1 slot hslot
            exact hnext.trans (hlater.le.trans hafter)

/-- In the order of the starts, overlapping shifts show as neighbours. -/
theorem overlappingNeighbours_eq_none
    {slots : List WorkingHoursSlot}
    (hsorted : slots.Pairwise WorkingHoursSlot.StartsBy)
    (hvalid : ∀ slot ∈ slots, slot.startTime < slot.endTime)
    (h : slots.Pairwise fun a b =>
      ¬ Overlap a.startTime a.endTime b.startTime b.endTime) :
    overlappingNeighbours slots = none := by
  induction slots with
  | nil => rfl
  | cons earlier rest ih =>
      cases rest with
      | nil => rfl
      | cons later rest =>
          rw [List.pairwise_cons] at hsorted h
          have hlater : later ∈ later :: rest := List.mem_cons_self
          have hmeet : ¬ later.startTime < earlier.endTime := by
            intro hlt
            refine h.1 later hlater ⟨?_, hlt⟩
            exact lt_of_le_of_lt (hsorted.1 later hlater) (hvalid later (by simp))
          rw [overlappingNeighbours, if_neg hmeet]
          exact ih hsorted.2 (fun slot hslot =>
            hvalid slot (List.mem_cons_of_mem _ hslot)) h.2

/-- The weekday passes when no two of its shifts overlap. -/
theorem overlappingNeighbours_orderedOn_iff
    {items : List WorkingHoursSlot} {weekday : ℤ}
    (hvalid : ∀ slot ∈ items, slot.startTime < slot.endTime) :
    overlappingNeighbours (orderedOn items weekday) = none ↔
      (items.filter (·.weekday = weekday)).Pairwise fun a b =>
        ¬ Overlap a.startTime a.endTime b.startTime b.endTime := by
  have hperm : (orderedOn items weekday).Perm
      (items.filter (·.weekday = weekday)) := List.perm_insertionSort _ _
  have hvalid' : ∀ slot ∈ orderedOn items weekday,
      slot.startTime < slot.endTime := fun slot hslot =>
    hvalid slot (List.mem_of_mem_filter (hperm.mem_iff.mp hslot))
  rw [← hperm.pairwise_iff fun h => mt overlap_comm.mp h]
  constructor
  · intro h
    refine (pairwise_of_overlappingNeighbours hvalid' h).imp ?_
    exact fun hle hoverlap => absurd hoverlap.2 (not_lt.mpr hle)
  · refine overlappingNeighbours_eq_none ?_ hvalid'
    have : Std.Total WorkingHoursSlot.StartsBy := ⟨fun a b => le_total _ _⟩
    have : IsTrans WorkingHoursSlot WorkingHoursSlot.StartsBy :=
      ⟨fun a b c => le_trans⟩
    exact List.pairwise_insertionSort _ _

/-- Shifts are apart when those of each weekday are. -/
theorem pairwise_apart_iff {items : List WorkingHoursSlot} :
    items.Pairwise WorkingHoursSlot.Apart ↔
      ∀ weekday, (items.filter (·.weekday = weekday)).Pairwise fun a b =>
        ¬ Overlap a.startTime a.endTime b.startTime b.endTime := by
  constructor
  · intro h weekday
    rw [List.pairwise_filter]
    refine h.imp fun hapart ha hb => ?_
    rw [decide_eq_true_eq] at ha hb
    exact hapart (ha.trans hb.symm)
  · intro h
    rw [List.pairwise_iff_forall_sublist]
    intro a b hsub hday
    have hfiltered := hsub.filter fun slot => slot.weekday = b.weekday
    rw [List.filter_cons_of_pos (by simpa using hday),
      List.filter_cons_of_pos (by simp), List.filter_nil] at hfiltered
    exact List.pairwise_iff_forall_sublist.mp (h b.weekday) hfiltered

/-- The validator accepts exactly the weeks without overlapping shifts. -/
theorem shiftsDoNotOverlap_eq_ok_iff
    {items : List WorkingHoursSlot}
    (hvalid : ∀ slot ∈ items, slot.startTime < slot.endTime) :
    shiftsDoNotOverlap items = .ok () ↔
      items.Pairwise WorkingHoursSlot.Apart := by
  have hok : shiftsDoNotOverlap items = .ok () ↔
      ∀ weekday ∈ (items.map WorkingHoursSlot.weekday).eraseDups,
        overlappingNeighbours (orderedOn items weekday) = none := by
    rw [shiftsDoNotOverlap]
    split
    next hnone => simpa using hnone
    next weekday earlier later hsome =>
      obtain ⟨day, hday, hfound⟩ := List.exists_of_findSome?_eq_some hsome
      constructor
      · intro h
        simp at h
      · intro h
        rw [h day hday] at hfound
        simp at hfound
  rw [hok, pairwise_apart_iff]
  constructor
  · intro h weekday
    by_cases hday : weekday ∈ (items.map WorkingHoursSlot.weekday).eraseDups
    · exact (overlappingNeighbours_orderedOn_iff hvalid).mp (h weekday hday)
    · -- no shift is on a weekday the payload does not name
      have hempty : items.filter (·.weekday = weekday) = [] := by
        rw [List.filter_eq_nil_iff]
        intro slot hslot heq
        rw [decide_eq_true_eq] at heq
        refine hday (List.mem_eraseDups.mpr ?_)
        rw [← heq]
        exact List.mem_map_of_mem hslot
      rw [hempty]
      exact .nil
  · exact fun h weekday _ =>
      (overlappingNeighbours_orderedOn_iff hvalid).mpr (h weekday)

namespace WorkingHoursUpdate

theorem start_lt_end (payload : WorkingHoursUpdate) :
    ∀ slot ∈ payload.items, slot.startTime < slot.endTime :=
  fun slot hslot => endIsAfterStart_eq_ok_iff.mp (payload.end_after_start slot hslot)

/-- An accepted week has no two overlapping shifts on one weekday. -/
theorem pairwise_apart (payload : WorkingHoursUpdate) :
    payload.items.Pairwise WorkingHoursSlot.Apart :=
  (shiftsDoNotOverlap_eq_ok_iff payload.start_lt_end).mp payload.no_overlap

end WorkingHoursUpdate

example : shiftsDoNotOverlap
    [⟨0, Sample.timeOfDay 14 0, Sample.timeOfDay 19 0⟩,
      ⟨0, Sample.timeOfDay 9 0, Sample.timeOfDay 14 30⟩] =
    .error "Overlapping shifts on weekday 0: 09:00:00-14:30:00 and 14:00:00-19:00:00" := by
  decide +kernel

end BarberHub
