import BarberHub.Schedule.Replacement
import BarberHub.Support.Grouping

/-!
# Accepted weeks

`WorkingHoursUpdate` accepts the weeks whose shifts are valid and pairwise
disjoint, and no others.  An accepted week can be stored, whatever the table
holds of other barbers, and `list_working_hours` reads it back in order.
-/

namespace BarberHub

open HalfOpen KeyedTable Grouping ReadCommitted Program

/-! ## Validation -/

instance (n : ℤ) : Decidable (Weekday n) :=
  inferInstanceAs (Decidable (_ ∧ _))

/-- `WorkingHoursUpdate.model_validate`, up to the texts of its refusals. -/
def WorkingHoursUpdate.modelValidate (items : List WorkingHoursSlot) :
    Option WorkingHoursUpdate :=
  if h : items.length ≤ 50 ∧ (∀ slot ∈ items, Weekday slot.weekday) ∧
      (∀ slot ∈ items, endIsAfterStart slot = .ok ()) ∧
      shiftsDoNotOverlap items = .ok () then
    some ⟨items, h.1, h.2.1, h.2.2.1, h.2.2.2⟩
  else none

theorem WorkingHoursUpdate.modelValidate_eq_some_iff
    {items : List WorkingHoursSlot} {payload : WorkingHoursUpdate} :
    modelValidate items = some payload ↔ payload.items = items := by
  rw [modelValidate]
  constructor
  · intro h
    split at h
    · obtain rfl := Option.some.inj h
      rfl
    · cases h
  · rintro rfl
    rw [dif_pos ⟨payload.max_length, payload.weekday_range,
      payload.end_after_start, payload.no_overlap⟩]

/-- Of the weeks with few enough shifts, on days of the week, the consistent
ones are accepted. -/
theorem WorkingHoursUpdate.isSome_modelValidate_iff
    {items : List WorkingHoursSlot} (hlength : items.length ≤ 50)
    (hweekday : ∀ slot ∈ items, Weekday slot.weekday) :
    (modelValidate items).isSome ↔
      (∀ slot ∈ items, slot.startTime < slot.endTime) ∧
        items.Pairwise WorkingHoursSlot.Apart := by
  rw [Option.isSome_iff_exists]
  constructor
  · rintro ⟨payload, h⟩
    obtain rfl := modelValidate_eq_some_iff.mp h
    exact ⟨payload.start_lt_end, payload.pairwise_apart⟩
  · rintro ⟨hvalid, hapart⟩
    refine ⟨⟨items, hlength, hweekday, ?_, ?_⟩,
      modelValidate_eq_some_iff.mpr rfl⟩
    · exact fun slot hslot => endIsAfterStart_eq_ok_iff.mpr (hvalid slot hslot)
    · exact (shiftsDoNotOverlap_eq_ok_iff hvalid).mpr hapart

/-! ## Listing -/

/-- The shift that a row stores. -/
def WorkingHours.slot (hours : WorkingHours) : WorkingHoursSlot :=
  ⟨hours.weekday, hours.startTime, hours.endTime⟩

/-- `ORDER BY weekday, start_time`. -/
def WorkingHours.listedBefore : WorkingHours → WorkingHours → Prop :=
  thenBy (fun a b => a.weekday ≤ b.weekday)
    fun a b => a.startTime ≤ b.startTime

instance : DecidableRel WorkingHours.listedBefore :=
  inferInstanceAs (DecidableRel (thenBy _ _))

/-- `list_working_hours`. -/
def listWorkingHours (barberId : Uuid) : Request (List WorkingHours) := do
  let _ ← getBarber barberId
  query fun db => (db.weekOf barberId).insertionSort WorkingHours.listedBefore

/-- `replace_working_hours`, with the week it answers. -/
def replaceAndListWorkingHours (user : User) (barberId : Uuid)
    (payload : WorkingHoursUpdate) (newId : ℕ → Uuid) :
    Request (List WorkingHours) := do
  replaceWorkingHours user barberId payload.items newId
  listWorkingHours barberId

/-- One shift begins before another, or on an earlier day. -/
def WorkingHoursSlot.Precedes (a b : WorkingHoursSlot) : Prop :=
  a.weekday < b.weekday ∨ a.weekday = b.weekday ∧ a.startTime < b.startTime

theorem WorkingHours.preorders_listedBefore : Preorders listedBefore := by
  apply Preorders.thenBy
  · exact ⟨fun a b => le_total a.weekday b.weekday, le_trans⟩
  · exact ⟨fun a b => le_total a.startTime b.startTime, le_trans⟩

/-- The unique key of the table. -/
def WorkingHours.dayKey (hours : WorkingHours) : Uuid × ℤ × TimeOfDay :=
  (hours.barberId, hours.weekday, hours.startTime)

theorem WorkingHours.eq_of_listedBefore {a b : WorkingHours}
    (hab : a.listedBefore b) (hba : b.listedBefore a) :
    a.weekday = b.weekday ∧ a.startTime = b.startTime :=
  ⟨le_antisymm hab.1 hba.1, le_antisymm (hab.2 hba.1) (hba.2 hab.1)⟩

/-- The listing is the same in whatever order the table is scanned. -/
theorem run_listWorkingHours (db : Database) {barberId : Uuid} {barber : Barber}
    {stored : List WorkingHours}
    (hbarber : db.barber? barberId = some barber)
    (hunique : UniqueKeys WorkingHours.dayKey db.workingHours)
    (hstored : stored.Perm db.workingHours) :
    (listWorkingHours barberId).run { db with workingHours := stored } =
      (.ok ((db.weekOf barberId).insertionSort WorkingHours.listedBefore),
        { db with workingHours := stored }) := by
  have hbarber' : ({ db with workingHours := stored } : Database).barber?
      barberId = some barber := hbarber
  rw [listWorkingHours, getBarber, loadBarber]
  simp only [query_bind, read_bind, run_read, hbarber', rowOr, pure_eq_done,
    done_ok_bind, run_query]
  have hperm : (Database.weekOf { db with workingHours := stored } barberId).Perm
      (db.weekOf barberId) := hstored.filter _
  rw [insertionSort_perm WorkingHours.preorders_listedBefore hperm]
  intro a ha b hb hab hba
  obtain ⟨hmem, hbarberId⟩ := List.mem_filter.mp ha
  obtain ⟨hmem', hbarberId'⟩ := List.mem_filter.mp hb
  rw [decide_eq_true_eq] at hbarberId hbarberId'
  obtain ⟨hday, hstart⟩ := WorkingHours.eq_of_listedBefore hab hba
  apply hunique.eq_of_mem (hstored.mem_iff.mp hmem) (hstored.mem_iff.mp hmem')
  rw [WorkingHours.dayKey, WorkingHours.dayKey, hbarberId, hbarberId', hday,
    hstart]

/-! ## Storing -/

section

variable {barberId : Uuid} {newId : ℕ → Uuid}

theorem map_slot_weekRows (items : List WorkingHoursSlot) :
    (weekRows barberId items newId).map WorkingHours.slot = items := by
  rw [weekRows, List.mapIdx_eq_zipIdx_map, List.map_map]
  exact List.zipIdx_map_fst 0 items

theorem map_id_weekRows (items : List WorkingHoursSlot) :
    (weekRows barberId items newId).map WorkingHours.id =
      (List.range items.length).map newId := by
  rw [weekRows, List.mapIdx_eq_zipIdx_map, List.map_map,
    List.range_eq_range', ← List.zipIdx_map_snd 0 items, List.map_map]
  rfl

/-- Consistent shifts start at different times. -/
theorem WorkingHoursUpdate.pairwise_start (payload : WorkingHoursUpdate) :
    payload.items.Pairwise fun a b =>
      (a.weekday, a.startTime) ≠ (b.weekday, b.startTime) := by
  apply payload.pairwise_apart.imp_of_mem
  intro a b ha hb hapart heq
  obtain ⟨hday, hstart⟩ := Prod.mk.inj heq
  have hvalid := payload.start_lt_end a ha
  have hvalid' := payload.start_lt_end b hb
  apply hapart hday
  exact ⟨hstart ▸ hvalid', hstart ▸ hvalid⟩

/-- The unique key and the checks of the table hold of an accepted week beside
any rows of other barbers. -/
theorem WorkingHoursUpdate.constraints (payload : WorkingHoursUpdate)
    (newId : ℕ → Uuid) {kept : List WorkingHours}
    (hkept : UniqueKeys WorkingHours.dayKey kept)
    (hothers : ∀ hours ∈ kept, hours.barberId ≠ barberId) :
    (∀ hours ∈ weekRows barberId payload.items newId, hours.Checked) ∧
      UniqueKeys WorkingHours.dayKey
        (kept ++ weekRows barberId payload.items newId) := by
  constructor
  · intro hours hmem
    have hslot : hours.slot ∈ payload.items := by
      rw [← map_slot_weekRows payload.items]
      exact List.mem_map_of_mem hmem
    obtain ⟨hlow, hhigh⟩ := payload.weekday_range hours.slot hslot
    exact ⟨hlow, hhigh, payload.start_lt_end hours.slot hslot⟩
  · rw [UniqueKeys, List.map_append]
    apply List.Nodup.append hkept
    · have hstarts := payload.pairwise_start
      rw [← map_slot_weekRows payload.items, List.pairwise_map] at hstarts
      rw [List.Nodup, List.pairwise_map]
      apply hstarts.imp
      intro a b hne heq
      exact hne (congrArg Prod.snd heq)
    · intro key hold hnew
      obtain ⟨old, hmem, rfl⟩ := List.mem_map.mp hold
      obtain ⟨new, hmem', heq⟩ := List.mem_map.mp hnew
      apply hothers old hmem
      rw [← barberId_of_mem_weekRows hmem']
      exact (congrArg Prod.fst heq).symm

/-- With keys that no row has, an accepted week is stored. -/
theorem exists_flushWorkingHours (payload : WorkingHoursUpdate)
    {db : Database} (hdb : db.Valid) {barber : Barber}
    (hbarber : db.barber? barberId = some barber)
    (hinjective : Function.Injective newId)
    (hfresh : ∀ hours ∈ db.workingHours, ∀ i, newId i ≠ hours.id) :
    ∃ kept : List WorkingHours,
      (∀ hours ∈ kept, hours ∈ db.workingHours ∧ hours.barberId ≠ barberId) ∧
      UniqueKeys WorkingHours.dayKey
        (kept ++ weekRows barberId payload.items newId) ∧
      flushWorkingHours ((db.weekOf barberId).map WorkingHours.id)
        (weekRows barberId payload.items newId) db =
          .ok { db with
            workingHours := kept ++ weekRows barberId payload.items newId } := by
  refine ⟨db.workingHours.filter fun hours =>
    hours.id ∉ (db.weekOf barberId).map WorkingHours.id, ?_⟩
  generalize hkept : (db.workingHours.filter fun hours =>
    hours.id ∉ (db.weekOf barberId).map WorkingHours.id) = kept
  have hothers : ∀ hours ∈ kept, hours ∈ db.workingHours ∧
      hours.barberId ≠ barberId := by
    intro hours hmem
    rw [← hkept, List.mem_filter, decide_eq_true_eq] at hmem
    refine ⟨hmem.1, ?_⟩
    intro hbarberId
    apply hmem.2
    apply List.mem_map_of_mem
    exact List.mem_filter.mpr ⟨hmem.1, by simpa using hbarberId⟩
  have hsublist : kept.Sublist db.workingHours := hkept ▸ List.filter_sublist
  have hunique : UniqueKeys WorkingHours.dayKey kept :=
    List.Nodup.sublist (hsublist.map _) hdb.workingHours_unique
  obtain ⟨hchecked, hdays⟩ :=
    payload.constraints newId hunique fun hours h => (hothers hours h).2
  have hids : UniqueKeys WorkingHours.id
      (kept ++ weekRows barberId payload.items newId) := by
    rw [UniqueKeys, List.map_append, map_id_weekRows]
    apply List.Nodup.append
    · exact List.Nodup.sublist (hsublist.map _) hdb.keys.workingHours
    · exact List.Nodup.map hinjective List.nodup_range
    · intro id hold hnew
      obtain ⟨hours, hmem, rfl⟩ := List.mem_map.mp hold
      obtain ⟨i, -, heq⟩ := List.mem_map.mp hnew
      exact hfresh hours (hothers hours hmem).1 i heq
  have hreferences : ∀ hours ∈ weekRows barberId payload.items newId,
      (db.barber? hours.barberId).isSome := by
    intro hours hmem
    rw [barberId_of_mem_weekRows hmem, hbarber]
    rfl
  have hdays' : UniqueKeys
      (fun h : WorkingHours => (h.barberId, h.weekday, h.startTime))
      (kept ++ weekRows barberId payload.items newId) := hdays
  refine ⟨hothers, hdays, ?_⟩
  rw [flushWorkingHours, hkept, enforce, if_pos hchecked, enforce, if_pos hids,
    enforce, if_pos hdays', enforce, if_pos hreferences]
  rfl

/-- A request that stores its payload has replaced the week. -/
theorem run_replaceWorkingHours {user : User} {barber : Barber}
    {db db' : Database} {items : List WorkingHoursSlot}
    (hbarber : db.barber? barberId = some barber)
    (hmay : (ensureCanManageBarber user barber).run db = (.ok (), db))
    (hflush : flushWorkingHours ((db.weekOf barberId).map WorkingHours.id)
      (weekRows barberId items newId) db = .ok db') :
    (replaceWorkingHours user barberId items newId).run db = (.ok (), db') := by
  have hload : (getBarber barberId).run db = (.ok barber, db) := by
    rw [getBarber, loadBarber]
    simp only [query_bind, run_read, hbarber, rowOr, pure_eq_done, run_done]
  rw [replaceWorkingHours, run_bind_of_ok hload, run_bind_of_ok hmay,
    query_bind, run_read]
  exact run_commit_ok hflush

/-- Rows of one barber with different keys are listed in the order of their
shifts. -/
theorem pairwise_precedes {rows : List WorkingHours}
    (hrows : ∀ hours ∈ rows, hours.barberId = barberId)
    (hunique : UniqueKeys WorkingHours.dayKey rows) :
    ((rows.insertionSort WorkingHours.listedBefore).map
      WorkingHours.slot).Pairwise WorkingHoursSlot.Precedes := by
  have hperm := List.perm_insertionSort WorkingHours.listedBefore rows
  have hsorted := WorkingHours.preorders_listedBefore.pairwise_insertionSort rows
  have hkeys := hunique.perm hperm.symm
  rw [UniqueKeys, List.Nodup, List.pairwise_map] at hkeys
  rw [List.pairwise_map]
  apply (hsorted.and hkeys).imp_of_mem
  rintro a b ha hb ⟨hbefore, hne⟩
  rcases hbefore.1.lt_or_eq with hday | hday
  · exact Or.inl hday
  · refine Or.inr ⟨hday, lt_of_le_of_ne (hbefore.2 hday.ge) ?_⟩
    intro (hstart : a.startTime = b.startTime)
    apply hne
    rw [WorkingHours.dayKey, WorkingHours.dayKey, hday, hstart,
      hrows a (hperm.mem_iff.mp ha), hrows b (hperm.mem_iff.mp hb)]

end

/-- The weeks that are accepted are the consistent ones; whatever a database
holds of other barbers, an accepted week breaks neither the unique key nor the
checks of the table; and alone, with new keys, the request of someone who may
manage the barber stores it, and it is listed in order, in whatever order the
table is scanned. -/
theorem weekly_schedule_exact :
    (∀ items : List WorkingHoursSlot, items.length ≤ 50 →
      (∀ slot ∈ items, Weekday slot.weekday) →
      ((WorkingHoursUpdate.modelValidate items).isSome ↔
        (∀ slot ∈ items, slot.startTime < slot.endTime) ∧
          items.Pairwise WorkingHoursSlot.Apart)) ∧
    ∀ (items : List WorkingHoursSlot) (payload : WorkingHoursUpdate),
      WorkingHoursUpdate.modelValidate items = some payload →
      ∀ (db : Database) (barberId : Uuid) (newId : ℕ → Uuid), db.Valid →
      ((∀ hours ∈ weekRows barberId items newId, hours.Checked) ∧
        UniqueKeys (fun h : WorkingHours => (h.barberId, h.weekday, h.startTime))
          ((db.workingHours.filter fun h => h.barberId ≠ barberId) ++
            weekRows barberId items newId)) ∧
      ∀ (user : User) (barber : Barber),
        db.barber? barberId = some barber →
        (ensureCanManageBarber user barber).run db = (.ok (), db) →
        Function.Injective newId →
        (∀ hours ∈ db.workingHours, ∀ i, newId i ≠ hours.id) →
        ∃ listed db', (replaceAndListWorkingHours user barberId payload
            newId).run db = (.ok listed, db') ∧
          listed.Perm (weekRows barberId items newId) ∧
          (listed.map WorkingHours.slot).Perm items ∧
          (listed.map WorkingHours.slot).Pairwise WorkingHoursSlot.Precedes ∧
          ∀ stored, stored.Perm db'.workingHours →
            (listWorkingHours barberId).run
                { db' with workingHours := stored } =
              (.ok listed, { db' with workingHours := stored }) := by
  constructor
  · exact fun items => WorkingHoursUpdate.isSome_modelValidate_iff
  intro items payload hpayload db barberId newId hdb
  obtain rfl := WorkingHoursUpdate.modelValidate_eq_some_iff.mp hpayload
  constructor
  · apply payload.constraints
    · exact List.Nodup.sublist (List.filter_sublist.map _) hdb.workingHours_unique
    · intro hours hmem
      simpa using (List.mem_filter.mp hmem).2
  intro user barber hbarber hmay hinjective hfresh
  obtain ⟨kept, hothers, hunique, hflush⟩ :=
    exists_flushWorkingHours payload hdb hbarber hinjective hfresh
  have hreplace := run_replaceWorkingHours hbarber hmay hflush
  have hrows : ∀ hours ∈ weekRows barberId payload.items newId,
      hours.barberId = barberId := fun _ => barberId_of_mem_weekRows
  have hslots : (weekRows barberId payload.items newId).map WorkingHours.slot =
      payload.items := map_slot_weekRows payload.items
  generalize weekRows barberId payload.items newId = rows at *
  have hweek : Database.weekOf { db with workingHours := kept ++ rows }
      barberId = rows := by
    have hnone : kept.filter (fun h => h.barberId = barberId) = [] := by
      rw [List.filter_eq_nil_iff]
      intro hours hmem
      simpa using (hothers hours hmem).2
    rw [Database.weekOf, List.filter_append, hnone, List.nil_append,
      List.filter_eq_self]
    intro hours hmem
    simpa using hrows hours hmem
  have hlist : ∀ stored, stored.Perm (kept ++ rows) →
      (listWorkingHours barberId).run { db with workingHours := stored } =
        (.ok (rows.insertionSort WorkingHours.listedBefore),
          { db with workingHours := stored }) := by
    intro stored hstored
    have hrun := run_listWorkingHours { db with workingHours := kept ++ rows }
      hbarber hunique hstored
    rw [hweek] at hrun
    exact hrun
  have hperm := List.perm_insertionSort WorkingHours.listedBefore rows
  refine ⟨rows.insertionSort WorkingHours.listedBefore,
    { db with workingHours := kept ++ rows }, ?_, hperm, ?_, ?_, hlist⟩
  · rw [replaceAndListWorkingHours, run_bind_of_ok hreplace]
    exact hlist (kept ++ rows) (List.Perm.refl _)
  · rw [← hslots]
    exact hperm.map _
  · apply pairwise_precedes hrows
    exact List.Nodup.sublist ((List.sublist_append_right kept rows).map _) hunique

/-- A split shift, the evening first. -/
def splitMonday : WorkingHoursUpdate where
  items :=
    [⟨0, Sample.timeOfDay 14 0, Sample.timeOfDay 19 0⟩,
      ⟨0, Sample.timeOfDay 9 0, Sample.timeOfDay 14 0⟩]
  max_length := by simp
  weekday_range := by simp [Weekday]
  end_after_start := by decide
  no_overlap := by decide +kernel

/-- A barber who changes the week to a split shift. -/
theorem weekly_schedule_exact_split :
    (∃ payload, WorkingHoursUpdate.modelValidate splitMonday.items =
      some payload) ∧
    ∃ listed db', (replaceAndListWorkingHours Sample.stylist 20 splitMonday
        (60 + ·)).run Sample.db = (.ok listed, db') ∧
      (listed.map WorkingHours.slot).Perm splitMonday.items := by
  constructor
  · rw [← Option.isSome_iff_exists, weekly_schedule_exact.1 splitMonday.items
      splitMonday.max_length splitMonday.weekday_range]
    exact ⟨splitMonday.start_lt_end, splitMonday.pairwise_apart⟩
  · have hfresh : ∀ hours ∈ Sample.db.workingHours, ∀ i : ℕ,
        60 + i ≠ hours.id := by
      intro hours hmem i
      obtain rfl := List.mem_singleton.mp hmem
      have hne : 60 + i ≠ 50 := by omega
      exact hne
    obtain ⟨listed, db', hrun, -, hperm, -⟩ :=
      (weekly_schedule_exact.2 splitMonday.items splitMonday
        (WorkingHoursUpdate.modelValidate_eq_some_iff.mpr rfl) Sample.db 20
        (60 + ·) (by decide +kernel)).2 Sample.stylist Sample.barber
        (by decide +kernel) (by decide +kernel) (fun i j h => by simpa using h)
        hfresh
    exact ⟨listed, db', hrun, hperm⟩

end BarberHub
