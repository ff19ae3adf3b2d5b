import BarberHub.Reminders.Sweep
import BarberHub.Support.LockedPools

/-!
# At most one reminder

The claims of a sweep are committed when its session ends, after its mails have
been handed over.  As long as no sweep is killed or raises an error in between,
no appointment is reminded twice of the same kind, however many sweeps overlap;
a sweep killed after a mail leaves the mail in the queue and its claim undone,
and the next sweep queues the mail again.
-/

namespace BarberHub

open KeyedTable LockedTransactions Transaction Discipline

namespace Database

variable {db : Database} {key : ReminderKey} {keys : List ReminderKey}

/-- The database has a claim with that key. -/
def Reminded (key : ReminderKey) (db : Database) : Prop :=
  ∃ r ∈ db.appointmentReminders, (r.appointmentId, r.kind) = key

/-- Several claims. -/
def addReminders (keys : List ReminderKey) (db : Database) : Database :=
  { db with
    appointmentReminders := db.appointmentReminders ++
      keys.map fun key => ⟨key.1, key.2⟩ }

theorem addReminders_nil : addReminders [] = id := by
  funext db
  simp [addReminders]

theorem addReminder_comp_addReminders :
    addReminder key ∘ addReminders keys = addReminders (keys ++ [key]) := by
  funext db
  simp [addReminder, addReminders]

theorem reminded_addReminders_iff :
    (addReminders keys db).Reminded key ↔ db.Reminded key ∨ key ∈ keys := by
  simp only [Reminded, addReminders, List.mem_append, List.mem_map]
  constructor
  · rintro ⟨r, hr | ⟨k, hk, rfl⟩, rfl⟩
    · exact Or.inl ⟨r, hr, rfl⟩
    · exact Or.inr hk
  · rintro (⟨r, hr, rfl⟩ | hk)
    · exact ⟨r, Or.inl hr, rfl⟩
    · exact ⟨_, Or.inr ⟨key, hk, rfl⟩, rfl⟩

theorem reminded_addReminder_iff {claimed : ReminderKey} :
    (addReminder claimed db).Reminded key ↔ db.Reminded key ∨ key = claimed := by
  have hone : addReminder claimed db = addReminders [claimed] db := rfl
  rw [hone, reminded_addReminders_iff, List.mem_singleton]

theorem addReminders_append (first rest : List ReminderKey) :
    addReminders (first ++ rest) db =
      addReminders rest (addReminders first db) := by
  simp [addReminders]

theorem addReminders_addReminder :
    addReminders keys (addReminder key db) = addReminders (key :: keys) db := by
  simp [addReminder, addReminders]

theorem not_reminded_of_accepts (h : db.AcceptsReminder key) :
    ¬ db.Reminded key := by
  rintro ⟨r, hr, hkey⟩
  exact h.1 r hr hkey

end Database

/-! ## What a claim protects -/

/-- A claim that is not committed yet keeps others from making it, and a mail
is settled when its claim is committed. -/
def reminderDiscipline : Discipline Database ReminderKey ReminderMail where
  Inv db := UniqueKeys (fun r : AppointmentReminder => (r.appointmentId, r.kind))
    db.appointmentReminders
  Same key db db' := db'.Reminded key ↔ db.Reminded key
  keyOf := ReminderMail.key
  Settled := Database.Reminded
  same_refl _ _ := Iff.rfl
  same_trans h h' := h'.trans h

/-- What is pending is the claims under `keys`, all of them held, and mails have
been sent for no others. -/
structure Claimed (keys : List ReminderKey)
    (v : Standing Database ReminderKey) : Prop where
  pending : v.pending = Database.addReminders keys
  nodup : keys.Nodup
  held : ∀ key ∈ keys, key ∈ v.held
  unreminded : ∀ key ∈ keys, ¬ v.committed.Reminded key
  sent : ∀ key ∈ v.sent, key ∈ keys

section

variable {keys : List ReminderKey} {v : Standing Database ReminderKey}
  {s : Database} {key : ReminderKey}

theorem Claimed.unreminded_of_rely
    (h : Claimed keys v) (hs : reminderDiscipline.Rely v.held v.committed s)
    (hkey : key ∈ keys) : ¬ s.Reminded key :=
  fun hr => h.unreminded key hkey ((hs.2 key (h.held key hkey)).mp hr)

theorem Claimed.rely
    (h : Claimed keys v) (hs : reminderDiscipline.Rely v.held v.committed s) :
    Claimed keys { v with committed := s } :=
  ⟨h.pending, h.nodup, h.held, fun _ hkey => h.unreminded_of_rely hs hkey,
    h.sent⟩

/-- One more claim. -/
theorem Claimed.insert
    (h : Claimed keys v) (hs : reminderDiscipline.Rely v.held v.committed s)
    (haccepts : (v.pending s).AcceptsReminder key) :
    key ∉ keys ∧ Claimed (keys ++ [key])
      { v with
        held := insert key v.held
        pending := Database.addReminder key ∘ v.pending
        committed := s } := by
  have hnew := Database.not_reminded_of_accepts haccepts
  rw [h.pending, Database.reminded_addReminders_iff, not_or] at hnew
  refine ⟨hnew.2, ?_, ?_, ?_, ?_, ?_⟩
  · change Database.addReminder key ∘ v.pending = _
    rw [h.pending, Database.addReminder_comp_addReminders]
  · exact h.nodup.append (List.nodup_singleton _)
      (List.disjoint_singleton.mpr hnew.2)
  · intro k hk
    rcases List.mem_append.mp hk with hk | hk
    · exact Set.mem_insert_of_mem _ (h.held k hk)
    · obtain rfl := List.mem_singleton.mp hk
      exact Set.mem_insert _ _
  · intro k hk
    rcases List.mem_append.mp hk with hk | hk
    · exact h.unreminded_of_rely hs hk
    · obtain rfl := List.mem_singleton.mp hk
      exact hnew.1
  · exact fun k hk => List.mem_append_left _ (h.sent k hk)

/-- The mail of a claim. -/
theorem Claimed.send
    (h : Claimed keys v) (hs : reminderDiscipline.Rely v.held v.committed s)
    (hkey : key ∈ keys) :
    Claimed keys { v with sent := key :: v.sent, committed := s } := by
  have hlater := h.rely hs
  refine ⟨hlater.pending, hlater.nodup, hlater.held, hlater.unreminded, ?_⟩
  intro k hk
  rcases List.mem_cons.mp hk with rfl | hk
  · exact hkey
  · exact h.sent k hk

/-- The commit of the claims. -/
theorem Claimed.allows
    (h : Claimed keys v) (hs : reminderDiscipline.Rely v.held v.committed s) :
    reminderDiscipline.Allows v.held v.sent s (v.pending s) := by
  rw [h.pending]
  refine ⟨?_, ?_, ?_, ?_⟩
  · have hkeys : (keys.map fun key =>
        (⟨key.1, key.2⟩ : AppointmentReminder)).map
          (fun r => (r.appointmentId, r.kind)) = keys := by
      rw [List.map_map]
      exact List.map_id _
    change ((s.appointmentReminders ++ _).map _).Nodup
    rw [List.map_append, hkeys]
    apply List.Nodup.append hs.1 h.nodup
    intro key hold hkey
    obtain ⟨r, hr, hr'⟩ := List.mem_map.mp hold
    exact h.unreminded_of_rely hs hkey ⟨r, hr, hr'⟩
  · intro key hkey
    change (Database.addReminders keys s).Reminded key ↔ s.Reminded key
    rw [Database.reminded_addReminders_iff]
    exact or_iff_left fun hmem => hkey (h.held key hmem)
  · intro key hkey
    exact Database.reminded_addReminders_iff.mpr (Or.inl hkey)
  · intro key hkey
    exact Database.reminded_addReminders_iff.mpr (Or.inr (h.sent key hkey))

end

/-! ## A sweep -/

section

variable {env : Env} {keys : List ReminderKey}
  {v : Standing Database ReminderKey}

/-- A part of the sweep that answers has claims pending for all its mails. -/
def EndsClaimed (r : Except Raised ℕ) (v : Standing Database ReminderKey) :
    Prop :=
  ∀ n, r = .ok n → ∃ keys, Claimed keys v

theorem endsClaimed_error (e : Raised) (v : Standing Database ReminderKey) :
    EndsClaimed (.error e) v :=
  fun _ h => by simp at h

/-- The loop claims before it sends. -/
theorem guards_remindAll
    (related : Related) (kind : ReminderKind) (due : List Appointment)
    (queued : ℕ) (hv : Claimed keys v) :
    Guards reminderDiscipline EndsClaimed
      (remindAll env related kind due queued) v := by
  induction due generalizing keys v queued with
  | nil => exact fun s hs _ _ => ⟨keys, hv.rely hs⟩
  | cons a due ih =>
      rw [remindAll, claimReminder]
      apply guards_insertRow_bind (fun s hs _ => ih queued (hv.rely hs))
      intro s hs htaken
      have haccepts := of_not_not (of_decide_eq_false htaken)
      obtain ⟨hnew, hclaimed⟩ := hv.insert hs haccepts
      rw [if_pos rfl]
      apply guards_done_bind (fun e _ => endsClaimed_error e _)
      intro mail hmail t ht
      have hkey : reminderDiscipline.keyOf mail = (a.id, kind) :=
        (reminderMail_eq_ok hmail).1
      have hmem : (a.id, kind) ∈ keys ++ [(a.id, kind)] := by simp
      rw [hkey]
      exact ⟨hclaimed.held _ hmem, fun hsent => hnew (hv.sent _ hsent),
        hclaimed.unreminded_of_rely ht hmem,
        ih (queued + 1) (hclaimed.send ht hmem)⟩

theorem readOnly_eager : eager.ReadOnly :=
  fun _ _ _ _ _ => trivial

theorem guards_remindKind
    (moment : ℤ) (kind : ReminderKind) (queued : ℕ) (hv : Claimed keys v) :
    Guards reminderDiscipline EndsClaimed (remindKind env moment kind queued)
      v := by
  rw [remindKind]
  apply guards_done_bind (fun e _ => endsClaimed_error e _)
  intro target _
  apply guards_done_bind (fun e _ => endsClaimed_error e _)
  intro _ _
  apply guards_query_bind
  intro s hs
  refine guards_readOnly_bind readOnly_eager
    (fun e _ => endsClaimed_error e _) ?_ hs.1
  intro related t ht
  exact guards_remindAll related kind _ queued ((hv.rely hs).rely ht)

/-- A sweep keeps to the discipline. -/
theorem guards_sendAppointmentReminders
    {db : Database} (env : Env) (moment : ℤ)
    (hinv : reminderDiscipline.Inv db) :
    Guards reminderDiscipline (Pool.Concludes fun _ => True)
      (sendAppointmentReminders env moment) (.idle db) := by
  have hstart : Claimed [] (.idle db) :=
    ⟨Database.addReminders_nil.symm, List.nodup_nil, by simp, by simp,
      by simp [Standing.idle]⟩
  rw [sendAppointmentReminders]
  refine Guards.bind hinv
    ((guards_remindKind moment .dayBefore 0 hstart).mono ?_)
  intro r v hv h
  cases r with
  | error e => exact ⟨trivial, fun _ hr => by simp at hr⟩
  | ok queued =>
      obtain ⟨keys, hclaimed⟩ := h queued rfl
      refine Guards.bind hv
        ((guards_remindKind moment .hoursBefore queued hclaimed).mono ?_)
      intro r w hw h
      cases r with
      | error e => exact ⟨trivial, fun _ hr => by simp at hr⟩
      | ok queued =>
          obtain ⟨keys, hclaimed⟩ := h queued rfl
          intro s hs
          exact ⟨hclaimed.allows hs, fun _ _ => ⟨trivial, fun _ _ => rfl⟩⟩

end

/-! ## Any number of sweeps -/

/-- The sweeps at the given moments, before they start. -/
def sweepPool {ι : Type} (env : Env) (moment : ι → ℤ) (db : Database) :
    Pool ι Database ReminderKey ReminderMail Raised ℕ :=
  Pool.start db fun i => sendAppointmentReminders env (moment i)

/-- As long as no sweep is killed or raises an error after it has handed over a
mail and before its commit, at most one mail is queued for each appointment and
kind, whatever the moments of the sweeps and the order of their statements. -/
theorem one_reminder
    {ι : Type} [DecidableEq ι] (env : Env) (moment : ι → ℤ) (db : Database)
    (moves : List (Move ι)) (hvalid : db.Valid)
    (hclean : Runs.Along Pool.move Pool.Clean (sweepPool env moment db) moves) :
    (((sweepPool env moment db).exec moves).queue.map
      ReminderMail.key).Nodup := by
  have hinv : reminderDiscipline.Inv db := hvalid.appointmentReminders_unique
  have hkeeps : (sweepPool env moment db).Keeps reminderDiscipline
      fun _ _ => True :=
    Pool.keeps_start hinv fun i =>
      guards_sendAppointmentReminders env (moment i) hinv
  have hnone : (sweepPool env moment db).Accounts reminderDiscipline :=
    ⟨List.nodup_nil, fun _ hk => by simp [sweepPool, Pool.start] at hk⟩
  exact (hnone.exec hkeeps hclean).nodup

/-! ## A sweep killed after its mail -/

namespace Sample

/-- Both workers sweep a day before the booking at nine. -/
def sweeps (_ : Bool) : ℤ := clock 9 0 - minutes (24 * 60)

/-- The first worker has handed over the mail when the second one starts. -/
def overlappingSweeps : List (Move Bool) :=
  List.replicate 9 (.step false) ++ List.replicate 20 (.step true) ++
    List.replicate 20 (.step false) ++ List.replicate 20 (.step true)

/-- The first worker is killed after it has handed over the mail. -/
def killedSweep : List (Move Bool) :=
  List.replicate 9 (.step false) ++ [.abort false] ++
    List.replicate 20 (.step true)

end Sample

theorem one_reminder_overlapping :
    (((sweepPool Sample.env Sample.sweeps Sample.bookedDb).exec
      Sample.overlappingSweeps).queue.map ReminderMail.key).Nodup :=
  one_reminder Sample.env Sample.sweeps Sample.bookedDb
    Sample.overlappingSweeps Sample.bookedDb_valid (by decide +kernel)

theorem two_reminders :
    ¬ (((sweepPool Sample.env Sample.sweeps Sample.bookedDb).exec
      Sample.killedSweep).queue.map ReminderMail.key).Nodup := by
  decide +kernel

end BarberHub
