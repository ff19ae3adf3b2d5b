import BarberHub.Directory.Assignment
import BarberHub.Schedule.Week
import BarberHub.Support.Decisions

/-!
# Full replacements side by side

`replace_working_hours` deletes the rows its DELETE sees and inserts the
payload; `set_services` writes the difference between the payload and the links
it has loaded.  Both decide with one statement what will go, and nothing is
locked until they commit.  This module shows what concurrent replacements leave
behind: the rows of one payload if nobody adds rows between that statement and
the commit, and else the rows of two.
-/

namespace BarberHub

open HalfOpen KeyedTable ReadCommitted Program Pool

variable {ι : Type} [DecidableEq ι]

/-- What a request replaces wholesale. -/
inductive Replaced where
  | week
  | services
  deriving DecidableEq, Repr

/-- A full replacement of something of one barber. -/
inductive ReplaceOp where
  | week (user : User) (payload : WorkingHoursUpdate) (newId : ℕ → Uuid)
  | services (user : User) (serviceIds : List Uuid)

def ReplaceOp.kind : ReplaceOp → Replaced
  | week _ _ _ => .week
  | services _ _ => .services

/-- The transaction of the request, up to its commit. -/
def ReplaceOp.transaction (barberId : Uuid) : ReplaceOp → Request Unit
  | week user payload newId =>
      replaceWorkingHours user barberId payload.items newId
  | services user serviceIds => setServices user barberId serviceIds

/-- The requests on one barber before any has begun. -/
def replacePool (ops : ι → ReplaceOp) (barberId : Uuid) (db : Database) :
    Pool ι Database Raised Unit where
  committed := db
  running i := (ops i).transaction barberId

/-! ## What is stored -/

/-- The stored week of the barber. -/
def Database.weekOf (db : Database) (barberId : Uuid) : List WorkingHours :=
  db.workingHours.filter (·.barberId = barberId)

/-- The rows a week is stored as. -/
def weekRows (barberId : Uuid) (items : List WorkingHoursSlot)
    (newId : ℕ → Uuid) : List WorkingHours :=
  items.mapIdx fun i slot =>
    { id := newId i
      barberId := barberId
      weekday := slot.weekday
      startTime := slot.startTime
      endTime := slot.endTime }

/-- The stored rows are exactly those of the payload. -/
def ReplaceOp.Stored (barberId : Uuid) : ReplaceOp → Database → Prop
  | week _ payload newId, db =>
      db.weekOf barberId = weekRows barberId payload.items newId
  | services _ serviceIds, db =>
      ∀ serviceId, serviceId ∈ db.servicesOf barberId ↔ serviceId ∈ serviceIds

/-- The stored rows are those of the payload of one of the requests. -/
def OneStored (ops : ι → ReplaceOp) (barberId : Uuid) (kind : Replaced)
    (db : Database) : Prop :=
  ∃ i, (ops i).kind = kind ∧ (ops i).Stored barberId db

/-- No two stored shifts of the barber on one weekday overlap. -/
def Database.WeekApart (db : Database) (barberId : Uuid) : Prop :=
  (db.weekOf barberId).Pairwise fun a b => a.weekday = b.weekday →
    ¬ Overlap a.startTime a.endTime b.startTime b.endTime

instance (db : Database) (barberId : Uuid) :
    Decidable (db.WeekApart barberId) :=
  inferInstanceAs (Decidable (List.Pairwise _ _))

/-- When every replacement of a kind has succeeded, the stored rows are those
of one payload, and a stored week has no overlapping shifts. -/
def LeavesOnePayload (ops : ι → ReplaceOp) (barberId : Uuid) (db : Database)
    (schedule : List ι) : Prop :=
  let final := (replacePool ops barberId db).exec schedule
  ∀ kind, (∃ i, (ops i).kind = kind) →
    (∀ i, (ops i).kind = kind → final.running i = .done (.ok ())) →
    OneStored ops barberId kind final.committed ∧
      (kind = .week → final.committed.WeekApart barberId)

/-! ## When nothing comes in between -/

/-- The request from the statement on that decides which rows go: the DELETE of
a week, the loading of the services a barber has. -/
def ReplaceOp.Decides (barberId : Uuid) :
    ReplaceOp → Request Unit → Prop
  | week _ payload newId, p =>
      p = (query fun db => (db.weekOf barberId).map WorkingHours.id) >>=
        fun deleted => write
          (flushWorkingHours deleted (weekRows barberId payload.items newId))
  | services user serviceIds, p =>
      ∃ barber, barber.id = barberId ∧ p = replaceServices user barber serviceIds

/-- What a commit may do to the rows of a replacement that has decided: add
none, and remove no service that the replacement keeps. -/
def ReplaceOp.Tolerates (barberId : Uuid) :
    ReplaceOp → Database → Database → Prop
  | week _ _ _, s, s' =>
      ∀ hours ∈ s'.weekOf barberId, hours ∈ s.weekOf barberId
  | services _ serviceIds, s, s' =>
      (∀ serviceId ∈ s'.servicesOf barberId,
        serviceId ∈ s.servicesOf barberId) ∧
      ∀ serviceId ∈ serviceIds, serviceId ∈ s.servicesOf barberId →
        serviceId ∈ s'.servicesOf barberId

/-- Between the deciding statement of a request and its commit, no other
request adds rows or removes a service that the request keeps. -/
def NothingBetween (ops : ι → ReplaceOp) (barberId : Uuid) (db : Database)
    (schedule : List ι) : Prop :=
  (replacePool ops barberId db).TolerantOfDecided
    (fun i => (ops i).Decides barberId) (fun i => (ops i).Tolerates barberId)
    schedule

/-! ## One replacement -/

/-- What a replacement commits: its payload, and nothing of the other kind. -/
def ReplaceOp.Replaces (barberId : Uuid) (op : ReplaceOp) (s s' : Database) :
    Prop :=
  op.Stored barberId s' ∧
    match op with
    | week _ _ _ => s'.barberServices = s.barberServices
    | services _ _ => s'.workingHours = s.workingHours

section

variable {barberId : Uuid} {s s' : Database}

theorem ReplaceOp.stored_congr {op : ReplaceOp}
    (h : match op with
      | week _ _ _ => s'.workingHours = s.workingHours
      | services _ _ => s'.barberServices = s.barberServices)
    (hstored : op.Stored barberId s) : op.Stored barberId s' := by
  cases op with
  | week user payload newId =>
      dsimp only at h
      rw [Stored, Database.weekOf] at hstored ⊢
      rw [h]
      exact hstored
  | services user serviceIds =>
      dsimp only at h
      intro serviceId
      rw [mem_servicesOf, h, ← mem_servicesOf]
      exact hstored serviceId

theorem ReplaceOp.isRely_tolerates (op : ReplaceOp) :
    IsRely (op.Tolerates barberId) := by
  cases op with
  | week user payload newId =>
      exact ⟨fun _ _ h => h, fun h h' hours hmem => h hours (h' hours hmem)⟩
  | services user serviceIds =>
      exact ⟨fun _ => ⟨fun _ h => h, fun _ _ h => h⟩,
        fun h h' => ⟨fun sid hsid => h.1 sid (h'.1 sid hsid),
          fun sid hwanted hsid => h'.2 sid hwanted (h.2 sid hwanted hsid)⟩⟩

/-- The rows of one barber are those added, if the DELETE has seen all the
others. -/
theorem weekOf_flushWorkingHours
    {deleted : List Uuid} {rows : List WorkingHours}
    (hrows : ∀ hours ∈ rows, hours.barberId = barberId)
    (hdeleted : ∀ hours ∈ s.weekOf barberId, hours.id ∈ deleted)
    (h : flushWorkingHours deleted rows s = .ok s') :
    s'.weekOf barberId = rows := by
  rw [flushWorkingHours] at h
  simp only [Fallible.bind_eq_ok_iff] at h
  obtain ⟨_, -, _, -, _, -, _, -, h⟩ := h
  obtain rfl := Except.ok.inj h
  rw [Database.weekOf, List.filter_append]
  have hkept : (s.workingHours.filter fun hours => hours.id ∉ deleted).filter
      (fun hours => hours.barberId = barberId) = [] := by
    rw [List.filter_eq_nil_iff]
    intro hours hmem hbarber
    obtain ⟨hstored, hid⟩ := List.mem_filter.mp hmem
    rw [decide_eq_true_eq] at hid
    exact hid (hdeleted hours (List.mem_filter.mpr ⟨hstored, hbarber⟩))
  rw [hkept, List.nil_append, List.filter_eq_self]
  exact fun hours hmem => by simpa using hrows hours hmem

theorem barberId_of_mem_weekRows
    {items : List WorkingHoursSlot} {newId : ℕ → Uuid} {hours : WorkingHours}
    (h : hours ∈ weekRows barberId items newId) : hours.barberId = barberId := by
  obtain ⟨i, hi, rfl⟩ := List.mem_mapIdx.mp h
  rfl

/-- A difference that nothing has invalidated turns the links into the ones
wanted. -/
theorem stored_of_flushBarberServices
    (serviceIds : List Uuid) {loaded assigned : List Uuid}
    (hassigned : ∀ sid, sid ∈ assigned ↔ sid ∈ serviceIds)
    (hnone : ∀ sid ∈ s.servicesOf barberId, sid ∈ loaded)
    (hkept : ∀ sid ∈ serviceIds, sid ∈ loaded → sid ∈ s.servicesOf barberId)
    (h : flushBarberServices barberId (loaded.filter (· ∉ assigned))
      (assigned.filter (· ∉ loaded)) s = .ok s') :
    ∀ sid, sid ∈ s'.servicesOf barberId ↔ sid ∈ serviceIds := by
  intro sid
  rw [(flushBarberServices_eq_ok h).2 sid, List.mem_filter, List.mem_filter,
    decide_eq_true_eq, decide_eq_true_eq, hassigned sid]
  constructor
  · rintro (⟨hstored, hstays⟩ | ⟨hwanted, -⟩)
    · by_contra hother
      exact hstays ⟨hnone sid hstored, hother⟩
    · exact hwanted
  · intro hwanted
    by_cases hloaded : sid ∈ loaded
    · exact Or.inl ⟨hkept sid hwanted hloaded, fun hgone => hgone.2 hwanted⟩
    · exact Or.inr ⟨hwanted, hloaded⟩

/-- A request that has decided commits its payload, if others leave the rows
alone as it tolerates. -/
theorem ReplaceOp.decided
    {op : ReplaceOp} {p : Request Unit} {rely : Database → Database → Prop}
    {Q : Database → Prop} (hrely : IsRely rely)
    (htol : ∀ a b, rely a b → op.Tolerates barberId a b)
    (hQ : ∀ a b, op.Stored barberId a → rely a b → Q b)
    (h : op.Decides barberId p) :
    ∃ next, p = .read next ∧ ∀ s, (next s).Learns rely
      (op.Replaces barberId) (fun _ => Q) s := by
  cases op with
  | week user payload newId =>
      obtain rfl := h
      refine ⟨_, query_bind _ _, fun s => learns_write fun t t' hst hw => ?_⟩
      have hstored : t'.weekOf barberId =
          weekRows barberId payload.items newId := by
        refine weekOf_flushWorkingHours
          (fun _ => barberId_of_mem_weekRows) ?_ hw
        intro hours hmem
        exact List.mem_map_of_mem (htol s t hst hours hmem)
      refine ⟨⟨hstored, ?_⟩, fun u hu => hQ t' u hstored hu⟩
      rw [flushWorkingHours_eq_ok hw]
  | services user serviceIds =>
      obtain ⟨barber, rfl, rfl⟩ := h
      refine ⟨_, query_bind _ _, ?_⟩
      intro s
      have hstable : ∀ t u, rely s t → rely t u → rely s u :=
        fun _ _ => hrely.trans
      apply Learns.bind hrely ((readOnly_getShopOr404 _ _).learns hstable
        (hrely.refl s))
      intro shop t hst
      apply Learns.bind hrely ((readOnly_ensureCanManageShop _ _).learns
        hstable hst)
      intro _ u hsu
      apply Learns.bind hrely (learns_resolveServices hrely hstable hsu)
      intro services v h
      obtain ⟨hids, hsv⟩ := h
      apply learns_write
      intro w w' hvw hw
      have hbetween := htol s w (hrely.trans hsv hvw)
      have hstored := stored_of_flushBarberServices serviceIds
        (fun sid => by rw [hids, List.mem_eraseDups]) hbetween.1
        (fun sid hwanted hloaded => hbetween.2 sid hwanted hloaded) hw
      refine ⟨⟨hstored, ?_⟩, fun x hx => hQ w' x hstored hx⟩
      rw [(flushBarberServices_eq_ok hw).1]

/-- Before it decides, a request only checks. -/
theorem ReplaceOp.approaches (barberId : Uuid) (op : ReplaceOp) :
    Approaches (op.Decides barberId) (op.transaction barberId) := by
  have hrely : IsRely fun _ _ : Database => True :=
    ⟨fun _ => trivial, fun _ _ => trivial⟩
  have hload : (loadBarber barberId).Learns (fun _ _ => True)
      (fun _ _ => True) (fun barber _ => barber.id = barberId) {} := by
    rw [loadBarber]
    apply Learns.bind hrely (Q := fun found _ => ∃ db : Database,
      db.barber? barberId = found) (learns_query fun t u _ _ => ⟨t, rfl⟩)
    intro found t hfound
    obtain ⟨db, rfl⟩ := hfound
    exact learns_rowOr fun barber u hrow _ => key_of_lookup hrow
  cases op with
  | week user payload newId =>
      rw [transaction, replaceWorkingHours, getBarber]
      apply Approaches.after (readOnly_loadBarber _) hload
      intro barber _
      exact Approaches.after (Q := fun _ => True)
        (readOnly_ensureCanManageBarber _ _)
        ((readOnly_ensureCanManageBarber _ _).learns (s := {})
          (fun _ _ _ _ => trivial) trivial) fun _ _ => .here rfl
  | services user serviceIds =>
      rw [transaction, setServices]
      exact Approaches.after (readOnly_loadBarber _) hload fun barber hid =>
        .here ⟨barber, hid, rfl⟩

end

/-! ## Any interleaving -/

section

variable {ops : ι → ReplaceOp} {barberId : Uuid} {db s s' : Database}

omit [DecidableEq ι] in
/-- One payload stays stored when another is stored instead, or when something
of the other kind is replaced. -/
theorem OneStored.of_replaces
    {kind : Replaced} {j : ι} (hguar : (ops j).Replaces barberId s s')
    (h : OneStored ops barberId kind s) : OneStored ops barberId kind s' := by
  by_cases hkind : (ops j).kind = kind
  · exact ⟨j, hkind, hguar.1⟩
  · obtain ⟨k, rfl, hstored⟩ := h
    refine ⟨k, rfl, ReplaceOp.stored_congr ?_ hstored⟩
    cases hj : ops j with
    | week user payload newId =>
        rw [hj] at hguar hkind
        cases hk : ops k with
        | week user payload newId =>
            rw [hk] at hkind
            exact absurd rfl hkind
        | services user serviceIds => exact hguar.2
    | services user serviceIds =>
        rw [hj] at hguar hkind
        cases hk : ops k with
        | week user payload newId => exact hguar.2
        | services user serviceIds =>
            rw [hk] at hkind
            exact absurd rfl hkind

omit [DecidableEq ι] in
theorem replacePool_deciding
    (ops : ι → ReplaceOp) (barberId : Uuid) (db : Database) :
    (replacePool ops barberId db).Deciding (fun _ => True)
      (fun i => (ops i).Decides barberId)
      (fun i s s' => (ops i).Tolerates barberId s s' ∧
        (OneStored ops barberId (ops i).kind s →
          OneStored ops barberId (ops i).kind s'))
      (fun i => (ops i).Replaces barberId)
      (fun i => (ops i).Tolerates barberId)
      (fun i r s => ∀ a, r = .ok a →
        OneStored ops barberId (ops i).kind s) where
  isRely i := ((ops i).isRely_tolerates).keeping _
  init := trivial
  approaches i := (ops i).approaches barberId
  decide i p hdecides := by
    obtain ⟨next, hp, hnext⟩ := (ops i).decided
      (((ops i).isRely_tolerates).keeping (OneStored ops barberId (ops i).kind))
      (fun _ _ h => h.1) (fun _ _ hstored h => h.2 ⟨i, rfl, hstored⟩) hdecides
    exact ⟨next, hp, fun s _ => hnext s⟩
  inv _ _ _ _ _ := trivial
  compat _ _ _ _ _ _ hguar htol := ⟨htol, .of_replaces hguar⟩
  answer _ _ _ _ _ _ _ hguar hpost a ha := (hpost a ha).of_replaces hguar

/-- A payload is stored as shifts that are as far apart as those of the
payload. -/
theorem weekApart_of_stored
    {user : User} {payload : WorkingHoursUpdate} {newId : ℕ → Uuid}
    (h : (ReplaceOp.week user payload newId).Stored barberId s) :
    s.WeekApart barberId := by
  rw [ReplaceOp.Stored] at h
  rw [Database.WeekApart, h, weekRows, List.mapIdx_eq_zipIdx_map,
    List.pairwise_map]
  have hmap : payload.items.zipIdx.map Prod.fst = payload.items := by simp
  have hapart := payload.pairwise_apart
  rw [← hmap, List.pairwise_map] at hapart
  exact hapart

end

/-- Replacements between whose deciding statement and commit nothing comes
leave the rows of one payload. -/
theorem leaves_one_payload
    (ops : ι → ReplaceOp) (barberId : Uuid) (db : Database)
    (schedule : List ι) (hbetween : NothingBetween ops barberId db schedule) :
    LeavesOnePayload ops barberId db schedule := by
  intro kind hsome hall
  obtain ⟨i, rfl⟩ := hsome
  have hone := (replacePool_deciding ops barberId db).answered hbetween
    (hall i rfl) () rfl
  refine ⟨hone, ?_⟩
  intro hweek
  obtain ⟨k, hkind, hstored⟩ := hone
  rw [hweek] at hkind
  cases hk : ops k with
  | week user payload newId =>
      rw [hk] at hstored
      exact weekApart_of_stored hstored
  | services user serviceIds =>
      rw [hk] at hkind
      simp [ReplaceOp.kind] at hkind

/-! ## Two replacements -/

/-- A week of one shift, Monday from one hour to another. -/
def mondayShift (start stop : Fin 24) (h : start < stop) :
    WorkingHoursUpdate where
  items := [⟨0, Sample.timeOfDay start 0, Sample.timeOfDay stop 0⟩]
  max_length := by simp
  weekday_range := by simp [Weekday]
  end_after_start := by
    revert start stop
    decide
  no_overlap := by
    revert start stop
    decide

/-- Two administrators who replace the week of the barber. -/
def replaceWeekTwice : Bool → ReplaceOp
  | false => .week Sample.admin (mondayShift 9 13 (by decide)) (60 + ·)
  | true => .week Sample.admin (mondayShift 10 14 (by decide)) (70 + ·)

/-- Two more services of the sample shop. -/
def threeServicesDb : Database :=
  { Sample.db with
    services := [Sample.haircut,
      ⟨31, 10, "Shave", none, 30, 300000, true⟩,
      ⟨32, 10, "Colour", none, 60, 900000, true⟩] }

/-- Two administrators who replace the services of the barber. -/
def replaceServicesTwice : Bool → ReplaceOp
  | false => .services Sample.admin [31]
  | true => .services Sample.admin [32]

theorem leaves_one_payload_one_after_the_other :
    LeavesOnePayload replaceWeekTwice 20 Sample.db
      (List.replicate 3 false ++ List.replicate 3 true) := by
  apply leaves_one_payload
  exact (tolerant_serial false true 3 3 (by decide +kernel)).tolerantOfDecided _

/-- When both requests have decided before either commits, both payloads are
stored: the week of the barber then has overlapping shifts. -/
theorem two_payloads_left :
    ¬ LeavesOnePayload replaceWeekTwice 20 Sample.db
        [false, false, true, true, false, true] ∧
      ¬ LeavesOnePayload replaceServicesTwice 20 threeServicesDb
        [false, false, false, false, true, true, true, true, false, true] := by
  constructor
  · intro h
    have hweek := (h .week ⟨false, rfl⟩ (fun i _ => by cases i <;> rfl)).2 rfl
    revert hweek
    decide +kernel
  · intro h
    obtain ⟨i, -, hstored⟩ :=
      (h .services ⟨false, rfl⟩ (fun i _ => by cases i <;> rfl)).1
    cases i with
    | false =>
        have hother := (hstored 32).mp (by decide +kernel)
        simp at hother
    | true =>
        have hother := (hstored 31).mp (by decide +kernel)
        simp at hother

end BarberHub
