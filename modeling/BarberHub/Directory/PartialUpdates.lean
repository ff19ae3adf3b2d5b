import BarberHub.Directory.Editing

/-!
# Accepted partial updates

What `update_shop`, `update_service` and `update_barber` do with a body that
`BarbershopUpdate`, `ServiceUpdate` or `BarberUpdate` accepts.  The loops write
whatever was sent, so a null that the schema takes for "not given" reaches
columns that are NOT NULL.
-/

namespace BarberHub

open KeyedTable Fallible ReadCommitted Program

/-! ## What the schemas accept -/

namespace Sent

variable {α : Type}

/-- `Field(min_length=low, max_length=high)`, of a text. -/
def Lengths (low high : ℕ) (sent : Sent String) : Prop :=
  ∀ text, sent = some (some text) → low ≤ text.length ∧ text.length ≤ high

/-- `Field(ge=low, le=high)`. -/
def Within (low high : ℤ) (sent : Sent ℤ) : Prop :=
  ∀ n, sent = some (some n) → low ≤ n ∧ n ≤ high

/-- A text that is sent does not contain `U+0000`. -/
def Plain (sent : Sent String) : Prop :=
  ∀ text, sent = some (some text) → Char.ofNat 0 ∉ text.toList

/-- What a NOT NULL column is to hold. -/
def value (old : α) : Sent α → α
  | some (some new) => new
  | _ => old

end Sent

namespace BarbershopUpdate

def Accepted (env : Env) (u : BarbershopUpdate) : Prop :=
  u.name.Lengths 2 150 ∧ u.address.Lengths 2 255 ∧ u.city.Lengths 1 100 ∧
    u.latitude.Within (-90000000) 90000000 ∧
    u.longitude.Within (-180000000) 180000000 ∧ u.phone.Lengths 0 32 ∧
    u.timezone.Lengths 0 64 ∧
    ∀ key, u.timezone = some (some key) → (env.zoneinfo key).isSome

/-- No text contains `U+0000`. -/
def Plain (u : BarbershopUpdate) : Prop :=
  u.name.Plain ∧ u.description.Plain ∧ u.address.Plain ∧ u.city.Plain ∧
    u.phone.Plain ∧ u.timezone.Plain

/-- No NOT NULL column is sent as null. -/
def NoNulls (u : BarbershopUpdate) : Prop :=
  u.name ≠ some none ∧ u.address ≠ some none ∧ u.city ≠ some none ∧
    u.timezone ≠ some none ∧ u.isActive ≠ some none ∧
    u.requiresConfirmation ≠ some none

/-- The row with the fields that were sent; the others are as they were. -/
def written (u : BarbershopUpdate) (row : Barbershop) : Barbershop :=
  { row with
    name := u.name.value row.name
    description := u.description.getD row.description
    address := u.address.value row.address
    city := u.city.value row.city
    latitude := u.latitude.getD row.latitude
    longitude := u.longitude.getD row.longitude
    phone := u.phone.getD row.phone
    timezone := u.timezone.value row.timezone
    isActive := u.isActive.value row.isActive
    requiresConfirmation :=
      u.requiresConfirmation.value row.requiresConfirmation }

end BarbershopUpdate

namespace ServiceUpdate

/-- A price has at most ten digits. -/
def Accepted (u : ServiceUpdate) : Prop :=
  u.name.Lengths 2 150 ∧ u.durationMinutes.Within 1 480 ∧
    u.price.Within 0 (10 ^ 10 - 1)

/-- No text contains `U+0000`. -/
def Plain (u : ServiceUpdate) : Prop :=
  u.name.Plain ∧ u.description.Plain

/-- No NOT NULL column is sent as null. -/
def NoNulls (u : ServiceUpdate) : Prop :=
  u.name ≠ some none ∧ u.durationMinutes ≠ some none ∧
    u.price ≠ some none ∧ u.isActive ≠ some none

/-- The row with the fields that were sent; the others are as they were. -/
def written (u : ServiceUpdate) (row : Service) : Service :=
  { row with
    name := u.name.value row.name
    description := u.description.getD row.description
    durationMinutes := u.durationMinutes.value row.durationMinutes
    price := u.price.value row.price
    isActive := u.isActive.value row.isActive }

end ServiceUpdate

namespace BarberUpdate

def Accepted (u : BarberUpdate) : Prop :=
  u.experienceYears.Within 0 80

/-- No text contains `U+0000`. -/
def Plain (u : BarberUpdate) : Prop :=
  u.bio.Plain

/-- No NOT NULL column is sent as null. -/
def NoNulls (u : BarberUpdate) : Prop :=
  u.experienceYears ≠ some none ∧ u.isActive ≠ some none

/-- The row with the fields that were sent; the others are as they were. -/
def written (u : BarberUpdate) (row : Barber) : Barber :=
  { row with
    bio := u.bio.getD row.bio
    experienceYears := u.experienceYears.value row.experienceYears
    isActive := u.isActive.value row.isActive }

end BarberUpdate

/-! ## One field -/

namespace Sent

variable {α : Type} [DecidableEq α]

/-- A value that is written again makes no difference. -/
theorem column_changed (old : α) (sent : Sent α) :
    (sent.changed (some old)).column old = sent.column old := by
  rw [changed]
  match sent with
  | none => rfl
  | some none => rfl
  | some (some new) =>
      by_cases h : new = old
      · subst h
        rw [Option.filter_some, if_neg (by simp)]
        rfl
      · rw [Option.filter_some, if_pos (by simpa using h)]

/-- What is left of the row to write once a column is. -/
theorem column_changed_bind {β : Type} (old : α) (sent : Sent α)
    (f : α → Except Raised β) :
    ((sent.changed (some old)).column old >>= f) =
      if sent = some none then .error (.integrityError .notNull)
      else f (sent.value old) := by
  rw [column_changed]
  match sent with
  | none => rfl
  | some none => rfl
  | some (some new) => rfl

theorem getD_changed (old : Option α) (sent : Sent α) :
    (sent.changed old).getD old = sent.getD old := by
  rw [changed]
  cases sent with
  | none => rfl
  | some new =>
      by_cases h : new = old
      · subst h
        rw [Option.filter_some, if_neg (by simp)]
        rfl
      · rw [Option.filter_some, if_pos (by simpa using h)]

omit [DecidableEq α] in
theorem value_of {P : α → Prop} {old : α} {sent : Sent α} (hold : P old)
    (hsent : ∀ new, sent = some (some new) → P new) : P (sent.value old) := by
  match sent with
  | none => exact hold
  | some none => exact hold
  | some (some new) => exact hsent new rfl

/-- An accepted text fits its column unless it contains `U+0000`. -/
theorem fits_changed_iff {low high : ℕ} {old : Option String}
    {sent : Sent String} (h : sent.Lengths low high) :
    (sent.changed old).Fits (some high) ↔ (sent.changed old).Plain := by
  cases hsent : sent.changed old with
  | none => simp [Fits, Plain]
  | some value =>
      cases value with
      | none => simp [Fits, Plain]
      | some text =>
          have hlength := (h text (sent_of_changed hsent)).2
          simp [Fits, Plain, hlength]

theorem fits_none_iff {sent : Sent String} : sent.Fits none ↔ sent.Plain := by
  match sent with
  | none => simp [Fits, Plain]
  | some none => simp [Fits, Plain]
  | some (some text) => simp [Fits, Plain]

end Sent

/-- What is written, or refused for a null: the last column. -/
theorem written_or_null {α : Type} {new : α} {isNull : Prop} [Decidable isNull] :
    (if isNull then .error (.integrityError .notNull)
      else (.ok new : Except Raised α)) = .ok new ∧ ¬ isNull ∨
    (if isNull then .error (.integrityError .notNull)
      else (.ok new : Except Raised α)) = .error (.integrityError .notNull) ∧
        ¬ ¬ isNull := by
  by_cases h : isNull
  · exact Or.inr ⟨if_pos h, not_not_intro h⟩
  · exact Or.inl ⟨if_neg h, h⟩

/-- What is written, or refused for a null: one column before others. -/
theorem written_or_null_of {α : Type} {rest : Except Raised α} {new : α}
    {isNull noNulls : Prop} [Decidable isNull]
    (h : rest = .ok new ∧ noNulls ∨
      rest = .error (.integrityError .notNull) ∧ ¬ noNulls) :
    (if isNull then .error (.integrityError .notNull) else rest) = .ok new ∧
        ¬ isNull ∧ noNulls ∨
      (if isNull then .error (.integrityError .notNull) else rest) =
        .error (.integrityError .notNull) ∧ ¬ (¬ isNull ∧ noNulls) := by
  by_cases hnull : isNull
  · exact Or.inr ⟨if_pos hnull, fun hnone => hnone.1 hnull⟩
  · rw [if_neg hnull]
    rcases h with ⟨hok, hrest⟩ | ⟨herror, hrest⟩
    · exact Or.inl ⟨hok, hnull, hrest⟩
    · exact Or.inr ⟨herror, fun hnone => hrest hnone.2⟩

/-! ## One row -/

namespace BarbershopUpdate

variable {env : Env} {u : BarbershopUpdate} {row : Barbershop}

theorem storable_changes_iff (h : u.Accepted env) :
    (u.changes row).Storable ↔ (u.changes row).Plain := by
  obtain ⟨hname, haddress, hcity, -, -, hphone, htimezone, -⟩ := h
  rw [Storable, Plain, changes]
  dsimp only
  rw [Sent.fits_changed_iff hname, Sent.fits_none_iff,
    Sent.fits_changed_iff haddress, Sent.fits_changed_iff hcity,
    Sent.fits_changed_iff hphone, Sent.fits_changed_iff htimezone]

/-- The loop writes the fields that were sent, or a null where none may be. -/
theorem apply_changes (u : BarbershopUpdate) (row : Barbershop) :
    (u.changes row).apply row = .ok (u.written row) ∧ u.NoNulls ∨
      (u.changes row).apply row = .error (.integrityError .notNull) ∧
        ¬ u.NoNulls := by
  rw [apply, changes]
  simp only [Sent.column_changed_bind, Sent.getD_changed]
  exact written_or_null_of <| written_or_null_of <| written_or_null_of <|
    written_or_null_of <| written_or_null_of written_or_null

end BarbershopUpdate

namespace ServiceUpdate

variable {u : ServiceUpdate} {row : Service}

theorem storable_changes_iff (h : u.Accepted) :
    (u.changes row).Storable ↔ (u.changes row).Plain := by
  rw [Storable, Plain, changes]
  dsimp only
  rw [Sent.fits_changed_iff h.1, Sent.fits_none_iff]

theorem apply_changes (u : ServiceUpdate) (row : Service) :
    (u.changes row).apply row = .ok (u.written row) ∧ u.NoNulls ∨
      (u.changes row).apply row = .error (.integrityError .notNull) ∧
        ¬ u.NoNulls := by
  rw [apply, changes]
  simp only [Sent.column_changed_bind, Sent.getD_changed]
  exact written_or_null_of <| written_or_null_of <|
    written_or_null_of written_or_null

theorem checked_written (h : u.Accepted) (hrow : row.Checked) :
    (u.written row).Checked := by
  obtain ⟨-, hduration, hprice⟩ := h
  obtain ⟨hlow, hhigh, hpositive⟩ := hrow
  have hminutes : 0 < u.durationMinutes.value row.durationMinutes ∧
      u.durationMinutes.value row.durationMinutes ≤ 480 :=
    Sent.value_of (P := fun n => 0 < n ∧ n ≤ 480) ⟨hlow, hhigh⟩ hduration
  have hprice' : 0 ≤ u.price.value row.price :=
    Sent.value_of (P := fun n => 0 ≤ n) hpositive fun n hn => (hprice n hn).1
  exact ⟨hminutes.1, hminutes.2, hprice'⟩

end ServiceUpdate

namespace BarberUpdate

variable {u : BarberUpdate} {row : Barber}

theorem storable_changes_iff :
    (u.changes row).Storable ↔ (u.changes row).Plain :=
  Sent.fits_none_iff

theorem apply_changes (u : BarberUpdate) (row : Barber) :
    (u.changes row).apply row = .ok (u.written row) ∧ u.NoNulls ∨
      (u.changes row).apply row = .error (.integrityError .notNull) ∧
        ¬ u.NoNulls := by
  rw [apply, changes]
  simp only [Sent.column_changed_bind, Sent.getD_changed]
  exact written_or_null_of written_or_null

theorem checked_written (h : u.Accepted) (hrow : row.Checked) :
    (u.written row).Checked :=
  ⟨Sent.value_of (P := fun n => 0 ≤ n) hrow.1 fun n hn => (h n hn).1, hrow.2⟩

end BarberUpdate

/-- Another service of the shop has the name that the service is to have, ignoring
case. -/
def ServiceUpdate.NameTaken (env : Env) (db : Database) (u : ServiceUpdate)
    (row : Service) : Prop :=
  ∃ other ∈ db.services, other.id ≠ row.id ∧ other.shopId = row.shopId ∧
    env.lower other.name = env.lower (u.name.value row.name)

/-! ## One statement -/

theorem updateRow_of_lookup
    {α : Type} {key : α → Uuid} {id : Uuid} {apply : α → Except Raised α}
    {constraints : α → Except Raised Unit} {rows : List α} {row : α}
    (h : lookup key rows id = some row) :
    updateRow key id apply constraints rows = (do
      let new ← apply row
      constraints new
      .ok (updateAt key id (fun _ => new) rows)) := by
  rw [updateRow, h]

theorem encode_cases (p : Prop) [Decidable p] :
    encode p = .ok () ∧ p ∨ encode p = .error .dataError ∧ ¬ p := by
  rw [encode]
  split
  next h => exact Or.inl ⟨rfl, h⟩
  next h => exact Or.inr ⟨rfl, h⟩

section

variable {env : Env} {db : Database} {id : Uuid}

/-- A flush writes the row as it is to be, or a text, a null or the constraints
stop it.  If there is nothing to write, the row is as it is to be. -/
theorem flush_cases
    {α : Type} {key : α → Uuid} {apply : α → Except Raised α}
    {constraints : α → Except Raised Unit} {rows : List α} {row new : α}
    {unchanged storable noNulls : Prop} [Decidable unchanged]
    [Decidable storable] {flush : Except Raised Database}
    (set : List α → Database) (hkeys : UniqueKeys key rows)
    (hrow : lookup key rows id = some row) (hset : set rows = db)
    (hwrites : apply row = .ok new ∧ noNulls ∨
      apply row = .error (.integrityError .notNull) ∧ ¬ noNulls)
    (hunchanged : unchanged → apply row = .ok row ∧ storable)
    (hflush : flush = if unchanged then .ok db
      else do
        encode storable
        let rows ← updateRow key id apply constraints rows
        pure (set rows)) :
    flush = .ok (set (updateAt key id (fun _ => new) rows)) ∧ storable ∧ noNulls ∨
      flush = .error .dataError ∧ ¬ storable ∨
      flush = .error (.integrityError .notNull) ∧ storable ∧ ¬ noNulls ∨
      ∃ e, constraints new = .error e ∧ flush = .error e ∧ storable := by
  subst hflush
  by_cases hempty : unchanged
  · obtain ⟨hsame, hstorable⟩ := hunchanged hempty
    rw [if_pos hempty]
    left
    rcases hwrites with ⟨hwritten, hnulls⟩ | ⟨herror, -⟩
    · rw [hsame] at hwritten
      rw [← Except.ok.inj hwritten, hkeys.updateAt_self hrow, hset]
      exact ⟨rfl, hstorable, hnulls⟩
    · rw [hsame] at herror
      cases herror
  · rw [if_neg hempty, updateRow_of_lookup hrow]
    rcases encode_cases storable with ⟨hok, hstorable⟩ | ⟨herror, hnot⟩
    · rw [hok]
      rcases hwrites with ⟨hwritten, hnulls⟩ | ⟨herror, hnulls⟩
      · rw [hwritten]
        cases hconstraints : constraints new with
        | error e =>
            refine Or.inr (Or.inr (Or.inr ⟨e, rfl, ?_, hstorable⟩))
            simp only [bind, Except.bind, hconstraints]
        | ok _ =>
            refine Or.inl ⟨?_, hstorable, hnulls⟩
            simp only [bind, Except.bind, hconstraints, pure, Except.pure]
      · rw [herror]
        exact Or.inr (Or.inr (Or.inl ⟨rfl, hstorable, hnulls⟩))
    · rw [herror]
      exact Or.inr (Or.inl ⟨rfl, hnot⟩)

/-- The shop is written, or a text or a null is refused. -/
theorem flushShop_changes {u : BarbershopUpdate} {row : Barbershop}
    (haccepted : u.Accepted env)
    (hkeys : UniqueKeys Barbershop.id db.barbershops)
    (hrow : db.barbershop? id = some row) :
    flushShop id (u.changes row) db = .ok { db with
        barbershops :=
          updateAt Barbershop.id id (fun _ => u.written row) db.barbershops } ∧
        (u.changes row).Plain ∧ u.NoNulls ∨
      flushShop id (u.changes row) db = .error .dataError ∧
        ¬ (u.changes row).Plain ∨
      flushShop id (u.changes row) db = .error (.integrityError .notNull) ∧
        ¬ u.NoNulls := by
  have hunchanged : u.changes row = {} →
      (u.changes row).apply row = .ok row ∧ (u.changes row).Storable := by
    intro hempty
    rw [hempty]
    exact ⟨rfl, by decide⟩
  rw [← BarbershopUpdate.storable_changes_iff haccepted]
  rcases flush_cases (fun rows => { db with barbershops := rows }) hkeys hrow
      rfl (u.apply_changes row) hunchanged rfl with
    hok | hdata | ⟨hnull, -, hnulls⟩ | ⟨e, hconstraints, -⟩
  · exact Or.inl hok
  · exact Or.inr (Or.inl hdata)
  · exact Or.inr (Or.inr ⟨hnull, hnulls⟩)
  · cases hconstraints

/-- The service is written, or a text, a null or its name is refused. -/
theorem flushService_changes {u : ServiceUpdate} {row : Service}
    (haccepted : u.Accepted) (hdb : db.Valid)
    (hrow : db.service? id = some row) :
    flushService env id (u.changes row) db = .ok { db with
        services := updateAt Service.id id (fun _ => u.written row) db.services } ∧
        (u.changes row).Plain ∧ u.NoNulls ∨
      flushService env id (u.changes row) db = .error .dataError ∧
        ¬ (u.changes row).Plain ∨
      ∃ violation, flushService env id (u.changes row) db =
        .error (.integrityError violation) ∧ (u.changes row).Plain ∧
          (¬ u.NoNulls ∨ u.NameTaken env db row) := by
  obtain rfl : row.id = id := key_of_lookup hrow
  have hunchanged : u.changes row = {} →
      (u.changes row).apply row = .ok row ∧ (u.changes row).Storable := by
    intro hempty
    rw [hempty]
    exact ⟨rfl, by decide⟩
  have hchecked : (u.written row).Checked :=
    ServiceUpdate.checked_written haccepted
      (hdb.checks.services row (mem_of_lookup hrow))
  rw [← ServiceUpdate.storable_changes_iff haccepted]
  rcases flush_cases (fun rows => { db with services := rows })
      hdb.keys.services hrow rfl (u.apply_changes row) hunchanged rfl with
    hok | hdata | ⟨hnull, hplain, hnulls⟩ | ⟨e, hconstraints, hflush, hplain⟩
  · exact Or.inl hok
  · exact Or.inr (Or.inl hdata)
  · exact Or.inr (Or.inr ⟨_, hnull, hplain, Or.inl hnulls⟩)
  · -- the checks hold, so it is the name
    by_cases hfree : ∀ other ∈ db.services, other.id ≠ row.id →
        other.shopId = (u.written row).shopId →
          env.lower other.name ≠ env.lower (u.written row).name
    · simp only [enforce, if_pos hchecked, if_pos hfree, bind, Except.bind]
        at hconstraints
      cases hconstraints
    · simp only [enforce, if_pos hchecked, if_neg hfree, bind, Except.bind,
        Except.error.injEq] at hconstraints
      rw [← hconstraints] at hflush
      push Not at hfree
      obtain ⟨other, hother, hid, hshop, hname⟩ := hfree
      exact Or.inr (Or.inr ⟨_, hflush, hplain,
        Or.inr ⟨other, hother, hid, hshop, hname⟩⟩)

/-- The barber is written, or a text or a null is refused. -/
theorem flushBarber_changes {u : BarberUpdate} {row : Barber}
    (haccepted : u.Accepted) (hdb : db.Valid)
    (hrow : db.barber? id = some row) :
    flushBarber id (u.changes row) db = .ok { db with
        barbers := updateAt Barber.id id (fun _ => u.written row) db.barbers } ∧
        (u.changes row).Plain ∧ u.NoNulls ∨
      flushBarber id (u.changes row) db = .error .dataError ∧
        ¬ (u.changes row).Plain ∨
      flushBarber id (u.changes row) db = .error (.integrityError .notNull) ∧
        ¬ u.NoNulls := by
  have hunchanged : u.changes row = {} →
      (u.changes row).apply row = .ok row ∧ (u.changes row).Storable := by
    intro hempty
    rw [hempty]
    exact ⟨rfl, by decide⟩
  have hchecked : (u.written row).Checked :=
    BarberUpdate.checked_written haccepted
      (hdb.checks.barbers row (mem_of_lookup hrow))
  rw [← BarberUpdate.storable_changes_iff]
  rcases flush_cases (fun rows => { db with barbers := rows })
      hdb.keys.barbers hrow rfl (u.apply_changes row) hunchanged rfl with
    hok | hdata | ⟨hnull, -, hnulls⟩ | ⟨e, hconstraints, -⟩
  · exact Or.inl hok
  · exact Or.inr (Or.inl hdata)
  · exact Or.inr (Or.inr ⟨hnull, hnulls⟩)
  · rw [enforce, if_pos hchecked] at hconstraints
    cases hconstraints

/-! ## The schema -/

/-- A shop written anew keeps the schema. -/
theorem Database.Valid.writeShop (hdb : db.Valid) {row new : Barbershop}
    (hrow : db.barbershop? row.id = some row) (hid : new.id = row.id)
    (howner : new.ownerId = row.ownerId) :
    Database.Valid { db with
      barbershops :=
        updateAt Barbershop.id row.id (fun _ => new) db.barbershops } := by
  have hfound : ∀ k, (lookup Barbershop.id
      (updateAt Barbershop.id row.id (fun _ => new) db.barbershops) k).isSome =
        (db.barbershop? k).isSome := fun k =>
    isSome_lookup_updateAt fun _ _ => hid
  have hkeys : UniqueKeys Barbershop.id
      (updateAt Barbershop.id row.id (fun _ => new) db.barbershops) :=
    hdb.keys.barbershops.updateAt fun _ _ hr => hid.trans hr.symm
  have howners : ∀ s ∈ updateAt Barbershop.id row.id (fun _ => new)
      db.barbershops, (db.user? s.ownerId).isSome := by
    intro s hs
    rcases mem_updateAt.mp hs with ⟨hmem, -⟩ | ⟨_, -, -, rfl⟩
    · exact hdb.references.barbershops s hmem
    · rw [howner]
      exact hdb.references.barbershops row (mem_of_lookup hrow)
  exact { hdb with
    keys := { hdb.keys with barbershops := hkeys }
    references := { hdb.references with
      barbershops := howners
      barbers := fun b hb => ⟨(hdb.references.barbers b hb).1,
        (hfound b.shopId).trans (hdb.references.barbers b hb).2⟩
      services := fun s hs =>
        (hfound s.shopId).trans (hdb.references.services s hs)
      shopClosures := fun c hc =>
        (hfound c.shopId).trans (hdb.references.shopClosures c hc) }
    checks := { hdb.checks with } }

theorem Database.Valid.writeService (hdb : db.Valid) {row new : Service}
    (hrow : db.service? row.id = some row) (hid : new.id = row.id)
    (hshop : new.shopId = row.shopId) (hchecked : new.Checked) :
    Database.Valid { db with
      services := updateAt Service.id row.id (fun _ => new) db.services } := by
  have hfound : ∀ k, (lookup Service.id
      (updateAt Service.id row.id (fun _ => new) db.services) k).isSome =
        (db.service? k).isSome := fun k =>
    isSome_lookup_updateAt fun _ _ => hid
  have hkeys : UniqueKeys Service.id
      (updateAt Service.id row.id (fun _ => new) db.services) :=
    hdb.keys.services.updateAt fun _ _ hr => hid.trans hr.symm
  have hrows : ∀ s ∈ updateAt Service.id row.id (fun _ => new) db.services,
      (db.barbershop? s.shopId).isSome ∧ s.Checked := by
    intro s hs
    rcases mem_updateAt.mp hs with ⟨hmem, -⟩ | ⟨_, -, -, rfl⟩
    · exact ⟨hdb.references.services s hmem, hdb.checks.services s hmem⟩
    · rw [hshop]
      exact ⟨hdb.references.services row (mem_of_lookup hrow), hchecked⟩
  exact { hdb with
    keys := { hdb.keys with services := hkeys }
    references := { hdb.references with
      services := fun s hs => (hrows s hs).1
      barberServices := fun link hlink =>
        ⟨(hdb.references.barberServices link hlink).1,
          (hfound link.2).trans (hdb.references.barberServices link hlink).2⟩
      appointments := fun a ha =>
        ⟨(hdb.references.appointments a ha).1,
          (hdb.references.appointments a ha).2.1,
          (hfound a.serviceId).trans (hdb.references.appointments a ha).2.2⟩ }
    checks := { hdb.checks with services := fun s hs => (hrows s hs).2 } }

theorem Database.Valid.writeBarber (hdb : db.Valid) {row new : Barber}
    (hrow : db.barber? row.id = some row) (hid : new.id = row.id)
    (huser : new.userId = row.userId) (hshop : new.shopId = row.shopId)
    (hchecked : new.Checked) :
    Database.Valid { db with
      barbers := updateAt Barber.id row.id (fun _ => new) db.barbers } := by
  have hfound : ∀ k, (lookup Barber.id
      (updateAt Barber.id row.id (fun _ => new) db.barbers) k).isSome =
        (db.barber? k).isSome := fun k =>
    isSome_lookup_updateAt fun _ _ => hid
  have hkeys : UniqueKeys Barber.id
      (updateAt Barber.id row.id (fun _ => new) db.barbers) :=
    hdb.keys.barbers.updateAt fun _ _ hr => hid.trans hr.symm
  have hplaces : UniqueKeys (fun b : Barber => (b.userId, b.shopId))
      (updateAt Barber.id row.id (fun _ => new) db.barbers) := by
    rw [UniqueKeys, map_updateAt]
    · exact hdb.barbers_unique
    · intro old hold hk
      have hsame : old = row := hdb.keys.barbers.eq_of_mem hold
        (mem_of_lookup hrow) hk
      rw [hsame, huser, hshop]
  have hrows : ∀ b ∈ updateAt Barber.id row.id (fun _ => new) db.barbers,
      ((db.user? b.userId).isSome ∧ (db.barbershop? b.shopId).isSome) ∧
        b.Checked := by
    intro b hb
    rcases mem_updateAt.mp hb with ⟨hmem, -⟩ | ⟨_, -, -, rfl⟩
    · exact ⟨hdb.references.barbers b hmem, hdb.checks.barbers b hmem⟩
    · rw [huser, hshop]
      exact ⟨hdb.references.barbers row (mem_of_lookup hrow), hchecked⟩
  exact { hdb with
    keys := { hdb.keys with barbers := hkeys }
    references := { hdb.references with
      barbers := fun b hb => (hrows b hb).1
      barberServices := fun link hlink =>
        ⟨(hfound link.1).trans (hdb.references.barberServices link hlink).1,
          (hdb.references.barberServices link hlink).2⟩
      workingHours := fun h hh =>
        (hfound h.barberId).trans (hdb.references.workingHours h hh)
      barberBreaks := fun b hb =>
        (hfound b.barberId).trans (hdb.references.barberBreaks b hb)
      appointments := fun a ha =>
        ⟨(hdb.references.appointments a ha).1,
          (hfound a.barberId).trans (hdb.references.appointments a ha).2.1,
          (hdb.references.appointments a ha).2.2⟩
      reviews := fun r hr =>
        ⟨(hdb.references.reviews r hr).1,
          (hfound r.barberId).trans (hdb.references.reviews r hr).2.1,
          (hdb.references.reviews r hr).2.2⟩ }
    checks := { hdb.checks with barbers := fun b hb => (hrows b hb).2 }
    barbers_unique := hplaces }

end

/-! ## The requests -/

/-- A body of one of the three PATCH requests. -/
inductive PartialUpdate where
  | shop (payload : BarbershopUpdate)
  | service (payload : ServiceUpdate)
  | barber (payload : BarberUpdate)

/-- `ConflictError` of `update_service`. -/
def duplicateName : Raised :=
  conflict "This shop already offers a service with that name"

namespace PartialUpdate

/-- The schema accepts the body. -/
def Accepted (env : Env) : PartialUpdate → Prop
  | shop payload => payload.Accepted env
  | service payload => payload.Accepted
  | barber payload => payload.Accepted

def request (env : Env) (user : User) (id : Uuid) : PartialUpdate → Request Unit
  | shop payload => updateShop user id payload
  | service payload => updateService env user id payload
  | barber payload => updateBarber user id payload

/-- The row is there, and the user may manage it. -/
def Authorised (db : Database) (user : User) (id : Uuid) : PartialUpdate → Prop
  | shop _ => ∃ shop, db.barbershop? id = some shop ∧
      canManageShop (some user) shop = true
  | service _ => ∃ service shop, db.service? id = some service ∧
      db.barbershop? service.shopId = some shop ∧
      canManageShop (some user) shop = true
  | barber _ => ∃ barber, db.barber? id = some barber ∧
      (ensureCanManageBarber user barber).run db = (.ok (), db)

/-- The row has been written, the fields that were not sent as they were, and
nothing else has. -/
def Wrote (db db' : Database) (id : Uuid) : PartialUpdate → Prop
  | shop payload => ∃ row, db.barbershop? id = some row ∧ db' = { db with
      barbershops :=
        updateAt Barbershop.id id (fun _ => payload.written row) db.barbershops }
  | service payload => ∃ row, db.service? id = some row ∧ db' = { db with
      services :=
        updateAt Service.id id (fun _ => payload.written row) db.services }
  | barber payload => ∃ row, db.barber? id = some row ∧ db' = { db with
      barbers :=
        updateAt Barber.id id (fun _ => payload.written row) db.barbers }

/-- The name the body sends is that of another service of the shop. -/
def Duplicates (env : Env) (db : Database) (id : Uuid) : PartialUpdate → Prop
  | service payload => ∃ row, db.service? id = some row ∧
      payload.NameTaken env db row
  | _ => False

/-- What the request leaves and answers: a row that keeps every constraint, or
an `AppError` and nothing changed, of a duplicate name only if there is one. -/
def Handled (env : Env) (db : Database) (id : Uuid) (op : PartialUpdate)
    (result : Except Raised Unit × Database) : Prop :=
  ((∃ db', result = (.ok (), db') ∧ op.Wrote db db' id ∧ db'.Valid ∧
      db'.NamesUnique env) ∨ ∃ e, result = (.error (.app e), db)) ∧
    (result.1 = .error duplicateName → op.Duplicates env db id)

/-- The texts that are to be written contain no `U+0000`, and no NOT NULL column is
sent as null, or, to a service, a name that is taken is. -/
def Writable (env : Env) (db : Database) (id : Uuid) : PartialUpdate → Prop
  | shop payload => ∀ row, db.barbershop? id = some row →
      (payload.changes row).Plain ∧ payload.NoNulls
  | service payload => ∀ row, db.service? id = some row →
      (payload.changes row).Plain ∧
        (payload.NoNulls ∨ payload.NameTaken env db row)
  | barber payload => ∀ row, db.barber? id = some row →
      (payload.changes row).Plain ∧ payload.NoNulls

section

variable {env : Env} {db db' : Database} {id : Uuid} {user : User}
  {op : PartialUpdate}

theorem handled_ok (hwrote : op.Wrote db db' id) (hvalid : db'.Valid)
    (hnames : db'.NamesUnique env) : op.Handled env db id (.ok (), db') := by
  refine ⟨Or.inl ⟨db', rfl, hwrote, hvalid, hnames⟩, ?_⟩
  intro h
  cases h

/-- An exception that is no `AppError` is a 500. -/
theorem not_handled_error {e : Raised} (h : ∀ app, e ≠ .app app) :
    ¬ op.Handled env db id (.error e, db) := by
  rintro ⟨⟨_, hok, -⟩ | ⟨app, happ⟩, -⟩
  · cases hok
  · exact h app (Except.error.inj (Prod.mk.inj happ).1)

theorem handled_duplicate :
    op.Handled env db id (.error duplicateName, db) ↔
      op.Duplicates env db id :=
  ⟨fun h => h.2 rfl, fun h => ⟨Or.inr ⟨_, rfl⟩, fun _ => h⟩⟩

theorem run_updateShop {payload : BarbershopUpdate} {row : Barbershop}
    (hrow : db.barbershop? id = some row)
    (hmay : canManageShop (some user) row = true) :
    (updateShop user id payload).run db =
      (write (flushShop id (payload.changes row))).run db := by
  have hload : (getShopOr404 id (some user)).run db = (.ok row, db) :=
    run_getShopOr404_eq_ok_iff.mpr ⟨hrow, Or.inr hmay, rfl⟩
  have hid : row.id = id := key_of_lookup hrow
  rw [updateShop, run_bind_of_ok hload, ensureCanManageShop, require,
    if_pos hmay, hid]
  rfl

theorem run_updateService {payload : ServiceUpdate} {row : Service}
    {shop : Barbershop} (hrow : db.service? id = some row)
    (hshop : db.barbershop? row.shopId = some shop)
    (hmay : canManageShop (some user) shop = true) :
    (updateService env user id payload).run db =
      (commitOrConflict "This shop already offers a service with that name"
        (flushService env id (payload.changes row))).run db := by
  have hload : (getShopOr404 row.shopId (some user)).run db = (.ok shop, db) :=
    run_getShopOr404_eq_ok_iff.mpr ⟨hshop, Or.inr hmay, rfl⟩
  have hmanageable : (getManageableService user id).run db = (.ok row, db) := by
    rw [getManageableService, query_bind, run_read, hrow, rowOr]
    rw [pure_eq_done, done_ok_bind, run_bind_of_ok hload, ensureCanManageShop,
      require, if_pos hmay]
    rfl
  have hid : row.id = id := key_of_lookup hrow
  rw [updateService, run_bind_of_ok hmanageable, hid]

theorem run_updateBarber {payload : BarberUpdate} {row : Barber}
    (hrow : db.barber? id = some row)
    (hmay : (ensureCanManageBarber user row).run db = (.ok (), db)) :
    (updateBarber user id payload).run db =
      (write (flushBarber id (payload.changes row))).run db := by
  have hload : (loadBarber id).run db = (.ok row, db) := by
    rw [loadBarber, query_bind, run_read, hrow]
    rfl
  have hid : row.id = id := key_of_lookup hrow
  rw [updateBarber, run_bind_of_ok hload, run_bind_of_ok hmay, hid]

/-! ## When a partial update is handled -/

theorem updateShop_handled_iff {payload : BarbershopUpdate}
    (hdb : db.Valid) (hnames : db.NamesUnique env)
    (haccepted : payload.Accepted env) {row : Barbershop}
    (hrow : db.barbershop? id = some row)
    (hmay : canManageShop (some user) row = true) :
    (shop payload).Handled env db id ((updateShop user id payload).run db) ↔
      (payload.changes row).Plain ∧ payload.NoNulls := by
  rw [run_updateShop hrow hmay]
  obtain rfl : row.id = id := key_of_lookup hrow
  rcases flushShop_changes haccepted hdb.keys.barbershops hrow with
    ⟨hok, hplain, hnulls⟩ | ⟨herror, hnot⟩ | ⟨herror, hnot⟩
  · rw [write, run_commit_ok hok]
    refine iff_of_true ?_ ⟨hplain, hnulls⟩
    exact handled_ok ⟨row, hrow, rfl⟩ (hdb.writeShop hrow rfl rfl) hnames
  · rw [write, run_commit_error herror]
    exact iff_of_false (not_handled_error (by simp)) fun h => hnot h.1
  · rw [write, run_commit_error herror]
    exact iff_of_false (not_handled_error (by simp)) fun h => hnot h.2

theorem updateService_handled_iff {payload : ServiceUpdate}
    (hdb : db.Valid) (hnames : db.NamesUnique env)
    (haccepted : payload.Accepted) {row : Service} {shop : Barbershop}
    (hrow : db.service? id = some row)
    (hshop : db.barbershop? row.shopId = some shop)
    (hmay : canManageShop (some user) shop = true) :
    (service payload).Handled env db id
        ((updateService env user id payload).run db) ↔
      (payload.changes row).Plain ∧
        (payload.NoNulls ∨ payload.NameTaken env db row) := by
  rw [run_updateService hrow hshop hmay, commitOrConflict]
  obtain rfl : row.id = id := key_of_lookup hrow
  rcases flushService_changes haccepted hdb hrow with
    ⟨hok, hplain, hnulls⟩ | ⟨herror, hnot⟩ | ⟨violation, herror, hplain, hwhy⟩
  · rw [write, run_commit_ok (by rw [hok])]
    refine iff_of_true ?_ ⟨hplain, Or.inl hnulls⟩
    exact handled_ok ⟨row, hrow, rfl⟩
      (hdb.writeService hrow rfl rfl
        (ServiceUpdate.checked_written haccepted
          (hdb.checks.services row (mem_of_lookup hrow))))
      (namesUnique_flushService hdb.keys.services hnames hok).2
  · rw [write, run_commit_error (e := .dataError) (by rw [herror])]
    exact iff_of_false (not_handled_error (by simp)) fun h => hnot h.1
  · -- every violation is reported as a duplicate name
    rw [write, run_commit_error (e := duplicateName) (by rw [herror]; rfl),
      handled_duplicate]
    constructor
    · rintro ⟨row', hrow', htaken⟩
      obtain rfl := Option.some.inj (hrow.symm.trans hrow')
      exact ⟨hplain, Or.inr htaken⟩
    · rintro ⟨-, hnulls | htaken⟩
      · exact ⟨row, hrow, hwhy.resolve_left (not_not_intro hnulls)⟩
      · exact ⟨row, hrow, htaken⟩

theorem updateBarber_handled_iff {payload : BarberUpdate}
    (hdb : db.Valid) (hnames : db.NamesUnique env)
    (haccepted : payload.Accepted) {row : Barber}
    (hrow : db.barber? id = some row)
    (hmay : (ensureCanManageBarber user row).run db = (.ok (), db)) :
    (barber payload).Handled env db id
        ((updateBarber user id payload).run db) ↔
      (payload.changes row).Plain ∧ payload.NoNulls := by
  rw [run_updateBarber hrow hmay]
  obtain rfl : row.id = id := key_of_lookup hrow
  rcases flushBarber_changes haccepted hdb hrow with
    ⟨hok, hplain, hnulls⟩ | ⟨herror, hnot⟩ | ⟨herror, hnot⟩
  · rw [write, run_commit_ok hok]
    refine iff_of_true ?_ ⟨hplain, hnulls⟩
    exact handled_ok ⟨row, hrow, rfl⟩
      (hdb.writeBarber hrow rfl rfl rfl
        (BarberUpdate.checked_written haccepted
          (hdb.checks.barbers row (mem_of_lookup hrow)))) hnames
  · rw [write, run_commit_error herror]
    exact iff_of_false (not_handled_error (by simp)) fun h => hnot h.1
  · rw [write, run_commit_error herror]
    exact iff_of_false (not_handled_error (by simp)) fun h => hnot h.2

end

end PartialUpdate

end BarberHub
