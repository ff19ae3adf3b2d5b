import BarberHub.Directory.Joining
import BarberHub.Directory.PartialUpdates
import BarberHub.Search.Pages
import BarberHub.Support.Runs

/-!
# A place for every result

A search with an origin returns shops by their distance, and is to leave out the
shops whose place is not known.  A shop's two coordinates are separate columns
that `create_shop` and `update_shop` write separately, and without a radius
`list_shops` asks for the latitude only.  A shop without a longitude is returned
with the distance of the farthest point of the earth.
-/

namespace BarberHub

open KeyedTable ReadCommitted Program Grouping Paging Fallible

/-! ## What is accepted -/

/-- What `BarbershopCreate` accepts. -/
def BarbershopCreate.Accepted (env : Env) (payload : BarbershopCreate) : Prop :=
  (2 ≤ payload.name.length ∧ payload.name.length ≤ 150) ∧
    (2 ≤ payload.address.length ∧ payload.address.length ≤ 255) ∧
    (1 ≤ payload.city.length ∧ payload.city.length ≤ 100) ∧
    (∀ lat ∈ payload.latitude, -90000000 ≤ lat ∧ lat ≤ 90000000) ∧
    (∀ lng ∈ payload.longitude, -180000000 ≤ lng ∧ lng ≤ 180000000) ∧
    (∀ phone ∈ payload.phone, phone.length ≤ 32) ∧
    payload.timezone.length ≤ 64 ∧ (env.zoneinfo payload.timezone).isSome

/-- What `ShopFilters` accepts. -/
def ShopFilters.Accepted (criteria : ShopFilters) : Prop :=
  (∀ least ∈ criteria.minRating, 0 ≤ least ∧ least ≤ 5) ∧
    (∀ lat ∈ criteria.lat, -90 ≤ lat ∧ lat ≤ 90) ∧
    (∀ lng ∈ criteria.lng, -180 ≤ lng ∧ lng ≤ 180) ∧
    (∀ radius ∈ criteria.radiusKm, 0 < radius ∧ radius ≤ 500) ∧
    criteria.lat.isNone = criteria.lng.isNone ∧
    ¬ (criteria.radiusKm.isSome ∧ criteria.lat.isNone) ∧
    ¬ (criteria.sort = .distance ∧ criteria.lat.isNone)

/-- A request that writes the row of a shop. -/
inductive ShopEdit where
  | create (owner : User) (payload : BarbershopCreate) (id : Uuid)
      (createdAt : ℤ)
  | update (user : User) (id : Uuid) (payload : BarbershopUpdate)

namespace ShopEdit

def request : ShopEdit → Request Unit
  | create owner payload id createdAt => createShop owner payload id createdAt
  | update user id payload => updateShop user id payload

def Accepted (env : Env) : ShopEdit → Prop
  | create _ payload _ _ => payload.Accepted env
  | update _ _ payload => payload.Accepted env

/-- The row as it is to be. -/
def row? (db : Database) : ShopEdit → Option Barbershop
  | create owner payload id createdAt =>
      some (payload.row owner.id id createdAt)
  | update _ id payload => (db.barbershop? id).map payload.written

/-- The state after the request. -/
def perform (db : Database) (edit : ShopEdit) : Database :=
  (edit.request.run db).2

end ShopEdit

/-! ## What is promised -/

/-- Every shop on the page has its coordinates and its distance, and the
nearest come first if that is asked for. -/
structure Measured {F : Type} [LinearOrder F] (criteria : ShopFilters)
    (page : Page (BarbershopRead F)) : Prop where
  distances : ∀ item ∈ page.items, item.distanceKm ≠ none
  located : ∀ item ∈ page.items, item.latitude ≠ none ∧ item.longitude ≠ none
  nearest : criteria.sort = .distance → page.items.Pairwise fun a b =>
    ∀ x ∈ a.distanceKm, ∀ y ∈ b.distanceKm, x ≤ y

section

variable {F : Type} [Add F] [Sub F] [Mul F] [Div F] [LinearOrder F]
  (rules : SearchRules F) (env : Env) (criteria : ShopFilters)

/-- Every page of the search, however its rows are scanned, is measured. -/
def SearchMeasures (db : Database) : Prop :=
  ∀ (scan : Scan (ShopRow F)) (params : PageParams),
    ∃ page, (listShops rules env (some criteria) scan params).run db =
      (.ok page, db) ∧ Measured criteria page

/-- The search has no radius, and the shop satisfies its other conditions and
has a latitude without a longitude. -/
def Unmeasured (db : Database) (shop : Barbershop) : Prop :=
  criteria.radiusKm = none ∧
    conditions rules env db criteria (fun _ => true) shop = true ∧
    shop.latitude ≠ none ∧ shop.longitude = none

end

/-! ## One search -/

section

variable {F : Type} [Add F] [Sub F] [Mul F] [Div F] [LinearOrder F]
  {rules : SearchRules F} {env : Env} {criteria : ShopFilters} {db : Database}
  {shop : Barbershop}

omit [Add F] [Sub F] [Mul F] [Div F] [LinearOrder F] in
theorem conditions_eq (near : Barbershop → Bool) :
    conditions rules env db criteria near shop =
      (conditions rules env db criteria (fun _ => true) shop && near shop) := by
  simp [conditions]

theorem coordinates_of_nearby {origin : ℚ × ℚ}
    (horigin : criteria.origin = some origin)
    (h : nearby rules criteria shop = true) :
    shop.latitude ≠ none ∧
      (shop.longitude ≠ none ∨ criteria.radiusKm = none) := by
  obtain ⟨hlat, hlng⟩ := ShopFilters.origin_eq_some horigin
  rw [nearby] at h
  split at h
  next =>
    rw [Bool.and_eq_true, Barbershop.inBox] at h
    split at h
    next hlat' hlng' => simp [hlat', hlng']
    next => exact absurd h.1 (by simp)
  next hnone =>
    have hradius : criteria.radiusKm = none := by
      by_contra hsome
      obtain ⟨radius, hradius⟩ := Option.ne_none_iff_exists'.mp hsome
      exact hnone radius origin hradius horigin
    refine ⟨?_, Or.inr hradius⟩
    rw [ShopFilters.hasOrigin, hlat, hlng] at h
    exact Option.isSome_iff_ne_none.mp (by simpa using h)

/-- The rows of one page of a search. -/
def pageRows (rules : SearchRules F) (env : Env) (criteria : ShopFilters)
    (db : Database) (scan : Scan (ShopRow F)) (params : PageParams) :
    List (ShopRow F) :=
  slice scan (ordering rules env criteria) params.offset params.limit
    (shopRows rules env db criteria (nearby rules criteria))

theorem run_listShops (rules : SearchRules F) (env : Env)
    (criteria : ShopFilters) (db : Database) (scan : Scan (ShopRow F))
    (params : PageParams) :
    ∃ total, (listShops rules env (some criteria) scan params).run db =
      (.ok (Page.build ((pageRows rules env criteria db scan params).map
        (ShopRow.toRead rules.round2)) total params), db) :=
  ⟨_, rfl⟩

/-- A row of a page is that of a shop the search finds. -/
theorem of_mem_pageRows {origin : ℚ × ℚ} (horigin : criteria.origin = some origin)
    {scan : Scan (ShopRow F)} {params : PageParams} {row : ShopRow F}
    (hrow : row ∈ pageRows rules env criteria db scan params) :
    row.shop ∈ db.barbershops ∧
      conditions rules env db criteria (nearby rules criteria) row.shop = true ∧
      row.distance = some (row.shop.distance rules origin) := by
  have hsorted := List.mem_of_mem_drop (List.mem_of_mem_take hrow)
  rw [List.mem_insertionSort, (scan.perm _).mem_iff, shopRows] at hsorted
  obtain ⟨shop, hshop, rfl⟩ := List.mem_map.mp hsorted
  obtain ⟨hmem, hconditions⟩ := List.mem_filter.mp hshop
  exact ⟨hmem, hconditions, by rw [horigin]; rfl⟩

/-- The page after a row's predecessors has the row. -/
theorem exists_page_of_mem {row : ShopRow F}
    (hrow : row ∈ shopRows rules env db criteria (nearby rules criteria)) :
    ∃ scan params, row ∈ pageRows rules env criteria db scan params := by
  have hsorted := (List.mem_insertionSort (ordering rules env criteria)).mpr hrow
  obtain ⟨i, hi, hget⟩ := List.getElem_of_mem hsorted
  refine ⟨⟨id, fun _ => List.Perm.refl _⟩, ⟨i + 1, 1, by omega, le_rfl⟩, ?_⟩
  rw [pageRows, slice]
  simp only [PageParams.offset, Nat.add_sub_cancel, mul_one, id_eq]
  rw [List.drop_eq_getElem_cons hi, hget]
  exact List.mem_cons_self

/-- The nearest come first on every page. -/
theorem pairwise_pageRows (hsort : criteria.sort = .distance)
    (hhas : criteria.hasOrigin = true) (scan : Scan (ShopRow F))
    (params : PageParams) :
    (pageRows rules env criteria db scan params).Pairwise fun a b =>
      nullsLast (· ≤ ·) a.distance b.distance := by
  have hordered : (pageRows rules env criteria db scan params).Pairwise
      (ordering rules env criteria) :=
    ((preorders_ordering criteria).pairwise_insertionSort _).drop.take
  refine hordered.imp ?_
  intro a b hab
  have hfirst := hab.1
  rw [hsort] at hfirst
  exact hfirst hhas

/-- A search is measured exactly if it finds no shop with a latitude and no
longitude. -/
theorem searchMeasures_iff (hround : Monotone rules.round2) {origin : ℚ × ℚ}
    (horigin : criteria.origin = some origin) :
    SearchMeasures rules env criteria db ↔
      ∀ shop ∈ db.barbershops, ¬ Unmeasured rules env criteria db shop := by
  obtain ⟨hlat, hlng⟩ := ShopFilters.origin_eq_some horigin
  have hhas : criteria.hasOrigin = true := by
    rw [ShopFilters.hasOrigin, hlat, hlng]
    rfl
  constructor
  · rintro hmeasures shop hshop ⟨hradius, hconditions, hlatitude, hlongitude⟩
    have hnear : nearby rules criteria shop = true := by
      rw [nearby, hradius, hhas]
      simpa [Option.isSome_iff_ne_none] using hlatitude
    have hfound : shop ∈ db.barbershops.filter
        (conditions rules env db criteria (nearby rules criteria)) := by
      rw [List.mem_filter, conditions_eq, hconditions, hnear]
      exact ⟨hshop, rfl⟩
    obtain ⟨scan, params, hrow⟩ :=
      exists_page_of_mem (List.mem_map_of_mem hfound)
    obtain ⟨page, hrun, hmeasured⟩ := hmeasures scan params
    obtain ⟨total, hpage⟩ := run_listShops rules env criteria db scan params
    rw [hpage] at hrun
    obtain rfl := Except.ok.inj (Prod.mk.inj hrun).1
    exact (hmeasured.located _ (List.mem_map_of_mem hrow)).2 hlongitude
  · intro hnone scan params
    obtain ⟨total, hpage⟩ := run_listShops rules env criteria db scan params
    have hlocated : ∀ row ∈ pageRows rules env criteria db scan params,
        (row.shop.latitude ≠ none ∧ row.shop.longitude ≠ none) ∧
          row.distance ≠ none := by
      intro row hrow
      obtain ⟨hshop, hconditions, hdistance⟩ := of_mem_pageRows horigin hrow
      rw [conditions_eq, Bool.and_eq_true] at hconditions
      obtain ⟨hlatitude, hlongitude⟩ :=
        coordinates_of_nearby horigin hconditions.2
      have hboth : row.shop.latitude ≠ none ∧ row.shop.longitude ≠ none := by
        refine ⟨hlatitude, fun hnull => ?_⟩
        exact hnone row.shop hshop ⟨hlongitude.resolve_left (not_not.mpr hnull),
          hconditions.1, hlatitude, hnull⟩
      refine ⟨hboth, ?_⟩
      rw [hdistance]
      exact Option.some_ne_none _
    refine ⟨_, hpage, ?_, ?_, ?_⟩
    · intro item hitem
      obtain ⟨row, hrow, rfl⟩ := List.mem_map.mp hitem
      simpa [ShopRow.toRead] using (hlocated row hrow).2
    · intro item hitem
      obtain ⟨row, hrow, rfl⟩ := List.mem_map.mp hitem
      exact (hlocated row hrow).1
    · intro hsort
      refine List.pairwise_map.mpr
        ((pairwise_pageRows hsort hhas scan params).imp ?_)
      intro a b hab x hx y hy
      obtain ⟨near, hnear, rfl⟩ := Option.map_eq_some_iff.mp hx
      obtain ⟨far, hfar, rfl⟩ := Option.map_eq_some_iff.mp hy
      rw [hnear, hfar] at hab
      exact hround hab

end

/-! ## One edit -/

section

variable {env : Env} {db : Database} {edit : ShopEdit}

theorem endsInWrite_shopEdit (edit : ShopEdit) : edit.request.EndsInWrite := by
  cases edit with
  | create owner payload id createdAt => exact endsInWrite_write _
  | update user id payload =>
      exact EndsInWrite.after (readOnly_getShopOr404 _ _) fun shop =>
        EndsInWrite.after (readOnly_ensureCanManageShop _ _) fun _ =>
          endsInWrite_write _

/-- A refused edit leaves the state as it was. -/
theorem ShopEdit.perform_of_refused (h : (edit.request.run db).1 ≠ .ok ()) :
    edit.perform db = db := by
  rw [ShopEdit.perform]
  rcases hrun : edit.request.run db with ⟨e | _, t⟩
  · exact (endsInWrite_shopEdit edit).rollsBack db t e hrun
  · rw [hrun] at h
    exact absurd rfl h

/-- The edit writes the row it is to write and no other. -/
structure ShopEdit.Wrote (db : Database) (edit : ShopEdit) (row : Barbershop) :
    Prop where
  written : edit.row? db = some row
  frame : edit.perform db =
    { db with barbershops := (edit.perform db).barbershops }
  keys : UniqueKeys Barbershop.id (edit.perform db).barbershops
  mem : row ∈ (edit.perform db).barbershops
  others : ∀ shop ∈ (edit.perform db).barbershops,
    shop ∈ db.barbershops ∨ shop = row

theorem ShopEdit.wrote_create {owner : User} {payload : BarbershopCreate}
    {id : Uuid} {createdAt : ℤ}
    (hkeys : UniqueKeys Barbershop.id db.barbershops)
    (h : ((create owner payload id createdAt).request.run db).1 = .ok ()) :
    (create owner payload id createdAt).Wrote db
      (payload.row owner.id id createdAt) := by
  rcases run_commit_cases (insertShop (payload.row owner.id id createdAt))
      (done (.ok ())) db with ⟨e, -, hrefused⟩ | ⟨db', hinsert, hrun⟩
  · rw [request, createShop, write, hrefused] at h
    exact absurd h (by simp)
  · have hperform : (create owner payload id createdAt).perform db = db' := by
      rw [perform, request, createShop, write, hrun, run_done]
    obtain rfl := insertShop_eq_ok hinsert
    have hfresh : db.barbershop? id = none := by
      rw [insertShop] at hinsert
      exact enforce_eq_ok (bind_eq_ok_iff.mp hinsert).choose_spec.1
    refine ⟨rfl, by rw [hperform], ?_, ?_, ?_⟩
    · rw [hperform]
      exact hkeys.append_singleton (lookup_eq_none_iff.mp hfresh)
    · rw [hperform]
      exact List.mem_append_right _ (List.mem_singleton_self _)
    · rw [hperform]
      intro shop hshop
      exact (List.mem_append.mp hshop).imp_right List.mem_singleton.mp

theorem ShopEdit.wrote_update {user : User} {id : Uuid}
    {payload : BarbershopUpdate} (haccepted : payload.Accepted env)
    (hkeys : UniqueKeys Barbershop.id db.barbershops)
    (h : ((update user id payload).request.run db).1 = .ok ()) :
    ∃ row, (update user id payload).Wrote db row := by
  have hrun : (update user id payload).request.run db =
      (.ok (), (update user id payload).perform db) := Prod.ext h rfl
  obtain ⟨row, s, hload, hrest⟩ := run_bind_eq_ok_iff.mp hrun
  obtain ⟨hrow, -, rfl⟩ := run_getShopOr404_eq_ok_iff.mp hload
  have hmay : canManageShop (some user) row = true :=
    (run_require_bind_eq_ok_iff.mp hrest).1
  have hwrite : (update user id payload).request.run s =
      (write (flushShop id (payload.changes row))).run s :=
    PartialUpdate.run_updateShop hrow hmay
  rcases flushShop_changes haccepted hkeys hrow with
    ⟨hok, -⟩ | ⟨herror, -⟩ | ⟨herror, -⟩
  · rw [write, run_commit_ok hok] at hwrite
    have hperform : (update user id payload).perform s = { s with
        barbershops := updateAt Barbershop.id id
          (fun _ => payload.written row) s.barbershops } := by
      rw [perform, hwrite, run_done]
    have hid : row.id = id := key_of_lookup hrow
    refine ⟨payload.written row, ?_, by rw [hperform], ?_, ?_, ?_⟩
    · rw [row?, hrow, Option.map_some]
    · rw [hperform]
      refine hkeys.updateAt fun old _ hold => ?_
      rw [hold]
      exact hid
    · rw [hperform]
      exact mem_updateAt.mpr (Or.inr ⟨row, mem_of_lookup hrow, hid, rfl⟩)
    · rw [hperform]
      intro shop hshop
      rcases mem_updateAt.mp hshop with ⟨hmem, -⟩ | ⟨_, -, -, rfl⟩
      · exact Or.inl hmem
      · exact Or.inr rfl
  · rw [write, run_commit_error herror] at hwrite
    rw [hwrite] at h
    exact absurd h (by simp)
  · rw [write, run_commit_error herror] at hwrite
    rw [hwrite] at h
    exact absurd h (by simp)

/-- An edit that goes through writes its row. -/
theorem ShopEdit.wrote_of_ok (haccepted : edit.Accepted env)
    (hkeys : UniqueKeys Barbershop.id db.barbershops)
    (h : (edit.request.run db).1 = .ok ()) : ∃ row, edit.Wrote db row := by
  cases edit with
  | create owner payload id createdAt => exact ⟨_, wrote_create hkeys h⟩
  | update user id payload => exact wrote_update haccepted hkeys h

end

/-! ## Runs -/

section

variable {F : Type} {rules : SearchRules F} {env : Env}
  {criteria : ShopFilters} {db : Database} {edit : ShopEdit}

/-- If the edit goes through, the search does not find its shop with a latitude
and no longitude. -/
def ShopEdit.StaysMeasured (rules : SearchRules F) (env : Env)
    (criteria : ShopFilters) (db : Database) (edit : ShopEdit) : Prop :=
  (edit.request.run db).1 = .ok () →
    ∀ row ∈ edit.row? db, ¬ Unmeasured rules env criteria db row

/-- Every shop has its key, and none is found without a longitude. -/
structure AllMeasured (rules : SearchRules F) (env : Env)
    (criteria : ShopFilters) (db : Database) : Prop where
  keys : UniqueKeys Barbershop.id db.barbershops
  measured : ∀ shop ∈ db.barbershops, ¬ Unmeasured rules env criteria db shop

/-- Writing shops does not change which of them the search finds. -/
theorem unmeasured_congr {rows : List Barbershop} {shop : Barbershop} :
    Unmeasured rules env criteria { db with barbershops := rows } shop ↔
      Unmeasured rules env criteria db shop :=
  Iff.rfl

theorem AllMeasured.perform (h : AllMeasured rules env criteria db)
    (haccepted : edit.Accepted env)
    (hstays : edit.StaysMeasured rules env criteria db) :
    AllMeasured rules env criteria (edit.perform db) := by
  by_cases hok : (edit.request.run db).1 = .ok ()
  · obtain ⟨row, hwrote⟩ := ShopEdit.wrote_of_ok haccepted h.keys hok
    refine ⟨hwrote.keys, ?_⟩
    intro shop hshop
    rw [hwrote.frame, unmeasured_congr]
    rcases hwrote.others shop hshop with hold | rfl
    · exact h.measured shop hold
    · exact hstays hok shop hwrote.written
  · rw [ShopEdit.perform_of_refused hok]
    exact h

theorem AllMeasured.staysMeasured (h : AllMeasured rules env criteria db)
    (haccepted : edit.Accepted env)
    (hafter : ∀ shop ∈ (edit.perform db).barbershops,
      ¬ Unmeasured rules env criteria (edit.perform db) shop) :
    edit.StaysMeasured rules env criteria db := by
  intro hok row hrow
  obtain ⟨written, hwrote⟩ := ShopEdit.wrote_of_ok haccepted h.keys hok
  obtain rfl := Option.some.inj (hwrote.written.symm.trans hrow)
  have hmeasured := hafter written hwrote.mem
  rw [hwrote.frame, unmeasured_congr] at hmeasured
  exact hmeasured

variable [Add F] [Sub F] [Mul F] [Div F] [LinearOrder F]

/-- After every edit of a history that begins without shops, a search with an
origin is measured exactly if no edit leaves a shop that the search finds with a
latitude and without a longitude. -/
theorem searchMeasures_along_iff (hround : Monotone rules.round2)
    {lat lng : ℚ} (hlat : criteria.lat = some lat) (hlng : criteria.lng = some lng)
    (hempty : db.barbershops = []) {edits : List ShopEdit}
    (haccepted : ∀ edit ∈ edits, edit.Accepted env) :
    (∀ seen, seen <+: edits →
      SearchMeasures rules env criteria (seen.foldl ShopEdit.perform db)) ↔
    Runs.Along ShopEdit.perform (ShopEdit.StaysMeasured rules env criteria) db
      edits := by
  have horigin : criteria.origin = some (lat, lng) := by
    rw [ShopFilters.origin, hlat, hlng]
  have hstart : AllMeasured rules env criteria db := by
    refine ⟨?_, ?_⟩
    · rw [hempty]
      exact List.nodup_nil
    · rw [hempty]
      exact List.forall_mem_nil _
  clear hempty
  induction edits generalizing db with
  | nil =>
      refine iff_of_true ?_ trivial
      intro seen hseen
      rw [List.prefix_nil.mp hseen]
      exact (searchMeasures_iff hround horigin).mpr hstart.measured
  | cons edit edits ih =>
      obtain ⟨hedit, hedits⟩ := List.forall_mem_cons.mp haccepted
      constructor
      · intro hmeasures
        have hafter := (searchMeasures_iff hround horigin).mp
          (hmeasures [edit] (by simp))
        have hstays := hstart.staysMeasured hedit hafter
        refine ⟨hstays, (ih hedits (hstart.perform hedit hstays)).mp ?_⟩
        intro seen hseen
        exact hmeasures (edit :: seen) (by simpa using hseen)
      · rintro ⟨hstays, hrest⟩ seen hseen
        cases seen with
        | nil => exact (searchMeasures_iff hround horigin).mpr hstart.measured
        | cons first seen =>
            obtain ⟨rfl, htail⟩ := List.cons_prefix_cons.mp hseen
            exact (ih hedits (hstart.perform hedit hstays)).mpr hrest seen htail

end

/-! ## A sample -/

namespace Sample

/-- The accounts of the sample, before there is a shop. -/
def newDb : Database where
  users := db.users

/-- A shop with both coordinates. -/
def locatedShop : BarbershopCreate where
  name := "Sample shop"
  description := none
  address := "1 Main Street"
  city := "Almaty"
  latitude := some 43238949
  longitude := some 76889709
  phone := none
  timezone := "UTC"
  requiresConfirmation := false

/-- A search around a point of Almaty. -/
def nearAlmaty : ShopFilters where
  lat := some 43
  lng := some 77

end Sample

theorem monotone_exactRules_round2 : Monotone exactRules.round2 := by
  intro x y hxy
  have hround : round (100 * x) ≤ round (100 * y) := by
    rw [round_eq, round_eq]
    exact Int.floor_le_floor (by linarith)
  have hcast : (round (100 * x) : ℝ) ≤ round (100 * y) := by exact_mod_cast hround
  exact div_le_div_of_nonneg_right hcast (by norm_num)

theorem accepted_locatedShop : Sample.locatedShop.Accepted Sample.env := by
  refine ⟨by decide, by decide, by decide, ?_, ?_, nofun, by decide, rfl⟩
  · intro lat hlat
    obtain rfl := Option.some.inj hlat
    decide
  · intro lng hlng
    obtain rfl := Option.some.inj hlng
    decide

/-- A shop that is created with both coordinates is measured. -/
theorem searchMeasures_located :
    SearchMeasures exactRules Sample.env Sample.nearAlmaty
      ([ShopEdit.create Sample.owner Sample.locatedShop 11 0].foldl
        ShopEdit.perform Sample.newDb) := by
  have haccepted : ∀ edit ∈ [ShopEdit.create Sample.owner Sample.locatedShop 11 0],
      edit.Accepted Sample.env := by
    intro edit hedit
    obtain rfl := List.mem_singleton.mp hedit
    exact accepted_locatedShop
  refine (searchMeasures_along_iff monotone_exactRules_round2 rfl rfl rfl
    haccepted).mpr ?_ _ List.prefix_rfl
  refine ⟨?_, trivial⟩
  intro _ row hrow hunmeasured
  obtain rfl := Option.some.inj hrow
  exact absurd hunmeasured.2.2.2 nofun

/-- A shop with its latitude alone. -/
def Sample.halfLocatedShop : BarbershopCreate :=
  { Sample.locatedShop with longitude := none }

/-- The shop there is after its creation. -/
def Sample.halfLocatedDb : Database :=
  (ShopEdit.create Sample.owner Sample.halfLocatedShop 11 0).perform
    Sample.newDb

/-- The search finds the shop, and shows it half the way round the earth. -/
theorem exists_item_halfLocated :
    ∃ scan params page, (listShops exactRules Sample.env
        (some Sample.nearAlmaty) scan params).run Sample.halfLocatedDb =
          (.ok page, Sample.halfLocatedDb) ∧
      ∃ item ∈ page.items, item.longitude = none ∧
        item.distanceKm = some (exactRules.round2 (6371 * Real.pi)) := by
  have hfound : Sample.halfLocatedShop.row 2 11 0 ∈
      Sample.halfLocatedDb.barbershops.filter (conditions exactRules Sample.env
        Sample.halfLocatedDb Sample.nearAlmaty
          (nearby exactRules Sample.nearAlmaty)) :=
    List.mem_filter.mpr ⟨List.mem_cons_self, rfl⟩
  obtain ⟨scan, params, hrow⟩ := exists_page_of_mem (List.mem_map_of_mem hfound)
  obtain ⟨total, hpage⟩ := run_listShops exactRules Sample.env
    Sample.nearAlmaty Sample.halfLocatedDb scan params
  refine ⟨scan, params, _, hpage, _, List.mem_map_of_mem hrow, rfl, ?_⟩
  have hfar : (Sample.halfLocatedShop.row 2 11 0).distance exactRules (43, 77) =
      6371 * Real.pi := haversineKm_exact_of_null _ _ (Or.inr rfl)
  exact congrArg (fun distance => some (exactRules.round2 distance)) hfar

/-- A shop that is created with its latitude alone is found. -/
theorem not_searchMeasures_latitude :
    Sample.halfLocatedShop.Accepted Sample.env ∧
    Sample.nearAlmaty.Accepted ∧
    ¬ SearchMeasures exactRules Sample.env Sample.nearAlmaty
      Sample.halfLocatedDb ∧
    ∃ scan params page, (listShops exactRules Sample.env
        (some Sample.nearAlmaty) scan params).run Sample.halfLocatedDb =
          (.ok page, Sample.halfLocatedDb) ∧
      ∃ item ∈ page.items, item.longitude = none ∧
        item.distanceKm = some (exactRules.round2 (6371 * Real.pi)) := by
  obtain ⟨hname, haddress, hcity, hlat, -, hrest⟩ := accepted_locatedShop
  refine ⟨⟨hname, haddress, hcity, hlat, nofun, hrest⟩, ?_, ?_,
    exists_item_halfLocated⟩
  · refine ⟨nofun, ?_, ?_, nofun, rfl, by decide, by decide⟩
    · intro lat hlat
      obtain rfl := Option.some.inj hlat
      norm_num
    · intro lng hlng
      obtain rfl := Option.some.inj hlng
      norm_num
  · rw [searchMeasures_iff monotone_exactRules_round2 rfl]
    intro hnone
    exact hnone _ List.mem_cons_self ⟨rfl, rfl, nofun, rfl⟩

end BarberHub
