import BarberHub.Search.BoundingBox
import BarberHub.Search.Listings

/-!
# Pages partition the result

The four listings, over one state of the database: for every page size, and
whatever the order in which each request comes to see the rows, the pages make
up one list, which is that of the rows that satisfy the conditions in the order
requested.
-/

namespace BarberHub

open KeyedTable ReadCommitted Program Grouping Paging Fallible

/-- The pages of one size make up the items: `answers n` is page `n`. -/
structure Partition {α : Type} (answers : ℕ → Page α) (limit : ℕ)
    (items : List α) : Prop where
  total : ∀ n, 1 ≤ n → (answers n).total = items.length
  pages : ∀ n, 1 ≤ n →
    IsLeast {count | items.length ≤ count * limit} (answers n).pages
  concat : ∀ n, 1 ≤ n → ((List.range (answers n).pages).flatMap fun i =>
    (answers (i + 1)).items) = items
  later : ∀ n, 1 ≤ n → (answers n).pages < n → (answers n).items = []

/-- There is one list of the rows in order, each of them once, that the answers
to the requests for pages make up as `read` shows its rows. -/
def PagedBy {ρ α : Type} (request : Scan ρ → PageParams → Request (Page α))
    (db : Database) (rows : List ρ) (le : ρ → ρ → Prop)
    (read : ρ → Except Raised α) : Prop :=
  ∃ (sorted : List ρ) (items : List α), sorted.Perm rows ∧ sorted.Nodup ∧
    sorted.Pairwise le ∧ sorted.mapM read = .ok items ∧
    ∀ (limit : ℕ) (hlimit : 1 ≤ limit) (scans : ℕ → Scan ρ),
      ∃ answers : ℕ → Page α,
        (∀ n (hn : 1 ≤ n), (request (scans n) ⟨n, limit, hn, hlimit⟩).run db =
          (.ok (answers n), db)) ∧ Partition answers limit items

/-! ## One page -/

/-- The page a request answers with, out of all items. -/
def pageOf {α : Type} (items : List α) (limit n : ℕ) : Page α where
  items := (items.drop ((n - 1) * limit)).take limit
  total := items.length
  page := n
  limit := limit
  pages := ⌈(items.length / limit : ℚ)⌉₊

theorem partition_pageOf {α : Type} (items : List α) {limit : ℕ}
    (hlimit : 1 ≤ limit) : Partition (pageOf items limit) limit items where
  total _ _ := rfl
  pages _ _ := isLeast_ceil items.length hlimit
  concat n _ := by
    have hroom := (isLeast_ceil items.length hlimit).1
    exact (flatMap_take_drop items limit _).trans (List.take_of_length_le hroom)
  later n hn hlater := by
    have hroom := (isLeast_ceil items.length hlimit).1
    have hbefore : ⌈(items.length / limit : ℚ)⌉₊ ≤ n - 1 :=
      Nat.le_sub_one_of_lt hlater
    have hpast : items.length ≤ (n - 1) * limit :=
      le_trans hroom (Nat.mul_le_mul_right limit hbefore)
    simp [pageOf, List.drop_eq_nil_of_le hpast]

/-- A request that reads its piece of the sorted rows and counts them all
answers with a page of one list, if the order tells the rows apart. -/
theorem pagedBy_of_run
    {ρ α : Type} {request : Scan ρ → PageParams → Request (Page α)}
    {db : Database} {rows : List ρ} {le : ρ → ρ → Prop} [DecidableRel le]
    {read : ρ → Except Raised α} (hle : Preorders le)
    (hseparates : Separates le rows) (hnodup : rows.Nodup)
    (hread : ∀ row ∈ rows, ∃ item, read row = .ok item)
    (hrun : ∀ scan params items,
      (slice scan le params.offset params.limit rows).mapM read = .ok items →
      (request scan params).run db =
        (.ok (Page.build items rows.length params), db)) :
    PagedBy request db rows le read := by
  have hperm := List.perm_insertionSort le rows
  have hsorted : ∀ row ∈ rows.insertionSort le, ∃ item, read row = .ok item :=
    fun row hrow => hread row (hperm.mem_iff.mp hrow)
  obtain ⟨items, hitems⟩ := exists_mapM_eq_ok hsorted
  have hlength : items.length = rows.length :=
    (length_of_mapM hitems).trans hperm.length_eq
  refine ⟨rows.insertionSort le, items, hperm, hperm.nodup_iff.mpr hnodup,
    hle.pairwise_insertionSort rows, hitems, ?_⟩
  intro limit hlimit scans
  refine ⟨pageOf items limit, ?_, partition_pageOf items hlimit⟩
  intro n hn
  have hpiece : (slice (scans n) le ((n - 1) * limit) limit rows).mapM read =
      .ok ((items.drop ((n - 1) * limit)).take limit) := by
    rw [slice_eq hle hseparates]
    exact mapM_take_drop hitems _ _
  rw [hrun (scans n) ⟨n, limit, hn, hlimit⟩ _ hpiece, ← hlength, Page.build,
    if_pos (Nat.ne_of_gt hlimit)]
  rfl

/-! ## Shops -/

section

variable {F : Type} [LinearOrder F] {rules : SearchRules F} {env : Env}
  {db : Database}

theorem preorders_primary (sort : ShopSort) (hasOrigin : Bool) :
    Preorders (primary rules env sort hasOrigin) := by
  have hnames := rules.collation.preorders.comap
    fun row : ShopRow F => env.lower row.shop.name
  cases sort with
  | ratingDesc => exact preorders_le.swap.comap ShopRow.rating
  | ratingAsc => exact preorders_le.comap ShopRow.rating
  | nameAsc => exact hnames
  | nameDesc => exact hnames.swap
  | newest => exact preorders_le.swap.comap fun row : ShopRow F => row.shop.createdAt
  | oldest => exact preorders_le.comap fun row : ShopRow F => row.shop.createdAt
  | distance =>
      have hdistance := preorders_le.nullsLast.comap (ShopRow.distance (F := F))
      cases hasOrigin with
      | false => exact ⟨fun _ _ => Or.inl nofun, fun _ _ => nofun⟩
      | true =>
          exact ⟨fun a b => (hdistance.total a b).imp (fun h _ => h) fun h _ => h,
            fun hab hbc _ => hdistance.trans (hab rfl) (hbc rfl)⟩

theorem preorders_ordering (criteria : ShopFilters) :
    Preorders (ordering rules env criteria) :=
  (preorders_primary _ _).thenBy (preorders_le.comap fun row : ShopRow F => row.shop.id)

variable [Add F] [Sub F] [Mul F]

/-- The rows of a search are those of different shops. -/
theorem nodup_shopRows (rules : SearchRules F) (env : Env)
    (hkeys : UniqueKeys Barbershop.id db.barbershops)
    (criteria : ShopFilters) (near : Barbershop → Bool) :
    ((shopRows rules env db criteria near).map fun row => row.shop.id).Nodup := by
  rw [shopRows, List.map_map]
  exact hkeys.sublist (List.filter_sublist.map _)

theorem pagedBy_listShopsWhere (hkeys : UniqueKeys Barbershop.id db.barbershops)
    (criteria : ShopFilters) (near : Barbershop → Bool) :
    PagedBy (listShopsWhere rules env criteria near) db
      (shopRows rules env db criteria near) (ordering rules env criteria)
      fun row => .ok (row.toRead rules.round2) := by
  have hids := nodup_shopRows rules env hkeys criteria near
  refine pagedBy_of_run (preorders_ordering criteria)
    (separates_key hids).thenBy hids.of_map (fun row _ => ⟨_, rfl⟩) ?_
  intro scan params items hitems
  rw [mapM_ok] at hitems
  rw [← Except.ok.inj hitems, listShopsWhere]
  simp only [query_bind, run_read, pure_eq_done, run_done, shopRows,
    List.length_map]

end

/-! ## Appointments and reviews -/

section

variable {db : Database}

/-- The pages depend on the requests through their answers. -/
theorem PagedBy.congr
    {ρ α : Type} {request request' : Scan ρ → PageParams → Request (Page α)}
    {rows : List ρ} {le : ρ → ρ → Prop} {read : ρ → Except Raised α}
    (hpaged : PagedBy request db rows le read)
    (h : ∀ scan params,
      (request' scan params).run db = (request scan params).run db) :
    PagedBy request' db rows le read := by
  obtain ⟨sorted, items, hperm, hnodup, hsorted, hread, hpages⟩ := hpaged
  refine ⟨sorted, items, hperm, hnodup, hsorted, hread, ?_⟩
  intro limit hlimit scans
  obtain ⟨answers, hrun, hpartition⟩ := hpages limit hlimit scans
  exact ⟨answers, fun n hn => (h _ _).trans (hrun n hn), hpartition⟩

theorem pagedBy_paginate (hdb : db.Valid) {stmt : Database → List Appointment}
    (hstmt : (stmt db).Sublist db.appointments) (filters : AppointmentFilters) :
    PagedBy (fun scan params => paginate stmt scan params filters) db
      (applyFilters stmt filters db) byStart fun a => (db.eager a).toRead := by
  have hrows : (applyFilters stmt filters db).Sublist db.appointments :=
    List.filter_sublist.trans hstmt
  have hids : ((applyFilters stmt filters db).map Appointment.id).Nodup :=
    hdb.keys.appointments.sublist (hrows.map _)
  refine pagedBy_of_run preorders_byStart (separates_key hids).thenBy hids.of_map
    (fun a ha => exists_toRead_eager hdb.references (hrows.subset ha)) ?_
  intro scan params items hitems
  have hread : ((slice scan byStart params.offset params.limit
      (applyFilters stmt filters db)).map db.eager).mapM
        LoadedAppointment.toRead = .ok items := by
    rw [List.mapM_map]
    exact hitems
  rw [paginate]
  simp only [query_bind, run_read, hread, ofExcept_ok_bind, pure_eq_done,
    run_done]

theorem pagedBy_listBarberReviews (hdb : db.Valid) {barberId : Uuid}
    (hbarber : (db.barber? barberId).isSome) :
    PagedBy (listBarberReviews barberId) db (db.reviewsOf barberId) byNewest
      fun r => r.toRead (db.user? r.customerId) := by
  have hrows : (db.reviewsOf barberId).Sublist db.reviews := List.filter_sublist
  have hids : ((db.reviewsOf barberId).map Review.id).Nodup :=
    hdb.keys.reviews.sublist (hrows.map _)
  obtain ⟨barber, hbarber⟩ := Option.isSome_iff_exists.mp hbarber
  refine pagedBy_of_run preorders_byNewest (separates_key hids).thenBy
    hids.of_map ?_ ?_
  · intro r hr
    obtain ⟨customer, hcustomer⟩ := Option.isSome_iff_exists.mp
      (hdb.references.reviews r (hrows.subset hr)).1
    exact ⟨_, by rw [hcustomer]; rfl⟩
  · intro scan params items hitems
    have hread : ((slice scan byNewest params.offset params.limit
        (db.reviewsOf barberId)).map fun r =>
          (r, db.user? r.customerId)).mapM (fun row => row.1.toRead row.2) =
            .ok items := by
      rw [List.mapM_map]
      exact hitems
    rw [listBarberReviews]
    simp only [query_bind, run_read, hbarber, rowOr, pure_eq_done, done_ok_bind,
      hread, ofExcept_ok_bind, run_done]

end

/-! ## The listings -/

/-- A request for a list, but for the page. -/
inductive Listing where
  | shops (filters : Option ShopFilters)
  | myAppointments (user : User) (filters : AppointmentFilters) (asBarber : Bool)
  | shopAppointments (user : User) (shopId : Uuid) (filters : AppointmentFilters)
  | barberReviews (barberId : Uuid)

namespace Listing

/-- The listing is not refused. -/
def Accepted (db : Database) : Listing → Prop
  | shops _ => True
  | myAppointments user _ asBarber =>
      asBarber = true → ∃ barber ∈ db.barbers, barber.userId = user.id
  | shopAppointments user shopId _ => ∃ shop, db.barbershop? shopId = some shop ∧
      (user.role = .admin ∨ shop.ownerId = user.id)
  | barberReviews barberId => (db.barber? barberId).isSome

/-- The pages make up the rows of the table that satisfy the conditions, in the
order requested. -/
def Partitioned {F : Type} [Add F] [Sub F] [Mul F] [Div F] [LinearOrder F]
    (rules : SearchRules F) (env : Env) (db : Database) : Listing → Prop
  | shops filters =>
      let criteria := filters.getD {}
      PagedBy (listShops rules env filters) db
        (shopRows rules env db criteria (nearby rules criteria))
        (ordering rules env criteria) fun row => .ok (row.toRead rules.round2)
  | myAppointments user filters asBarber =>
      PagedBy (listMyAppointments user filters asBarber) db
        (db.appointments.filter fun a =>
          (if asBarber then (db.barber? a.barberId).any fun b => b.userId = user.id
            else a.customerId = user.id) && filters.admits a)
        byStart fun a => (db.eager a).toRead
  | shopAppointments user shopId filters =>
      PagedBy (listShopAppointments user shopId filters) db
        (db.appointments.filter fun a =>
          ((db.barber? a.barberId).any fun b => b.shopId = shopId) &&
            filters.admits a)
        byStart fun a => (db.eager a).toRead
  | barberReviews barberId =>
      PagedBy (listBarberReviews barberId) db (db.reviewsOf barberId) byNewest
        fun r => r.toRead (db.user? r.customerId)

end Listing

section

variable {db : Database}

theorem applyFilters_of_filter {stmt : Database → List Appointment}
    {keep : Appointment → Bool} (h : stmt db = db.appointments.filter keep)
    (filters : AppointmentFilters) :
    applyFilters stmt filters db =
      db.appointments.filter fun a => keep a && filters.admits a := by
  rw [applyFilters, h, List.filter_filter]
  apply List.filter_congr
  intro a _
  exact Bool.and_comm _ _

/-- A statement on some of the appointments, page by page. -/
theorem pagedBy_paginate_filter (hdb : db.Valid)
    (stmt : Database → List Appointment) {keep : Appointment → Bool}
    (h : stmt db = db.appointments.filter keep) (filters : AppointmentFilters) :
    PagedBy (fun scan params => paginate stmt scan params filters) db
      (db.appointments.filter fun a => keep a && filters.admits a) byStart
      fun a => (db.eager a).toRead := by
  rw [← applyFilters_of_filter h]
  refine pagedBy_paginate hdb ?_ filters
  rw [h]
  exact List.filter_sublist

/-- The barbers of an account, by their appointments. -/
theorem mem_barberIds_iff (h : UniqueKeys Barber.id db.barbers) (user : User)
    (id : Uuid) :
    id ∈ (db.barbers.filter fun b => b.userId = user.id).map Barber.id ↔
      ((db.barber? id).any fun b => b.userId = user.id) = true := by
  rw [List.mem_map, Option.any_eq_true]
  simp only [List.mem_filter, decide_eq_true_eq, h.lookup_eq_some_iff,
    Database.barber?]
  constructor
  · rintro ⟨b, ⟨hb, hown⟩, hid⟩
    exact ⟨b, ⟨hb, hid⟩, hown⟩
  · rintro ⟨b, ⟨hb, hid⟩, hown⟩
    exact ⟨b, ⟨hb, hown⟩, hid⟩

theorem partitioned_myAppointments (hdb : db.Valid) {user : User}
    {filters : AppointmentFilters} {asBarber : Bool}
    (haccepted : (Listing.myAppointments user filters asBarber).Accepted db) :
    PagedBy (listMyAppointments user filters asBarber) db
      (db.appointments.filter fun a =>
        (if asBarber then (db.barber? a.barberId).any fun b => b.userId = user.id
          else a.customerId = user.id) && filters.admits a)
      byStart fun a => (db.eager a).toRead := by
  cases asBarber with
  | false => exact pagedBy_paginate_filter hdb _ rfl filters
  | true =>
      obtain ⟨barber, hbarber, huser⟩ := haccepted rfl
      have hids : (db.barbers.filter fun b => b.userId = user.id).map Barber.id ≠
          [] := by
        intro hnone
        rw [List.map_eq_nil_iff, List.filter_eq_nil_iff] at hnone
        exact hnone barber hbarber (decide_eq_true huser)
      have hmine : (db.appointments.filter fun a => a.barberId ∈
          (db.barbers.filter fun b => b.userId = user.id).map Barber.id) =
          db.appointments.filter fun a =>
            (db.barber? a.barberId).any fun b => b.userId = user.id := by
        apply List.filter_congr
        intro a _
        rw [decide_eq_decide.mpr (mem_barberIds_iff hdb.keys.barbers user _),
          Bool.decide_coe]
      have hpaged := pagedBy_paginate_filter hdb (fun db' =>
        db'.appointments.filter fun a => a.barberId ∈
          (db.barbers.filter fun b => b.userId = user.id).map Barber.id)
        hmine filters
      refine hpaged.congr fun scan params => ?_
      rw [listMyAppointments, if_pos rfl, query_bind, run_read, require,
        if_pos hids]
      rfl

theorem partitioned_shopAppointments (hdb : db.Valid) {user : User}
    {shopId : Uuid} {filters : AppointmentFilters}
    (haccepted : (Listing.shopAppointments user shopId filters).Accepted db) :
    PagedBy (listShopAppointments user shopId filters) db
      (db.appointments.filter fun a =>
        ((db.barber? a.barberId).any fun b => b.shopId = shopId) &&
          filters.admits a)
      byStart fun a => (db.eager a).toRead := by
  obtain ⟨shop, hshop, hmay⟩ := haccepted
  have hpaged := pagedBy_paginate_filter hdb (Database.bookedAt shopId)
    (bookedAt_eq_filter shopId hdb.keys.barbers) filters
  refine hpaged.congr fun scan params => ?_
  have hload : (getShopOr404 shopId (some user)).run db = (.ok shop, db) := by
    refine run_getShopOr404_eq_ok_iff.mpr ⟨hshop, Or.inr ?_, rfl⟩
    simpa [canManageShop] using hmay
  rw [listShopAppointments, run_bind_of_ok hload, require, if_pos hmay]
  rfl

end

end BarberHub
