import BarberHub.Search.Shops
import BarberHub.Slots.Totality
import BarberHub.System.Integrity
import BarberHub.System.OneShop

/-!
# What a shop shows

The reads behind the page of a shop: `get_shop` of `app/services/barbershop.py`,
`list_barbers` and `get_barber` of `barber_directory.py` and `list_services` of
`service_catalog.py`.  What is shown there as on sale is what the availability
endpoint has slots for.
-/

namespace BarberHub

open KeyedTable ReadCommitted Program Pool Grouping Fallible Database

/-! ## The answers -/

structure ServiceRead where
  id : Uuid
  shopId : Uuid
  name : String
  description : Option String
  durationMinutes : ℤ
  price : ℤ
  isActive : Bool
  deriving DecidableEq, Repr

def Service.toRead (service : Service) : ServiceRead where
  id := service.id
  shopId := service.shopId
  name := service.name
  description := service.description
  durationMinutes := service.durationMinutes
  price := service.price
  isActive := service.isActive

structure BarberRead where
  id : Uuid
  userId : Uuid
  shopId : Uuid
  firstName : String
  lastName : String
  bio : Option String
  experienceYears : ℤ
  /-- In hundredths. -/
  rating : ℤ
  reviewsCount : ℤ
  isActive : Bool
  services : List ServiceRead
  deriving DecidableEq, Repr

/-- A barber with what `_loaded` loads beside the row. -/
structure LoadedBarber where
  barber : Barber
  user : Option User
  services : List Service
  deriving DecidableEq, Repr

def Database.loadedBarber (db : Database) (barber : Barber) : LoadedBarber where
  barber := barber
  user := db.user? barber.userId
  services := (db.servicesOf barber.id).filterMap db.service?

/-- `_to_read` of a barber and their account. -/
def Barber.toRead (barber : Barber) (user : User) (services : List Service) :
    BarberRead where
  id := barber.id
  userId := barber.userId
  shopId := barber.shopId
  firstName := user.firstName
  lastName := user.lastName
  bio := barber.bio
  experienceYears := barber.experienceYears
  rating := barber.rating
  reviewsCount := barber.reviewsCount
  isActive := barber.isActive
  services := (services.filter (·.isActive)).map Service.toRead

/-- `_to_read`. -/
def LoadedBarber.toRead (loaded : LoadedBarber) : Except Raised BarberRead :=
  match loaded.user with
  | some user => .ok (loaded.barber.toRead user loaded.services)
  | none => .error .attributeError

/-! ## The reads -/

/-- `_is_staff`. -/
def isStaff (viewer : Option User) (shop : Barbershop) : Bool :=
  viewer.any fun viewer => viewer.role = .admin ∨ shop.ownerId = viewer.id

/-- `ORDER BY rating DESC, id`. -/
def Barber.listedBefore : Barber → Barber → Prop :=
  thenBy (fun a b => b.rating ≤ a.rating) fun a b => a.id ≤ b.id

instance : DecidableRel Barber.listedBefore :=
  inferInstanceAs (DecidableRel (thenBy _ _))

namespace Database

/-- The barbers of a shop, all of them for its staff. -/
def barbersShown (db : Database) (viewer : Option User) (shop : Barbershop) :
    List Barber :=
  db.barbers.filter fun b =>
    b.shopId = shop.id ∧ (isStaff viewer shop = true ∨ b.isActive = true)

/-- The services of a shop, retired ones for its staff. -/
def servicesShown (db : Database) (viewer : Option User) (shop : Barbershop) :
    List Service :=
  db.services.filter fun s =>
    s.shopId = shop.id ∧ (isStaff viewer shop = true ∨ s.isActive = true)

/-- A shop with the numbers on its card, without a distance. -/
def shopRow (F : Type) (db : Database) (shop : Barbershop) : ShopRow F where
  shop := shop
  rating := db.shopRating shop
  reviews := db.shopReviews shop
  barbers := db.shopBarbers shop
  distance := none

end Database

/-- `list_barbers`. -/
def listBarbers (shopId : Uuid) (viewer : Option User) :
    Request (List BarberRead) := do
  let shop ← getShopOr404 shopId viewer
  let rows ← query fun db => ((db.barbersShown viewer shop).insertionSort
    Barber.listedBefore).map db.loadedBarber
  ofExcept (rows.mapM LoadedBarber.toRead)

/-- `list_services`. -/
def listServices (collation : Collation) (shopId : Uuid)
    (viewer : Option User) : Request (List ServiceRead) := do
  let shop ← getShopOr404 shopId viewer
  let rows ← query fun db => (db.servicesShown viewer shop).insertionSort
    fun a b => collation.le a.name b.name = true
  pure (rows.map Service.toRead)

/-- `get_shop`. -/
def getShop (F : Type) (shopId : Uuid) (viewer : Option User) :
    Request (BarbershopRead F) := do
  let _ ← getShopOr404 shopId viewer
  let found ← query fun db => (db.barbershop? shopId).map (db.shopRow F)
  let row ← rowOr .noResultFound found
  pure (row.toRead id)

/-! ## What they answer -/

namespace Database

variable (db : Database)

/-- The viewer finds the shop. -/
def Finds (viewer : Option User) (shopId : Uuid) (shop : Barbershop) : Prop :=
  db.barbershop? shopId = some shop ∧
    (shop.isActive = true ∨ canManageShop viewer shop = true)

/-- The barber as the API shows them. -/
def ShownAs (barber : Barber) (card : BarberRead) : Prop :=
  ∃ user, db.user? barber.userId = some user ∧
    card = barber.toRead user (db.loadedBarber barber).services

variable {db}

theorem toRead_loadedBarber_eq_ok_iff {barber : Barber} {card : BarberRead} :
    (db.loadedBarber barber).toRead = .ok card ↔ db.ShownAs barber card := by
  have huser : (db.loadedBarber barber).user = db.user? barber.userId := rfl
  rw [LoadedBarber.toRead, ShownAs, huser]
  cases db.user? barber.userId with
  | none => simp
  | some user =>
      simp only [Except.ok.injEq, Option.some.injEq, exists_eq_left']
      exact eq_comm

theorem ShownAs.same {barber : Barber} {card : BarberRead}
    (h : db.ShownAs barber card) :
    card.id = barber.id ∧ card.isActive = barber.isActive ∧
      card.rating = barber.rating ∧ card.reviewsCount = barber.reviewsCount := by
  obtain ⟨user, -, rfl⟩ := h
  exact ⟨rfl, rfl, rfl, rfl⟩

end Database

section

variable {db : Database} {shopId : Uuid} {viewer : Option User}

theorem run_getShop_eq_ok_iff {F : Type} {card : BarbershopRead F} :
    (getShop F shopId viewer).run db = (.ok card, db) ↔
      ∃ shop, db.Finds viewer shopId shop ∧
        card = (db.shopRow F shop).toRead id := by
  rw [getShop, run_bind_eq_ok_iff]
  simp only [run_getShopOr404_eq_ok_iff, query_bind, run_read,
    run_rowOr_bind_eq_ok_iff, Option.map_eq_some_iff, pure_eq_done, run_done,
    Prod.mk.injEq, Except.ok.injEq]
  constructor
  · rintro ⟨shop, _, ⟨hshop, hvisible, rfl⟩, _, ⟨found, hfound, rfl⟩, rfl, -⟩
    obtain rfl := Option.some.inj (hshop.symm.trans hfound)
    exact ⟨shop, ⟨hshop, hvisible⟩, rfl⟩
  · rintro ⟨shop, ⟨hshop, hvisible⟩, rfl⟩
    exact ⟨shop, db, ⟨hshop, hvisible, rfl⟩, _, ⟨shop, hshop, rfl⟩, rfl, rfl⟩

theorem run_listBarbers_eq_ok_iff {cards : List BarberRead} :
    (listBarbers shopId viewer).run db = (.ok cards, db) ↔
      ∃ shop, db.Finds viewer shopId shop ∧
        (((db.barbersShown viewer shop).insertionSort
          Barber.listedBefore).map db.loadedBarber).mapM LoadedBarber.toRead =
            .ok cards := by
  rw [listBarbers, run_bind_eq_ok_iff]
  simp only [run_getShopOr404_eq_ok_iff, query_bind, run_read, run_ofExcept,
    Prod.mk.injEq]
  constructor
  · rintro ⟨shop, _, ⟨hshop, hvisible, rfl⟩, hcards, -⟩
    exact ⟨shop, ⟨hshop, hvisible⟩, hcards⟩
  · rintro ⟨shop, ⟨hshop, hvisible⟩, hcards⟩
    exact ⟨shop, db, ⟨hshop, hvisible, rfl⟩, hcards, rfl⟩

/-- The list has the barbers shown. -/
theorem mem_listBarbers_iff {shop : Barbershop} {cards : List BarberRead}
    (h : (((db.barbersShown viewer shop).insertionSort
      Barber.listedBefore).map db.loadedBarber).mapM LoadedBarber.toRead =
        .ok cards) {card : BarberRead} :
    card ∈ cards ↔ ∃ b ∈ db.barbersShown viewer shop, db.ShownAs b card := by
  have hmem := exists_mem_mapM_iff h (card = ·)
  simp only [exists_eq_right'] at hmem
  rw [hmem]
  simp only [List.mem_map, List.mem_insertionSort, exists_exists_and_eq_and,
    toRead_loadedBarber_eq_ok_iff]

theorem run_listServices_eq_ok_iff {collation : Collation}
    {services : List ServiceRead} :
    (listServices collation shopId viewer).run db = (.ok services, db) ↔
      ∃ shop, db.Finds viewer shopId shop ∧
        services = ((db.servicesShown viewer shop).insertionSort
          fun a b => collation.le a.name b.name = true).map Service.toRead := by
  rw [listServices, run_bind_eq_ok_iff]
  simp only [run_getShopOr404_eq_ok_iff, query_bind, run_read, pure_eq_done,
    run_done, Prod.mk.injEq, Except.ok.injEq]
  constructor
  · rintro ⟨shop, _, ⟨hshop, hvisible, rfl⟩, rfl, -⟩
    exact ⟨shop, ⟨hshop, hvisible⟩, rfl⟩
  · rintro ⟨shop, ⟨hshop, hvisible⟩, rfl⟩
    exact ⟨shop, db, ⟨hshop, hvisible, rfl⟩, rfl, rfl⟩

/-- A shop that is found has a list of barbers. -/
theorem exists_listBarbers
    (hpeople : ∀ b ∈ db.barbers, (db.user? b.userId).isSome)
    {shop : Barbershop} (hshop : db.Finds viewer shopId shop) :
    ∃ cards, (listBarbers shopId viewer).run db = (.ok cards, db) := by
  have hread : ∀ loaded ∈ ((db.barbersShown viewer shop).insertionSort
      Barber.listedBefore).map db.loadedBarber,
      ∃ card, loaded.toRead = .ok card := by
    intro loaded hloaded
    obtain ⟨b, hb, rfl⟩ := List.mem_map.mp hloaded
    have hmem : b ∈ db.barbers := List.mem_of_mem_filter
      ((List.mem_insertionSort _).mp hb)
    obtain ⟨user, huser⟩ := Option.isSome_iff_exists.mp (hpeople b hmem)
    exact ⟨_, toRead_loadedBarber_eq_ok_iff.mpr ⟨user, huser, rfl⟩⟩
  obtain ⟨cards, hcards⟩ := exists_mapM_eq_ok hread
  exact ⟨cards, run_listBarbers_eq_ok_iff.mpr ⟨shop, hshop, hcards⟩⟩

end

/-! ## On sale -/

namespace Database

/-- The page of a shop that is open for business shows the viewer the service,
and the barber performing it. -/
def OnSale (db : Database) (collation : Collation) (viewer : Option User)
    (barberId serviceId : Uuid) : Prop :=
  ∃ (shopId : Uuid) (shop : BarbershopRead Unit) (barbers : List BarberRead)
    (services : List ServiceRead),
    (getShop Unit shopId viewer).run db = (.ok shop, db) ∧
    (listBarbers shopId viewer).run db = (.ok barbers, db) ∧
    (listServices collation shopId viewer).run db = (.ok services, db) ∧
    shop.isActive = true ∧
    ∃ barber ∈ barbers, ∃ service ∈ barber.services, service ∈ services ∧
      barber.id = barberId ∧ barber.isActive = true ∧ service.id = serviceId

variable {db : Database} {viewer : Option User} {shop : Barbershop}

theorem mem_barbersShown {b : Barber} :
    b ∈ db.barbersShown viewer shop ↔ b ∈ db.barbers ∧ b.shopId = shop.id ∧
      (isStaff viewer shop = true ∨ b.isActive = true) := by
  simp [barbersShown]

theorem mem_servicesShown {s : Service} :
    s ∈ db.servicesShown viewer shop ↔ s ∈ db.services ∧ s.shopId = shop.id ∧
      (isStaff viewer shop = true ∨ s.isActive = true) := by
  simp [servicesShown]

theorem mem_loadedServices {barber : Barber} {s : Service}
    (hkeys : UniqueKeys Service.id db.services) :
    s ∈ (db.loadedBarber barber).services ↔
      s ∈ db.services ∧ (barber.id, s.id) ∈ db.barberServices := by
  rw [loadedBarber]
  simp only [List.mem_filterMap, mem_servicesOf]
  constructor
  · rintro ⟨id, hlink, hservice⟩
    rw [← key_of_lookup hservice] at hlink
    exact ⟨mem_of_lookup hservice, hlink⟩
  · rintro ⟨hs, hlink⟩
    exact ⟨s.id, hlink, hkeys.lookup_eq_some_iff.mpr ⟨hs, rfl⟩⟩

/-- What is on sale can be asked slots for, and nothing else can. -/
theorem onSale_iff_sells {env : Env} (hdb : db.Intact env)
    (hlinks : ∀ link ∈ db.barberServices, db.AtOneShop link.1 link.2)
    (collation : Collation) (viewer : Option User) (barberId serviceId : Uuid) :
    db.OnSale collation viewer barberId serviceId ↔
      ∃ barber shop service, db.Sells barberId serviceId barber shop service := by
  constructor
  · rintro ⟨shopId, page, barbers, services, hpage, hbarbers, -, hopen, card,
      hcard, shown, hshown, -, rfl, hactive, rfl⟩
    obtain ⟨shop, ⟨hshop, -⟩, rfl⟩ := run_getShop_eq_ok_iff.mp hpage
    obtain ⟨shop', ⟨hshop', -⟩, hcards⟩ := run_listBarbers_eq_ok_iff.mp hbarbers
    obtain rfl := Option.some.inj (hshop.symm.trans hshop')
    obtain ⟨b, hb, user, huser, rfl⟩ := (mem_listBarbers_iff hcards).mp hcard
    obtain ⟨hmem, hworks, -⟩ := mem_barbersShown.mp hb
    obtain ⟨s, hs, rfl⟩ := List.mem_map.mp hshown
    obtain ⟨hs, hsold⟩ := List.mem_filter.mp hs
    obtain ⟨hs, hlink⟩ := (mem_loadedServices hdb.keys.services).mp hs
    have hbarber : db.barber? b.id = some b :=
      hdb.keys.barbers.lookup_eq_some_iff.mpr ⟨hmem, rfl⟩
    have hservice : db.service? s.id = some s :=
      hdb.keys.services.lookup_eq_some_iff.mpr ⟨hs, rfl⟩
    have hshopId : b.shopId = shopId := hworks.trans (key_of_lookup hshop)
    refine ⟨b, shop, s, hbarber, hactive, ?_, hopen, hservice, hsold, ?_,
      mem_servicesOf.mpr hlink⟩
    · rw [hshopId]
      exact hshop
    · -- no link joins two shops
      obtain ⟨userId, home, ⟨b', hb', -, hat⟩, ⟨s', hs', hsold⟩⟩ :=
        hlinks _ hlink
      obtain rfl := Option.some.inj (hbarber.symm.trans hb')
      obtain rfl := Option.some.inj (hservice.symm.trans hs')
      rw [hsold, hat]
  · rintro ⟨barber, shop, service, h⟩
    have hbarber := mem_of_lookup h.barber_eq
    have hservice := mem_of_lookup h.service_eq
    have hid : shop.id = barber.shopId := key_of_lookup h.shop_eq
    have hbarberId : barber.id = barberId := key_of_lookup h.barber_eq
    have hserviceId : service.id = serviceId := key_of_lookup h.service_eq
    have hfinds : db.Finds viewer barber.shopId shop :=
      ⟨h.shop_eq, Or.inl h.shop_active⟩
    obtain ⟨cards, hcards⟩ :=
      exists_listBarbers (fun b hb => (hdb.references.barbers b hb).1) hfinds
    obtain ⟨shop', ⟨hshop', -⟩, hlist⟩ := run_listBarbers_eq_ok_iff.mp hcards
    obtain rfl := Option.some.inj (h.shop_eq.symm.trans hshop')
    obtain ⟨user, huser⟩ :=
      Option.isSome_iff_exists.mp (hdb.references.barbers barber hbarber).1
    have hloaded : service ∈ (db.loadedBarber barber).services :=
      (mem_loadedServices hdb.keys.services).mpr
        ⟨hservice, mem_servicesOf.mp h.performs⟩
    refine ⟨barber.shopId, _, cards, _,
      run_getShop_eq_ok_iff.mpr ⟨shop, hfinds, rfl⟩, hcards,
      run_listServices_eq_ok_iff.mpr ⟨shop, hfinds, rfl⟩, h.shop_active,
      barber.toRead user (db.loadedBarber barber).services, ?_, service.toRead,
      ?_, ?_, hbarberId, h.barber_active, hserviceId⟩
    · apply (mem_listBarbers_iff hlist).mpr
      refine ⟨barber, mem_barbersShown.mpr ⟨hbarber, hid.symm, ?_⟩, user, huser,
        rfl⟩
      exact Or.inr h.barber_active
    · exact List.mem_map_of_mem
        (List.mem_filter.mpr ⟨hloaded, h.service_active⟩)
    · apply List.mem_map_of_mem
      rw [List.mem_insertionSort, mem_servicesShown]
      exact ⟨hservice, h.same_shop.trans hid.symm, Or.inr h.service_active⟩

/-- The availability endpoint refuses a barber and a service exactly if they are
not on sale. -/
theorem onSale_iff_not_refused {env : Env} (hdb : db.Intact env)
    (hlinks : ∀ link ∈ db.barberServices, db.AtOneShop link.1 link.2)
    (collation : Collation) (viewer : Option User) (barberId : Uuid) (day : ℤ)
    (serviceId : Uuid) (now : ℤ) (exclude : Option Uuid)
    (ignoreAppointments : Bool) :
    db.OnSale collation viewer barberId serviceId ↔
      ∀ e, ((availableSlots env barberId day serviceId now exclude
        ignoreAppointments).run db).1 = .error e → ¬ e.IsRefusal := by
  rw [onSale_iff_sells hdb hlinks collation viewer, availableSlots_eq]
  constructor
  · rintro ⟨barber, shop, service, hsells⟩ e he
    rw [run_bind_of_ok (run_loadAndValidate_eq_ok_iff.mpr ⟨hsells, rfl⟩)] at he
    have hcrash := (raises_slotsOnDay env barberId day shop service now exclude
      ignoreAppointments).raisesOnly
        (readOnly_slotsOnDay env barberId day shop service now exclude
          ignoreAppointments) db _ e (Prod.ext he rfl)
    exact hcrash.isCrash.not_isRefusal
  · intro hnot
    rcases hrun : (loadAndValidate barberId serviceId).run db with ⟨r, db'⟩
    cases r with
    | ok row =>
        obtain ⟨barber, shop, service⟩ := row
        exact ⟨barber, shop, service,
          (run_loadAndValidate_eq_ok_iff.mp hrun).1⟩
    | error e =>
        rw [run_bind_of_error hrun] at hnot
        have hrefusal := (raises_loadAndValidate barberId serviceId).raisesOnly
          (respects_loadAndValidate barberId serviceId).readOnly db db' e hrun
        exact absurd hrefusal (hnot e rfl)

end Database

/-! ## Every run -/

variable {ι : Type} [DecidableEq ι]

/-- In every committed state of every interleaving of requests and tasks, the
pages of the open shops show every viewer a barber with a service exactly if the
availability endpoint does not refuse the two, on any day at any time. -/
theorem shown_iff_served
    (env : Env) (works : ι → Work) (db : Database) (hdb : db.Intact env)
    (hhome : db.ServicesAtHome) (schedule : List ι) :
    let s := ((workPool env works db).exec schedule).committed
    ∀ (collation : Collation) (viewer : Option User) (barberId serviceId : Uuid)
      (day now : ℤ) (exclude : Option Uuid) (ignoreAppointments : Bool),
      s.OnSale collation viewer barberId serviceId ↔
        ∀ e, ((availableSlots env barberId day serviceId now exclude
          ignoreAppointments).run s).1 = .error e → ¬ e.IsRefusal := by
  intro s collation viewer barberId serviceId day now exclude ignoreAppointments
  have hcatalogued : s.Catalogued env :=
    workPool_invariant env works
      ⟨hdb.keys.barbers, hdb.keys.services, hdb.keys.names, hhome⟩
      (fun _ _ _ hs h => h.catalogued hs) schedule
  exact onSale_iff_not_refused (intact_exec hdb schedule)
    hcatalogued.atHome.links collation viewer barberId day serviceId now exclude
    ignoreAppointments

/-- Until the shop closes its barber is on sale. -/
theorem shown_iff_served_closing :
    let c := workPool Sample.env cancelAndClose Sample.bookedDb
    (c.exec []).committed.OnSale .codePoints none 20 30 ∧
      ¬ (c.exec bothToTheEnd).committed.OnSale .codePoints none 20 30 := by
  intro c
  have hone : Sample.bookedDb.AtOneShop 20 30 :=
    ⟨3, 10, ⟨Sample.barber, rfl, rfl, rfl⟩, ⟨Sample.haircut, rfl, rfl⟩⟩
  have hhome : Sample.bookedDb.ServicesAtHome := by
    constructor
    · exact List.forall_mem_singleton.mpr hone
    · exact List.forall_mem_singleton.mpr hone
  have hiff := fun schedule => shown_iff_served Sample.env cancelAndClose
    Sample.bookedDb Sample.bookedDb_intact hhome schedule .codePoints none 20 30
    Sample.monday (Sample.clock 6 0) none false
  constructor
  · apply (hiff []).mpr
    intro e he
    have hok : ((availableSlots Sample.env 20 Sample.monday 30
        (Sample.clock 6 0) none false).run c.committed).1.isOk = true := by
      decide +kernel
    rw [exec_nil] at he
    rw [he] at hok
    exact absurd hok Bool.false_ne_true
  · rw [hiff bothToTheEnd]
    intro hserved
    refine hserved (notFound "Barber not found") ?_ (Or.inl rfl)
    decide +kernel

end BarberHub
