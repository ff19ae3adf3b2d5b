import BarberHub.Directory.Editing
import BarberHub.Slots.Available

/-!
# The service list of a barber

`set_services` of `app/services/barber_directory.py`, up to its commit.  The
services the barber has are loaded beside the barber; the unit of work compares
the new list with that collection and writes the difference.
-/

namespace BarberHub

open KeyedTable ReadCommitted Program Fallible

/-- The flush of `barber.services`: DELETE of the links removed from the loaded
collection, then INSERT of those added to it. -/
def flushBarberServices (barberId : Uuid) (removed added : List Uuid)
    (db : Database) : Except Raised Database := do
  let kept := db.barberServices.filter fun link =>
    ¬ (link.1 = barberId ∧ link.2 ∈ removed)
  let links := added.map fun serviceId => (barberId, serviceId)
  enforce (links.Nodup ∧ ∀ link ∈ links, link ∉ kept) .unique
  enforce (∀ link ∈ links,
    (db.barber? link.1).isSome ∧ (db.service? link.2).isSome) .foreignKey
  pure { db with barberServices := kept ++ links }

/-- `_resolve_services`. -/
def resolveServices (barber : Barber) (serviceIds : List Uuid) :
    Request (List Service) :=
  if serviceIds = [] then pure []
  else do
    let found ← query fun db =>
      db.services.filter fun service => service.id ∈ serviceIds
    let missing := serviceIds.filter fun sid => sid ∉ found.map Service.id
    let foreign := (found.filter fun service =>
      service.shopId ≠ barber.shopId).map Service.id
    let inactive := (found.filter fun service =>
      service.shopId = barber.shopId ∧ service.isActive = false).map Service.id
    require (missing = [] ∧ foreign = [] ∧ inactive = [])
      (validationError "Some services cannot be assigned to this barber"
        [("unknown", .ids missing), ("belong_to_another_shop", .ids foreign),
          ("inactive", .ids inactive)])
    pure (serviceIds.filterMap fun sid => lookup Service.id found sid)

/-- `set_services` from the statement on that loads the barber's services. -/
def replaceServices (user : User) (barber : Barber) (serviceIds : List Uuid) :
    Request Unit := do
  let loaded ← query (·.servicesOf barber.id)
  let shop ← getShopOr404 barber.shopId (some user)
  ensureCanManageShop user shop
  let wanted := serviceIds.eraseDups
  let services ← resolveServices barber wanted
  let assigned := services.map Service.id
  write (flushBarberServices barber.id
    (loaded.filter (· ∉ assigned)) (assigned.filter (· ∉ loaded)))

def setServices (user : User) (barberId : Uuid) (serviceIds : List Uuid) :
    Request Unit := do
  let barber ← loadBarber barberId
  replaceServices user barber serviceIds

/-! ## What is written -/

section

variable {db db' : Database}

theorem mem_servicesOf {barberId serviceId : Uuid} :
    serviceId ∈ db.servicesOf barberId ↔
      (barberId, serviceId) ∈ db.barberServices := by
  rw [Database.servicesOf]
  simp

/-- The links of the barber after the flush; no other table is touched. -/
theorem flushBarberServices_eq_ok {barberId : Uuid} {removed added : List Uuid}
    (h : flushBarberServices barberId removed added db = .ok db') :
    db' = { db with barberServices := db'.barberServices } ∧
      ∀ serviceId, serviceId ∈ db'.servicesOf barberId ↔
        (serviceId ∈ db.servicesOf barberId ∧ serviceId ∉ removed) ∨
          serviceId ∈ added := by
  rw [flushBarberServices] at h
  simp only [bind_eq_ok_iff] at h
  obtain ⟨_, -, _, -, h⟩ := h
  obtain rfl := Except.ok.inj h
  refine ⟨rfl, ?_⟩
  intro serviceId
  rw [mem_servicesOf, mem_servicesOf]
  simp

/-- A link after the flush was there, or is one of those added. -/
theorem mem_of_flushBarberServices {barberId : Uuid} {removed added : List Uuid}
    (h : flushBarberServices barberId removed added db = .ok db')
    {link : Uuid × Uuid} (hlink : link ∈ db'.barberServices) :
    link ∈ db.barberServices ∨ link.1 = barberId ∧ link.2 ∈ added := by
  rw [flushBarberServices] at h
  simp only [bind_eq_ok_iff] at h
  obtain ⟨_, -, _, -, h⟩ := h
  obtain rfl := Except.ok.inj h
  rcases List.mem_append.mp hlink with hkept | hadded
  · exact Or.inl (List.mem_of_mem_filter hkept)
  · obtain ⟨serviceId, hserviceId, rfl⟩ := List.mem_map.mp hadded
    exact Or.inr ⟨rfl, hserviceId⟩

end

/-! ## What is resolved -/

/-- Every id is that of a row that was found, so none is dropped. -/
theorem map_id_filterMap_lookup
    {found : List Service} {serviceIds : List Uuid}
    (h : ∀ sid ∈ serviceIds, sid ∈ found.map Service.id) :
    (serviceIds.filterMap fun sid => lookup Service.id found sid).map
      Service.id = serviceIds := by
  induction serviceIds with
  | nil => rfl
  | cons sid rest ih =>
      obtain ⟨service, hservice, hid⟩ :=
        List.mem_map.mp (h sid List.mem_cons_self)
      cases hrow : lookup Service.id found sid with
      | none => exact absurd hid (lookup_eq_none_iff.mp hrow service hservice)
      | some row =>
          rw [List.filterMap_cons_some hrow, List.map_cons, key_of_lookup hrow,
            ih fun other hother => h other (List.mem_cons_of_mem _ hother)]

section

variable {rely guar : Database → Database → Prop}

/-- The services that are resolved are the ones that were asked for. -/
theorem learns_resolveServices
    (hrely : IsRely rely) {P : Database → Prop}
    (hP : ∀ t u, P t → rely t u → P u) {barber : Barber}
    {serviceIds : List Uuid} {s : Database} (hs : P s) :
    (resolveServices barber serviceIds).Learns rely guar
      (fun services t => services.map Service.id = serviceIds ∧ P t) s := by
  rw [resolveServices]
  split
  next hnone =>
    subst hnone
    refine learns_done fun services t h hst => ⟨?_, hP s t hs hst⟩
    rw [← Except.ok.inj h, List.map_nil]
  · apply Learns.bind hrely (learns_query (Q := fun _ t => P t)
      fun t u hst htu => hP s u hs (hrely.trans hst htu))
    intro found t ht
    refine Learns.bind hrely (learns_require (Q := fun _ u => P u ∧
      ∀ sid ∈ serviceIds, sid ∈ found.map Service.id) fun u hnone htu =>
        ⟨hP t u ht htu, fun sid hsid => ?_⟩) ?_
    · have hmissing := List.filter_eq_nil_iff.mp hnone.1 sid hsid
      simpa using hmissing
    · intro _ u h
      refine learns_done fun services v hservices huv =>
        ⟨?_, hP u v h.1 huv⟩
      rw [← Except.ok.inj hservices]
      exact map_id_filterMap_lookup h.2

end

end BarberHub
