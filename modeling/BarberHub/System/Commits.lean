import BarberHub.System.Beside

/-!
# What every work commits

Whatever the others commit between its statements, a work commits only what the
list of commits says: a booking has resolved a barber and a service of one shop,
an edit of a barber comes from who manages the barber or is the barber, and the
services of a barber are of the barber's shop.
-/

namespace BarberHub

open KeyedTable ReadCommitted Program Pool Fallible Database

/-- The commits of a work. -/
abbrev Work.Commits (env : Env) (work : Work) (s s' : Database) : Prop :=
  WorkCommit env s s' work

section

variable {env : Env} {work : Work} {s : Database}

/-! ## Directory and permissions -/

section

variable {guar : Database → Database → Prop}

theorem learns_loadBarber (barberId : Uuid) :
    (loadBarber barberId).Learns Persists guar
      (fun barber t => barber.id = barberId ∧
        t.WorksAt barberId barber.userId barber.shopId) s := by
  rw [loadBarber]
  refine Learns.bind isRely_persists (learns_query (Q := fun found t =>
    ∀ barber, found = some barber → barber.id = barberId ∧
      t.WorksAt barberId barber.userId barber.shopId) ?_) ?_
  · intro t u _ htu barber hrow
    exact ⟨key_of_lookup hrow,
      htu.barbers _ _ _ ⟨barber, hrow, rfl, rfl⟩⟩
  · intro found t hfound
    apply learns_rowOr
    intro barber u hrow htu
    obtain ⟨hid, hworks⟩ := hfound barber hrow
    exact ⟨hid, htu.barbers _ _ _ hworks⟩

theorem learns_getShopOr404 (shopId : Uuid) (viewer : Option User) :
    (getShopOr404 shopId viewer).Learns Persists guar
      (fun shop t => shop.id = shopId ∧ t.OwnedBy shopId shop.ownerId) s := by
  rw [getShopOr404]
  refine Learns.bind isRely_persists (learns_query (Q := fun found t =>
    ∀ shop, found = some shop → shop.id = shopId ∧
      t.OwnedBy shopId shop.ownerId) ?_) ?_
  · intro t u _ htu shop hrow
    exact ⟨key_of_lookup hrow, htu.shops _ _ ⟨shop, hrow, rfl⟩⟩
  intro found t hfound
  refine Learns.bind isRely_persists (learns_rowOr (Q := fun shop u =>
    shop.id = shopId ∧ u.OwnedBy shopId shop.ownerId) ?_) ?_
  · intro shop u hrow htu
    obtain ⟨hid, howned⟩ := hfound shop hrow
    exact ⟨hid, htu.shops _ _ howned⟩
  intro shop u hshop
  apply (readOnly_require _ _).learns_bind isRely_persists
  intro _ v huv
  apply learns_done
  intro row w hrow hvw
  obtain rfl := Except.ok.inj hrow
  exact ⟨hshop.1, hvw.shops _ _ (huv.shops _ _ hshop.2)⟩

theorem learns_ensureCanManageShop (user : User) (shop : Barbershop) :
    (ensureCanManageShop user shop).Learns Persists guar
      (fun _ t => (user.role = .admin ∨ shop.ownerId = user.id) ∧ s.Persists t)
      s := by
  apply learns_require
  intro t hmay hst
  refine ⟨?_, hst⟩
  simpa [canManageShop] using hmay

/-- Whoever may manage the barber of a shop manages the shop or is the barber. -/
theorem learns_ensureCanManageBarber
    (user : User) {barber : Barber}
    (hworks : s.WorksAt barber.id barber.userId barber.shopId) :
    (ensureCanManageBarber user barber).Learns Persists guar
      (fun _ t => t.ManagedBy barber.id user ∨
        ∃ shopId, t.WorksAt barber.id user.id shopId) s := by
  rw [ensureCanManageBarber]
  by_cases hself : user.role = .admin ∨ barber.userId = user.id
  · rw [if_pos hself]
    apply learns_done
    intro _ t _ hst
    rcases hself with hadmin | hself
    · exact Or.inl (Or.inl hadmin)
    · rw [hself] at hworks
      exact Or.inr ⟨barber.shopId, hst.barbers _ _ _ hworks⟩
  · rw [if_neg hself]
    refine Learns.bind isRely_persists (learns_query (Q := fun found t =>
      s.Persists t ∧ ∀ shop, found = some shop →
        t.OwnedBy barber.shopId shop.ownerId) ?_) ?_
    · intro t u hst htu
      refine ⟨isRely_persists.trans hst htu, ?_⟩
      intro shop hrow
      exact htu.shops _ _ ⟨shop, hrow, rfl⟩
    · intro found t h
      obtain ⟨hst, hfound⟩ := h
      apply learns_require
      intro u howns htu
      obtain ⟨shop, hrow, howner⟩ := Option.any_eq_true _ _ |>.mp howns
      rw [decide_eq_true_eq] at howner
      have hsu := isRely_persists.trans hst htu
      have howned := hfound shop hrow
      rw [howner] at howned
      exact Or.inl (Or.inr ⟨barber.userId, barber.shopId,
        hsu.barbers _ _ _ hworks, htu.shops _ _ howned⟩)

/-- A barber loaded from the table, managed by who passes the check on the
shop. -/
theorem managedBy_of_owner
    {barber : Barber} {shop : Barbershop} {user : User} {t : Database}
    (hworks : t.WorksAt barber.id barber.userId barber.shopId)
    (howned : t.OwnedBy barber.shopId shop.ownerId)
    (hmay : user.role = .admin ∨ shop.ownerId = user.id) :
    t.ManagedBy barber.id user := by
  rcases hmay with hadmin | howner
  · exact Or.inl hadmin
  · rw [howner] at howned
    exact Or.inr ⟨barber.userId, barber.shopId, hworks, howned⟩

end

/-! ## Bookings -/

/-- A barber and a service that are resolved are of one shop. -/
theorem learns_resolve_atOneShop
    {guar : Database → Database → Prop} (barberId serviceId : Uuid) :
    (resolveBarberAndService barberId serviceId).Learns Persists guar
      (fun found t => t.AtOneShop found.1.id found.2.id) s := by
  rw [resolveBarberAndService]
  refine Learns.bind isRely_persists (learns_query (Q := fun found t =>
    ∀ pair : Barber × List Uuid, found = some pair →
      t.WorksAt pair.1.id pair.1.userId pair.1.shopId) ?_) ?_
  · rintro t u _ htu ⟨barber, services⟩ hrow
    obtain ⟨hbarber, -, -⟩ := Database.activeBarber_eq_some_iff.mp hrow
    obtain rfl := key_of_lookup hbarber
    exact htu.barbers _ _ _ ⟨barber, hbarber, rfl, rfl⟩
  intro found t hfound
  refine Learns.bind isRely_persists (learns_rowOr (Q := fun pair u =>
    u.WorksAt pair.1.id pair.1.userId pair.1.shopId) ?_) ?_
  · intro pair u hrow htu
    exact htu.barbers _ _ _ (hfound pair hrow)
  rintro ⟨barber, services⟩ u hworks
  refine Learns.bind isRely_persists (learns_query (Q := fun found v =>
    v.WorksAt barber.id barber.userId barber.shopId ∧
      ∀ service, found = some service → v.SoldAt service.id service.shopId) ?_) ?_
  · intro v w huv hvw
    refine ⟨hvw.barbers _ _ _ (huv.barbers _ _ _ hworks), ?_⟩
    intro service hrow
    obtain ⟨hservice, -⟩ := Option.filter_eq_some_iff.mp hrow
    obtain rfl := key_of_lookup hservice
    exact hvw.services _ _ ⟨service, hservice, rfl⟩
  intro found v h
  obtain ⟨hworks, hfound⟩ := h
  refine Learns.bind isRely_persists (learns_rowOr (Q := fun service w =>
    w.WorksAt barber.id barber.userId barber.shopId ∧
      w.SoldAt service.id service.shopId) ?_) ?_
  · intro service w hrow hvw
    exact ⟨hvw.barbers _ _ _ hworks, hvw.services _ _ (hfound service hrow)⟩
  intro service w h
  obtain ⟨hworks, hsold⟩ := h
  refine Learns.bind isRely_persists (learns_require (Q := fun _ x =>
    x.AtOneShop barber.id service.id) ?_) ?_
  · intro x hsame hwx
    rw [hsame] at hsold
    exact ⟨barber.userId, barber.shopId, hwx.barbers _ _ _ hworks,
      hwx.services _ _ hsold⟩
  intro _ x hshop
  apply (readOnly_require _ _).learns_bind isRely_persists
  intro _ y hxy
  apply learns_done
  intro found z hpair hyz
  obtain rfl := Except.ok.inj hpair
  exact hshop.stable (isRely_persists.trans hxy hyz)

theorem learns_createTransaction_works
    {op : BookingOp} (customer : User) (payload : AppointmentCreate) (now : ℤ)
    (id : Uuid) (createdAt : ℤ) :
    (createTransaction env customer payload now id createdAt).Learns Persists
      ((Work.booking op).Commits env) (fun _ _ => True) s := by
  rw [createTransaction]
  apply Learns.bind isRely_persists (learns_resolve_atOneShop _ _)
  rintro ⟨barber, service⟩ t hshop
  apply (readOnly_query _).learns_bind isRely_persists
  intro shop u htu
  apply (readOnly_ofExcept _).learns_bind isRely_persists
  intro stop v huv
  apply (readOnly_assertOnOffer _ _ _ _ _ _).learns_bind isRely_persists
  intro _ w hvw
  apply (readOnly_ofExcept _).learns_bind isRely_persists
  intro startTime x hwx
  apply (readOnly_ofExcept _).learns_bind isRely_persists
  intro endTime y hxy
  rw [commitOrSlotTaken_eq]
  apply learns_write
  intro z z' hyz hw
  refine ⟨?_, fun _ _ => trivial⟩
  have htw := isRely_persists.trans (isRely_persists.trans htu huv) hvw
  have hwz := isRely_persists.trans (isRely_persists.trans hwx hxy) hyz
  have htx := isRely_persists.trans htw hwz
  exact .booked _ (hshop.stable htx) (orSlotTaken_eq_ok_iff.mp hw)

/-- An UPDATE of an appointment is one of the list. -/
theorem learns_updateAppointment
    {op : BookingOp} (id : Uuid) (u : AppointmentUpdate) :
    (write (updateAppointment env id u)).Learns Persists
      ((Work.booking op).Commits env) (fun _ _ => True) s :=
  learns_write fun _ _ _ hw => ⟨.rebooked id u hw, fun _ _ => trivial⟩

theorem learns_closeOut_works {op : BookingOp} (user : User) (id : Uuid)
    (target : AppointmentStatus) (now : ℤ) :
    (closeOutTransaction env user id target now).Learns Persists
      ((Work.booking op).Commits env) (fun _ _ => True) s := by
  rw [closeOutTransaction]
  apply (readOnly_loadForAction _ _).learns_bind isRely_persists
  rintro ⟨loaded, isStaff⟩ t _
  apply (readOnly_require _ _).learns_bind isRely_persists
  intro _ u _
  apply (readOnly_requireStatus _ _ _).learns_bind isRely_persists
  intro _ v _
  apply (readOnly_require _ _).learns_bind isRely_persists
  intro _ w _
  exact learns_updateAppointment _ _

theorem learns_expireStalePending_works {op : BookingOp} (now : ℤ) :
    (expireStalePending env now).Learns Persists ((Work.booking op).Commits env)
      (fun _ _ => True) s := by
  rw [expireStalePending]
  apply (readOnly_ofExcept _).learns_bind isRely_persists
  intro cutoff t _
  apply (readOnly_query _).learns_bind isRely_persists
  intro stale u _
  refine Learns.bind isRely_persists (learns_write (Q := fun _ _ => True) ?_) ?_
  · intro v v' _ hw
    exact ⟨.expired stale hw, fun _ _ => trivial⟩
  · intro _ v _
    exact learns_done fun _ _ _ _ => trivial

theorem learns_bookingTransaction (op : BookingOp) :
    (op.transaction env).Learns Persists ((Work.booking op).Commits env)
      (fun _ _ => True) s := by
  cases op with
  | create customer payload now id createdAt =>
      exact learns_createTransaction_works customer payload now id createdAt
  | reschedule user id newStart now =>
      apply (readOnly_loadForAction _ _).learns_bind isRely_persists
      rintro ⟨loaded, isStaff⟩ t _
      apply (readOnly_requireStatus _ _ _).learns_bind isRely_persists
      intro _ u _
      apply (readOnly_assertWithinCutoff _ _ _ _).learns_bind isRely_persists
      intro _ v _
      apply (respects_resolveBarberAndService _ _).readOnly.learns_bind
        isRely_persists
      rintro ⟨barber, service⟩ w _
      apply (readOnly_assertOnOffer _ _ _ _ _ _).learns_bind isRely_persists
      intro _ x _
      apply (readOnly_ofExcept _).learns_bind isRely_persists
      intro newEnd y _
      apply (readOnly_ofExcept _).learns_bind isRely_persists
      intro startTime z _
      apply (readOnly_ofExcept _).learns_bind isRely_persists
      intro endTime z' _
      rw [commitOrSlotTaken_eq]
      refine learns_write fun _ _ _ hw => ⟨?_, fun _ _ => trivial⟩
      exact .rebooked _ _ (orSlotTaken_eq_ok_iff.mp hw)
  | cancel user id reason now =>
      apply (readOnly_loadForAction _ _).learns_bind isRely_persists
      rintro ⟨loaded, isStaff⟩ t _
      apply (readOnly_requireStatus _ _ _).learns_bind isRely_persists
      intro _ u _
      apply (readOnly_assertWithinCutoff _ _ _ _).learns_bind isRely_persists
      intro _ v _
      exact learns_updateAppointment _ _
  | confirm user id =>
      apply (readOnly_loadForAction _ _).learns_bind isRely_persists
      rintro ⟨loaded, isStaff⟩ t _
      apply (readOnly_require _ _).learns_bind isRely_persists
      intro _ u _
      apply (readOnly_requireStatus _ _ _).learns_bind isRely_persists
      intro _ v _
      exact learns_updateAppointment _ _
  | complete user id now => exact learns_closeOut_works user id .completed now
  | noShow user id now => exact learns_closeOut_works user id .noShow now
  | expire now =>
      exact Learns.bind isRely_persists (learns_expireStalePending_works now)
        fun _ _ _ => learns_done fun _ _ _ _ => trivial

/-! ## The staff -/

/-- A write that leaves the directory and the appointments alone. -/
theorem learns_beside
    {w : Database → Except Raised Database}
    (h : ∀ t t', w t = .ok t' → t.Beside t') :
    (write w).Learns Persists (work.Commits env) (fun _ _ => True) s :=
  learns_write fun t t' _ hw => ⟨.beside (h t t' hw), fun _ _ => trivial⟩

/-- What the checks before a soft delete of a barber have seen. -/
theorem learns_deactivateBarber (user : User) (id : Uuid) (now : ℤ) :
    (deactivateBarber user id now).Learns Persists
      ((Work.management (.deactivateBarber user id) now).Commits env)
      (fun _ _ => True) s := by
  rw [deactivateBarber]
  apply Learns.bind isRely_persists (learns_loadBarber id)
  intro barber t hloaded
  obtain ⟨rfl, hworks⟩ := hloaded
  apply Learns.bind isRely_persists
    ((readOnly_getShopOr404 _ _).learns_since isRely_persists
      (learns_getShopOr404 _ _))
  intro shop u hshop
  obtain ⟨⟨-, howned⟩, htu⟩ := hshop
  apply Learns.bind isRely_persists (learns_ensureCanManageShop user shop)
  intro _ v hmay
  obtain ⟨hmay, huv⟩ := hmay
  have hmanaged : v.ManagedBy barber.id user :=
    managedBy_of_owner (huv.barbers _ _ _ (htu.barbers _ _ _ hworks))
      (huv.shops _ _ howned) hmay
  apply (readOnly_refuseUpcoming _ _ _).learns_bind isRely_persists
  intro _ w hvw
  refine learns_write fun x x' hwx hw => ⟨?_, fun _ _ => trivial⟩
  exact .deactivatedBarber user barber.id now _
    (hmanaged.stable (isRely_persists.trans hvw hwx)) hw

theorem learns_updateBarber
    (user : User) (id : Uuid) (payload : BarberUpdate) (now : ℤ) :
    (updateBarber user id payload).Learns Persists
      ((Work.management (.updateBarber user id payload) now).Commits env)
      (fun _ _ => True) s := by
  rw [updateBarber]
  apply Learns.bind isRely_persists (learns_loadBarber id)
  intro barber t hloaded
  obtain ⟨rfl, hworks⟩ := hloaded
  apply Learns.bind isRely_persists (learns_ensureCanManageBarber user hworks)
  intro _ u hmay
  refine learns_write fun v v' huv hw => ⟨?_, fun _ _ => trivial⟩
  refine .updatedBarber user barber.id payload now barber ?_ hw
  rcases hmay with hmanaged | ⟨shopId, hself⟩
  · exact Or.inl (hmanaged.stable huv)
  · exact Or.inr ⟨shopId, huv.barbers _ _ _ hself⟩

theorem learns_managementOp (op : ManagementOp) (now : ℤ) :
    (op.program env now).Learns Persists ((Work.management op now).Commits env)
      (fun _ _ => True) s := by
  cases op with
  | updateBarber user id payload =>
      exact learns_updateBarber user id payload now
  | deactivateBarber user id => exact learns_deactivateBarber user id now
  | updateService user id payload =>
      apply (readOnly_getManageableService _ _).learns_bind isRely_persists
      intro service t _
      exact learns_commitOrConflict fun u u' _ hw => .editedService _ _ hw
  | deactivateService user id =>
      apply (readOnly_getManageableService _ _).learns_bind isRely_persists
      intro service t _
      apply (readOnly_refuseUpcoming _ _ _).learns_bind isRely_persists
      intro _ u _
      exact learns_write fun v v' _ hw =>
        ⟨.editedService _ _ hw, fun _ _ => trivial⟩
  | updateShop user id payload =>
      apply (readOnly_getShopOr404 _ _).learns_bind isRely_persists
      intro shop t _
      apply (readOnly_ensureCanManageShop _ _).learns_bind isRely_persists
      intro _ u _
      exact learns_write fun v v' _ hw =>
        ⟨.editedShop _ _ hw, fun _ _ => trivial⟩
  | deactivateShop user id =>
      apply (readOnly_getShopOr404 _ _).learns_bind isRely_persists
      intro shop t _
      apply (readOnly_ensureCanManageShop _ _).learns_bind isRely_persists
      intro _ u _
      apply (readOnly_refuseUpcoming _ _ _).learns_bind isRely_persists
      intro _ v _
      exact learns_write fun w w' _ hw =>
        ⟨.editedShop _ _ hw, fun _ _ => trivial⟩
  | replaceWorkingHours user barberId items newId =>
      apply (readOnly_loadBarber _).learns_bind isRely_persists
      intro barber t _
      apply (readOnly_ensureCanManageBarber _ _).learns_bind isRely_persists
      intro _ u _
      apply (readOnly_query _).learns_bind isRely_persists
      intro deleted v _
      apply learns_beside
      intro w w' hw
      rw [flushWorkingHours_eq_ok hw]
      exact beside_of_eq rfl rfl rfl rfl rfl rfl
  | createBreak user barberId payload id =>
      apply learns_createBreak isRely_persists
      intro t u u' _ _ _ hw
      rw [insertBreak_eq_ok hw]
      exact .beside (beside_of_eq rfl rfl rfl rfl rfl rfl)
  | deleteBreak user id =>
      apply (readOnly_query _).learns_bind isRely_persists
      intro found t _
      apply (readOnly_rowOr _ _).learns_bind isRely_persists
      intro row u _
      apply (readOnly_loadBarber _).learns_bind isRely_persists
      intro barber v _
      apply (readOnly_ensureCanManageBarber _ _).learns_bind isRely_persists
      intro _ w _
      apply learns_beside
      intro x x' hx
      rw [← Except.ok.inj hx]
      exact beside_of_eq rfl rfl rfl rfl rfl rfl
  | createClosure user shopId payload id =>
      apply (readOnly_getShopOr404 _ _).learns_bind isRely_persists
      intro shop t _
      apply (readOnly_ensureCanManageShop _ _).learns_bind isRely_persists
      intro _ u _
      apply (readOnly_ofExcept _).learns_bind isRely_persists
      intro windowStart v _
      apply (readOnly_ofExcept _).learns_bind isRely_persists
      intro windowEnd w _
      apply (readOnly_ofExcept _).learns_bind isRely_persists
      intro start x _
      apply (readOnly_ofExcept _).learns_bind isRely_persists
      intro stop y _
      apply (readOnly_query _).learns_bind isRely_persists
      intro rows z _
      apply (readOnly_require _ _).learns_bind isRely_persists
      intro _ z' _
      apply learns_commitOrConflict
      intro b b' _ hw
      rw [insertClosure_eq_ok hw]
      exact .beside (beside_of_eq rfl rfl rfl rfl rfl rfl)
  | deleteClosure user id =>
      apply (readOnly_query _).learns_bind isRely_persists
      intro found t _
      apply (readOnly_rowOr _ _).learns_bind isRely_persists
      intro row u _
      apply (readOnly_getShopOr404 _ _).learns_bind isRely_persists
      intro shop v _
      apply (readOnly_ensureCanManageShop _ _).learns_bind isRely_persists
      intro _ w _
      apply learns_beside
      intro x x' hx
      rw [← Except.ok.inj hx]
      exact beside_of_eq rfl rfl rfl rfl rfl rfl

/-! ## The directory -/

theorem readOnly_resolveServices (barber : Barber) (serviceIds : List Uuid) :
    (resolveServices barber serviceIds).ReadOnly := by
  rw [resolveServices]
  split
  · trivial
  · exact (readOnly_query _).bind fun _ => (readOnly_require _ _).bind
      fun _ => trivial

/-- The services that are resolved for a barber are of the barber's shop. -/
theorem learns_resolveServices_soldAt
    {guar : Database → Database → Prop} (barber : Barber)
    (serviceIds : List Uuid) :
    (resolveServices barber serviceIds).Learns Persists guar
      (fun services t => ∀ service ∈ services,
        t.SoldAt service.id barber.shopId) s := by
  rw [resolveServices]
  split
  · apply learns_done
    intro services t hnone _ service hservice
    rw [← Except.ok.inj hnone] at hservice
    simp at hservice
  refine Learns.bind isRely_persists (learns_query (Q := fun found t =>
    ∀ service, (∃ sid ∈ serviceIds, lookup Service.id found sid = some service) →
      t.SoldAt service.id service.shopId) ?_) ?_
  · rintro t u _ htu service ⟨sid, hsid, hrow⟩
    obtain rfl := key_of_lookup hrow
    refine htu.services _ _ ⟨service, ?_, rfl⟩
    rw [lookup, List.find?_filter] at hrow
    rw [service?, lookup, ← hrow]
    congr 1
    funext other
    by_cases hid : other.id = service.id
    · simp [hid, hsid]
    · simp [hid]
  intro found t hfound
  refine Learns.bind isRely_persists (learns_require (Q := fun _ u =>
    t.Persists u ∧ ∀ service ∈ found, service.shopId = barber.shopId) ?_) ?_
  · intro u hnone htu
    refine ⟨htu, ?_⟩
    intro service hservice
    have hforeign := List.filter_eq_nil_iff.mp
      (List.map_eq_nil_iff.mp hnone.2.1) service hservice
    simpa using hforeign
  · intro _ u h
    obtain ⟨htu, hsame⟩ := h
    apply learns_done
    intro services v hservices huv service hservice
    rw [← Except.ok.inj hservices, List.mem_filterMap] at hservice
    obtain ⟨sid, hsid, hrow⟩ := hservice
    rw [← hsame service (mem_of_lookup hrow)]
    exact (isRely_persists.trans htu huv).services _ _
      (hfound service ⟨sid, hsid, hrow⟩)

theorem learns_setServices
    (user : User) (barberId : Uuid) (serviceIds : List Uuid) :
    (setServices user barberId serviceIds).Learns Persists (work.Commits env)
      (fun _ _ => True) s := by
  rw [setServices]
  apply Learns.bind isRely_persists (learns_loadBarber barberId)
  intro barber t hloaded
  obtain ⟨rfl, hworks⟩ := hloaded
  rw [replaceServices]
  apply (readOnly_query _).learns_bind isRely_persists
  intro loaded u htu
  apply (readOnly_getShopOr404 _ _).learns_bind isRely_persists
  intro shop v huv
  apply (readOnly_ensureCanManageShop _ _).learns_bind isRely_persists
  intro _ w hvw
  apply Learns.bind isRely_persists
    ((readOnly_resolveServices _ _).learns_since isRely_persists
      (learns_resolveServices_soldAt barber _))
  intro services x hservices
  obtain ⟨hsold, hwx⟩ := hservices
  refine learns_write fun y y' hxy hw => ⟨?_, fun _ _ => trivial⟩
  refine .setServices barber.id _ _ ?_ hw
  intro serviceId hadded
  obtain ⟨service, hservice, rfl⟩ :=
    List.mem_map.mp (List.mem_filter.mp hadded).1
  have hty := isRely_persists.trans (isRely_persists.trans htu huv)
    (isRely_persists.trans hvw (isRely_persists.trans hwx hxy))
  exact ⟨barber.userId, barber.shopId, hty.barbers _ _ _ hworks,
    hxy.services _ _ (hsold service hservice)⟩

theorem learns_directoryOp (op : DirectoryOp) :
    (op.program env).Learns Persists (work.Commits env) (fun _ _ => True) s := by
  cases op with
  | createShop owner payload id createdAt =>
      exact learns_write fun t t' _ hw =>
        ⟨.createdShop _ hw, fun _ _ => trivial⟩
  | createService user shopId payload id quoted =>
      apply (readOnly_getShopOr404 _ _).learns_bind isRely_persists
      intro shop t _
      apply (readOnly_ensureCanManageShop _ _).learns_bind isRely_persists
      intro _ u _
      exact learns_commitOrConflict fun v v' _ hw => .createdService _ hw
  | addBarber user shopId payload id =>
      apply (readOnly_getShopOr404 _ _).learns_bind isRely_persists
      intro shop t _
      apply (readOnly_ensureCanManageShop _ _).learns_bind isRely_persists
      intro _ u _
      apply (readOnly_query _).learns_bind isRely_persists
      intro found v _
      apply (readOnly_rowOr _ _).learns_bind isRely_persists
      intro account w _
      apply (readOnly_require _ _).learns_bind isRely_persists
      intro _ x _
      exact learns_commitOrConflict fun y y' _ hw => .addedBarber _ _ hw
  | setServices user barberId serviceIds =>
      exact learns_setServices user barberId serviceIds

/-! ## Accounts -/

theorem readOnly_loadRefreshToken (rawToken : String) :
    (loadRefreshToken env rawToken).ReadOnly :=
  (readOnly_query _).bind fun _ => readOnly_rowOr _ _

/-- A flush of a token, which is in no other table. -/
theorem beside_insertRefreshToken {row : RefreshToken} {t t' : Database}
    (h : insertRefreshToken row t = .ok t') : t.Beside t' := by
  rw [(insertRefreshToken_eq_ok h).2]
  exact beside_of_eq rfl rfl rfl rfl rfl rfl

theorem beside_flushAccount {user : User} {t t' : Database}
    (h : flushAccount env user t = .ok t') : t.Beside t' := by
  rw [flushAccount_eq_ok h]
  exact beside_of_eq rfl rfl rfl rfl rfl rfl

theorem beside_flushRehash {user : User} {password salt : String}
    {t t' : Database} (h : flushRehash env user password salt t = .ok t') :
    t.Beside t' := by
  rw [flushRehash] at h
  split at h
  · rw [updatePasswordHash] at h
    split at h
    · rw [← Except.ok.inj h]
      exact beside_of_eq rfl rfl rfl rfl rfl rfl
    · simp at h
  · rw [← Except.ok.inj h]
    exact isRely_beside.refl t

theorem beside_rotateToken {id : Uuid} {moment : ℤ} {row : RefreshToken}
    {t t' : Database} (h : rotateToken id moment row t = .ok t') :
    t.Beside t' := by
  rw [rotateToken] at h
  split at h
  · refine isRely_beside.trans ?_ (beside_insertRefreshToken h)
    exact beside_of_eq rfl rfl rfl rfl rfl rfl
  · simp at h

theorem beside_revokeToken {id : Uuid} {moment : ℤ} {t t' : Database}
    (h : revokeToken id moment t = .ok t') : t.Beside t' := by
  rw [revokeToken] at h
  split at h
  · rw [← Except.ok.inj h]
    exact beside_of_eq rfl rfl rfl rfl rfl rfl
  · simp at h

theorem learns_register (payload : RegisterRequest) (id : Uuid)
    (salt : String) (createdAt : ℤ) (draw : TokenDraw) :
    (register env payload id salt createdAt draw).Learns Persists
      (work.Commits env) (fun _ _ => True) s := by
  rw [register]
  apply Learns.bind isRely_persists (learns_beside ?_)
  · intro _ t _
    apply (readOnly_ofExcept _).learns_bind isRely_persists
    intro _ u _
    exact learns_done fun _ _ _ _ => trivial
  · intro t t' hw
    obtain ⟨u, haccount, hw⟩ := bind_eq_ok_iff.mp hw
    obtain ⟨⟨row, pair⟩, -, hw⟩ := bind_eq_ok_iff.mp hw
    exact isRely_beside.trans (beside_flushAccount haccount)
      (beside_insertRefreshToken hw)

theorem learns_login (email password salt : String) (draw : TokenDraw) :
    (login env email password salt draw).Learns Persists (work.Commits env)
      (fun _ _ => True) s := by
  rw [login]
  apply (readOnly_query _).learns_bind isRely_persists
  intro found t _
  apply (readOnly_rowOr _ _).learns_bind isRely_persists
  intro user u _
  apply (readOnly_require _ _).learns_bind isRely_persists
  intro _ v _
  apply (readOnly_ofExcept _).learns_bind isRely_persists
  rintro ⟨row, pair⟩ w _
  apply Learns.bind isRely_persists (learns_beside ?_)
  · intro _ x _
    exact learns_done fun _ _ _ _ => trivial
  · intro x x' hw
    obtain ⟨y, hrehash, hw⟩ := bind_eq_ok_iff.mp hw
    exact isRely_beside.trans (beside_flushRehash hrehash)
      (beside_insertRefreshToken hw)

theorem learns_refresh (rawToken : String) (draw : TokenDraw) :
    (refresh env rawToken draw).Learns Persists (work.Commits env)
      (fun _ _ => True) s := by
  rw [refresh]
  apply (readOnly_loadRefreshToken _).learns_bind isRely_persists
  intro stored t _
  split
  · refine Learns.bind isRely_persists (Q := fun _ _ => True) ?_ ?_
    · apply (readOnly_query _).learns_bind isRely_persists
      intro live u _
      apply learns_beside
      intro v v' hw
      rw [← Except.ok.inj hw]
      exact beside_of_eq rfl rfl rfl rfl rfl rfl
    · intro _ u _
      exact learns_done fun _ _ _ _ => trivial
  · apply (readOnly_require _ _).learns_bind isRely_persists
    intro _ u _
    apply (readOnly_query _).learns_bind isRely_persists
    intro found v _
    apply (readOnly_rowOr _ _).learns_bind isRely_persists
    intro user w _
    apply (readOnly_ofExcept _).learns_bind isRely_persists
    rintro ⟨row, pair⟩ x _
    apply Learns.bind isRely_persists
      (learns_beside fun _ _ => beside_rotateToken)
    intro _ y _
    exact learns_done fun _ _ _ _ => trivial

theorem learns_logout (rawToken : String) (moment : ℤ) :
    (logout env rawToken moment).Learns Persists (work.Commits env)
      (fun _ _ => True) s := by
  rw [logout]
  apply (readOnly_loadRefreshToken _).learns_bind isRely_persists
  intro stored t _
  split
  · exact learns_done fun _ _ _ _ => trivial
  · exact learns_beside fun _ _ => beside_revokeToken

theorem learns_authOp (op : AuthOp) :
    (op.transaction env).Learns Persists (work.Commits env) (fun _ _ => True)
      s := by
  have hanswer : ∀ (answer : AuthAnswer) (t : Database),
      (pure answer : Request AuthAnswer).Learns Persists (work.Commits env)
        (fun _ _ => True) t := by
    intro answer t
    exact learns_done fun _ _ _ _ => trivial
  cases op with
  | register payload id salt createdAt draw =>
      exact Learns.bind isRely_persists
        (learns_register payload id salt createdAt draw) fun _ t _ => hanswer _ t
  | session op =>
      cases op with
      | login email password salt draw =>
          exact Learns.bind isRely_persists
            (learns_login email password salt draw) fun _ t _ => hanswer _ t
      | refresh rawToken draw =>
          exact Learns.bind isRely_persists (learns_refresh rawToken draw)
            fun _ t _ => hanswer _ t
      | logout rawToken moment =>
          exact Learns.bind isRely_persists (learns_logout rawToken moment)
            fun _ t _ => hanswer _ t

/-- What writes beside the directory only commits nothing else. -/
theorem learns_unlocked {κ μ α : Type}
    {p : LockedTransactions.Transaction Database κ μ Raised α}
    (h : p.Writes Beside) :
    (p.unlocked id).Learns Persists (work.Commits env) (fun _ _ => True) s :=
  Ensures.mono (h.learns_unlocked isRely_beside (fun t => isRely_beside.refl t) s)
    (fun _ _ hbeside => .beside hbeside) fun _ _ h => h

/-! ## Any of them -/

/-- Whatever the others commit between the statements of a work, it commits
only what the list says. -/
theorem work_learns (env : Env) (work : Work) (s : Database) :
    (work.program env).Learns Persists (work.Commits env) (fun _ _ => True)
      s := by
  have hdiscard : ∀ {α : Type} {p : Request α},
      p.Learns Persists (work.Commits env) (fun _ _ => True) s →
      (discard p).Learns Persists (work.Commits env) (fun _ _ => True) s := by
    intro α p h
    exact Learns.bind isRely_persists h fun _ _ _ =>
      learns_done fun _ _ _ _ => trivial
  cases work with
  | booking op =>
      apply learns_program isRely_persists _ (learns_bookingTransaction op)
      intro event id t
      exact .notified (event, id) rfl
  | management op now => exact learns_managementOp op now
  | directory op => exact learns_directoryOp op
  | account op => exact hdiscard (learns_authOp op)
  | rating work =>
      exact hdiscard (learns_unlocked
        ((noted_ratingWork work).mono fun _ _ => Noted.beside))
  | reminders moment =>
      exact hdiscard (learns_unlocked
        ((noted_sendAppointmentReminders moment).mono fun _ _ => Noted.beside))

end

/-! ## The pool -/

variable {ι : Type} [DecidableEq ι]

/-- The works before any has begun. -/
def workPool (env : Env) (works : ι → Work) (db : Database) :
    Pool ι Database Raised Unit where
  committed := db
  running i := (works i).program env

omit [DecidableEq ι] in
/-- Every work keeps to the list, and an invariant that every commit of the
list keeps is kept. -/
theorem workPool_verified
    (env : Env) (works : ι → Work) (db : Database) {Inv : Database → Prop}
    (hdb : Inv db)
    (hcommit : ∀ i s s', Inv s → WorkCommit env s s' (works i) → Inv s') :
    (workPool env works db).Verified Inv (fun _ _ => True)
      (fun _ => Persists) (fun i => (works i).Commits env)
      (fun _ _ _ => True) (fun _ _ _ => True) where
  isRely _ := isRely_persists
  init := hdb
  begin_init _ := trivial
  start i s _ _ :=
    Ensures.mono (work_learns env (works i) s) (fun _ _ h => h)
      fun _ _ _ => trivial
  inv i s s' := hcommit i s s'
  begin_keep _ _ _ _ _ _ _ _ := trivial
  compat _ _ _ _ _ _ h _ := h.persists
  answer _ _ _ _ _ _ _ _ _ := trivial

/-- An invariant that every commit keeps holds in every state of every
interleaving. -/
theorem workPool_invariant
    (env : Env) (works : ι → Work) {db : Database} {Inv : Database → Prop}
    (hdb : Inv db)
    (hcommit : ∀ i s s', Inv s → WorkCommit env s s' (works i) → Inv s')
    (schedule : List ι) : Inv ((workPool env works db).exec schedule).committed :=
  (workPool_verified env works db hdb hcommit).invariant
    fun _ _ _ _ _ _ => trivial

/-- Every step of every interleaving commits nothing, or what the list says. -/
theorem workPool_step
    (env : Env) (works : ι → Work) (db : Database) (started : List ι) (j : ι) :
    let s := ((workPool env works db).exec started).committed
    let s' := ((workPool env works db).exec (started ++ [j])).committed
    s' = s ∨ WorkCommit env s s' (works j) := by
  intro s s'
  have hany : (fun _ : Database => True) db := trivial
  have hverified := workPool_verified env works db hany
    fun _ _ _ _ _ => trivial
  have htol : (workPool env works db).Tolerant (fun _ _ _ => True)
      (started ++ [j]) := fun _ _ _ _ _ _ => trivial
  have hstep := hverified.step_commits htol
  rwa [← exec_concat] at hstep

end BarberHub
