import BarberHub.Core.Environment

/-!
# Ownership checks

`app/services/permissions.py`: whether a user may see or manage a shop, and
whether they may manage a barber.
-/

namespace BarberHub

open ReadCommitted Program

/-- `_can_manage_shop`. -/
def canManageShop (user : Option User) (shop : Barbershop) : Bool :=
  user.any fun user => user.role = .admin ∨ shop.ownerId = user.id

/-- `get_shop_or_404`: a shop, soft-deleted ones for their managers only. -/
def getShopOr404 (shopId : Uuid) (viewer : Option User) :
    Request Barbershop := do
  let found ← query (·.barbershop? shopId)
  let shop ← rowOr (notFound "Barbershop not found") found
  require (shop.isActive = true ∨ canManageShop viewer shop = true)
    (notFound "Barbershop not found")
  pure shop

def ensureCanManageShop (user : User) (shop : Barbershop) : Request Unit :=
  require (canManageShop (some user) shop = true)
    (forbidden "You do not own this barbershop")

/-- `ensure_can_manage_barber`: their own row, or any barber in a shop they
own. -/
def ensureCanManageBarber (user : User) (barber : Barber) : Request Unit :=
  if user.role = .admin ∨ barber.userId = user.id then pure ()
  else do
    let shop ← query (·.barbershop? barber.shopId)
    require (shop.any (fun shop => shop.ownerId = user.id) = true)
      (forbidden "You do not manage this barber")

theorem readOnly_getShopOr404 (shopId : Uuid) (viewer : Option User) :
    (getShopOr404 shopId viewer).ReadOnly :=
  (readOnly_query _).bind fun _ => (readOnly_rowOr _ _).bind fun _ =>
    (readOnly_require _ _).bind fun _ => trivial

theorem readOnly_ensureCanManageShop (user : User) (shop : Barbershop) :
    (ensureCanManageShop user shop).ReadOnly :=
  readOnly_require _ _

theorem readOnly_ensureCanManageBarber (user : User) (barber : Barber) :
    (ensureCanManageBarber user barber).ReadOnly := by
  rw [ensureCanManageBarber]
  split
  · trivial
  · exact (readOnly_query _).bind fun _ => readOnly_require _ _

theorem run_getShopOr404_eq_ok_iff
    {shopId : Uuid} {viewer : Option User} {shop : Barbershop}
    {db db' : Database} :
    (getShopOr404 shopId viewer).run db = (.ok shop, db') ↔
      db.barbershop? shopId = some shop ∧
        (shop.isActive = true ∨ canManageShop viewer shop = true) ∧
        db' = db := by
  rw [getShopOr404]
  simp only [query_bind, run_read, run_rowOr_bind_eq_ok_iff,
    run_require_bind_eq_ok_iff, pure_eq_done, run_done, Prod.mk.injEq,
    Except.ok.injEq]
  constructor
  · rintro ⟨s, hs, hvisible, rfl, rfl⟩
    exact ⟨hs, hvisible, rfl⟩
  · rintro ⟨hs, hvisible, rfl⟩
    exact ⟨shop, hs, hvisible, rfl, rfl⟩

end BarberHub
