import BarberHub.Analytics.Dashboards
import BarberHub.Core.Pagination
import BarberHub.Search.Escaping
import BarberHub.Search.Geo
import BarberHub.Support.Paging
import Mathlib.Data.List.DropRight
import Mathlib.Data.String.Basic

/-!
# The search for shops

`list_shops` of `app/services/barbershop.py`: the filters, the aggregates of a
shop and the order, over the numbers of `Search.Geo`.  A null in a condition is
not true.
-/

namespace BarberHub

open KeyedTable ReadCommitted Program Grouping Rounding Paging LikePattern

/-! ## The query -/

inductive ShopSort where
  | ratingDesc
  | ratingAsc
  | nameAsc
  | nameDesc
  | newest
  | oldest
  | distance
  deriving DecidableEq, Repr

structure ShopFilters where
  city : Option String := none
  q : Option String := none
  service : Option String := none
  minRating : Option ℚ := none
  lat : Option ℚ := none
  lng : Option ℚ := none
  radiusKm : Option ℚ := none
  sort : ShopSort := .ratingDesc
  deriving DecidableEq, Repr

/-- What a search takes from Python, and the order of the database on names. -/
structure SearchRules (F : Type) extends FloatFunctions F where
  /-- `round(x, 2)`. -/
  round2 : F → F
  collation : Collation
  /-- `str.isspace` of a character. -/
  isSpace : Char → Bool
  /-- `str.lower`. -/
  pythonLower : String → String

/-- The collation `C`: by code points. -/
def Collation.codePoints : Collation where
  le a b := a ≤ b
  preorders := by
    simpa only [decide_eq_true_eq] using preorders_le (α := String)
  antisymm h h' := le_antisymm (of_decide_eq_true h) (of_decide_eq_true h')

/-- `BarbershopRead`; the rating in hundredths. -/
structure BarbershopRead (F : Type) where
  id : Uuid
  ownerId : Uuid
  name : String
  description : Option String
  address : String
  city : String
  latitude : Option ℤ
  longitude : Option ℤ
  phone : Option String
  timezone : String
  isActive : Bool
  requiresConfirmation : Bool
  createdAt : ℤ
  rating : ℤ
  reviewsCount : ℤ
  barbersCount : ℕ
  distanceKm : Option F

/-- A row of the query: a shop, its aggregates and its distance. -/
structure ShopRow (F : Type) where
  shop : Barbershop
  rating : ℤ
  reviews : ℤ
  barbers : ℕ
  distance : Option F

/-- `_to_read`. -/
def ShopRow.toRead {F : Type} (round2 : F → F) (row : ShopRow F) :
    BarbershopRead F where
  id := row.shop.id
  ownerId := row.shop.ownerId
  name := row.shop.name
  description := row.shop.description
  address := row.shop.address
  city := row.shop.city
  latitude := row.shop.latitude
  longitude := row.shop.longitude
  phone := row.shop.phone
  timezone := row.shop.timezone
  isActive := row.shop.isActive
  requiresConfirmation := row.shop.requiresConfirmation
  createdAt := row.shop.createdAt
  rating := row.rating
  reviewsCount := row.reviews
  barbersCount := row.barbers
  distanceKm := row.distance.map round2

/-! ## Texts -/

/-- A search string that is given and not empty. -/
def given (value : Option String) : Option String :=
  value.filter (· ≠ "")

/-- `str.strip`. -/
def strip (isSpace : Char → Bool) (value : String) : String :=
  String.ofList ((value.toList.dropWhile isSpace).rdropWhile isSpace)

/-- `ILIKE ... ESCAPE '\'`: both sides are lower-cased.  No pattern of
`containsPattern` is refused. -/
def Env.ilike (env : Env) (pattern : List Char) (text : String) : Bool :=
  like sqlSpecials (env.lower (String.ofList pattern)).toList
    (env.lower text).toList = some true

/-! ## Aggregates -/

namespace Database

variable (db : Database) (shop : Barbershop)

/-- The active barbers of a shop. -/
def activeBarbers : List Barber :=
  db.barbers.filter fun b => b.shopId = shop.id ∧ b.isActive

/-- `coalesce(round(avg(rating), 2), 0)` over the barbers with reviews. -/
def shopRating : ℤ :=
  let ratings :=
    ((db.activeBarbers shop).filter (0 < ·.reviewsCount)).map Barber.rating
  if ratings = [] then 0 else halfUp (ratings.sum / ratings.length)

def shopReviews : ℤ :=
  ((db.activeBarbers shop).map Barber.reviewsCount).sum

def shopBarbers : ℕ :=
  (db.activeBarbers shop).length

end Database

/-! ## Conditions -/

namespace ShopFilters

/-- `origin`. -/
def origin (criteria : ShopFilters) : Option (ℚ × ℚ) :=
  match criteria.lat, criteria.lng with
  | some lat, some lng => some (lat, lng)
  | _, _ => none

def hasOrigin (criteria : ShopFilters) : Bool :=
  criteria.lat.isSome && criteria.lng.isSome

theorem origin_eq_some {criteria : ShopFilters} {origin : ℚ × ℚ}
    (h : criteria.origin = some origin) :
    criteria.lat = some origin.1 ∧ criteria.lng = some origin.2 := by
  rw [ShopFilters.origin] at h
  split at h
  next lat lng hlat hlng =>
    obtain rfl := Option.some.inj h
    exact ⟨hlat, hlng⟩
  next => cases h

end ShopFilters

section

variable {F : Type} [Add F] [Sub F] [Mul F] [Div F] [LinearOrder F]
  (rules : SearchRules F) (env : Env) (db : Database) (criteria : ShopFilters)

/-- A coordinate column, in degrees. -/
def coordinate (column : ℤ) : F :=
  rules.float ((column : ℚ) / 1000000)

/-- `haversine_km` of the columns. -/
def Barbershop.distance (origin : ℚ × ℚ) (shop : Barbershop) : F :=
  haversineKm rules.toFloatFunctions (shop.latitude.map (coordinate rules))
    (shop.longitude.map (coordinate rules)) (rules.float origin.1)
    (rules.float origin.2)

/-- The columns are between the bounds of the box. -/
def Barbershop.inBox (origin : ℚ × ℚ) (radiusKm : ℚ) (shop : Barbershop) :
    Bool :=
  match shop.latitude, shop.longitude with
  | some lat, some lng =>
      (boundingBox rules.toFloatFunctions (rules.float origin.1)
        (rules.float origin.2) (rules.float radiusKm)).Contains
        (coordinate rules lat) (coordinate rules lng)
  | _, _ => false

/-- `distance <= float(criteria.radius_km)`. -/
def Barbershop.inCircle (origin : ℚ × ℚ) (radiusKm : ℚ) (shop : Barbershop) :
    Bool :=
  shop.distance rules origin ≤ rules.float radiusKm

/-- The condition on the coordinates. -/
def nearby (shop : Barbershop) : Bool :=
  match criteria.radiusKm, criteria.origin with
  | some radiusKm, some origin =>
      shop.inBox rules origin radiusKm && shop.inCircle rules origin radiusKm
  | _, _ => !criteria.hasOrigin || shop.latitude.isSome

/-- The conditions of `list_shops`, of which the one on the coordinates is
given. -/
def conditions (near : Barbershop → Bool) (shop : Barbershop) : Bool :=
  let pattern := fun value =>
    containsPattern sqlSpecials (strip rules.isSpace value).toList
  shop.isActive &&
    (given criteria.city).all (fun city =>
      env.lower shop.city = rules.pythonLower (strip rules.isSpace city)) &&
    (given criteria.q).all (fun q =>
      env.ilike (pattern q) shop.name ||
        shop.description.any (env.ilike (pattern q))) &&
    (given criteria.service).all (fun name =>
      db.services.any fun service =>
        service.shopId = shop.id && service.isActive &&
          env.ilike (pattern name) service.name) &&
    criteria.minRating.all (fun least => least ≤ (db.shopRating shop : ℚ) / 100) &&
    near shop

/-- The rows that satisfy the conditions. -/
def shopRows (near : Barbershop → Bool) : List (ShopRow F) :=
  (db.barbershops.filter (conditions rules env db criteria near)).map fun shop =>
    { shop := shop
      rating := db.shopRating shop
      reviews := db.shopReviews shop
      barbers := db.shopBarbers shop
      distance := criteria.origin.map fun origin => shop.distance rules origin }

/-! ## The order -/

/-- The sort key of `_ordering`.  A rating is never null. -/
def primary (sort : ShopSort) (hasOrigin : Bool) (a b : ShopRow F) : Prop :=
  match sort with
  | .ratingDesc => b.rating ≤ a.rating
  | .ratingAsc => a.rating ≤ b.rating
  | .nameAsc =>
      rules.collation.le (env.lower a.shop.name) (env.lower b.shop.name) = true
  | .nameDesc =>
      rules.collation.le (env.lower b.shop.name) (env.lower a.shop.name) = true
  | .oldest => a.shop.createdAt ≤ b.shop.createdAt
  | .distance =>
      hasOrigin = true → nullsLast (· ≤ ·) a.distance b.distance
  | .newest => b.shop.createdAt ≤ a.shop.createdAt

instance (sort : ShopSort) (hasOrigin : Bool) :
    DecidableRel (primary rules env sort hasOrigin) := fun a b =>
  match sort with
  | .ratingDesc => inferInstanceAs (Decidable (b.rating ≤ a.rating))
  | .ratingAsc => inferInstanceAs (Decidable (a.rating ≤ b.rating))
  | .nameAsc => inferInstanceAs (Decidable (rules.collation.le _ _ = true))
  | .nameDesc => inferInstanceAs (Decidable (rules.collation.le _ _ = true))
  | .oldest => inferInstanceAs (Decidable (a.shop.createdAt ≤ b.shop.createdAt))
  | .distance => inferInstanceAs (Decidable (_ → nullsLast (· ≤ ·) _ _))
  | .newest => inferInstanceAs (Decidable (b.shop.createdAt ≤ a.shop.createdAt))

/-- `_ordering`: the sort key, then the id. -/
def ordering : ShopRow F → ShopRow F → Prop :=
  thenBy (primary rules env criteria.sort criteria.hasOrigin)
    fun a b => a.shop.id ≤ b.shop.id

instance : DecidableRel (ordering rules env criteria) :=
  inferInstanceAs (DecidableRel (thenBy _ _))

/-- `list_shops` with a condition on the coordinates; `scan` is the order in
which the database comes to see the rows. -/
def listShopsWhere (near : Barbershop → Bool) (scan : Scan (ShopRow F))
    (params : PageParams) : Request (Page (BarbershopRead F)) := do
  let total ← query fun db =>
    (db.barbershops.filter (conditions rules env db criteria near)).length
  let rows ← query fun db => slice scan (ordering rules env criteria)
    params.offset params.limit (shopRows rules env db criteria near)
  pure (Page.build (rows.map (ShopRow.toRead rules.round2)) total params)

end

/-- The search depends on the condition through the shops there are. -/
theorem run_listShopsWhere_congr {F : Type} [Add F] [Sub F] [Mul F] [Div F]
    [LinearOrder F] {rules : SearchRules F} {env : Env} {criteria : ShopFilters}
    {near near' : Barbershop → Bool} {db : Database}
    (h : ∀ shop ∈ db.barbershops, near shop = near' shop)
    (scan : Scan (ShopRow F)) (params : PageParams) :
    (listShopsWhere rules env criteria near scan params).run db =
      (listShopsWhere rules env criteria near' scan params).run db := by
  have hrows : db.barbershops.filter (conditions rules env db criteria near) =
      db.barbershops.filter (conditions rules env db criteria near') := by
    apply List.filter_congr
    intro shop hshop
    rw [conditions, conditions, h shop hshop]
  simp only [listShopsWhere, query_bind, run_read, shopRows, hrows]

/-- `list_shops`. -/
def listShops {F : Type} [Add F] [Sub F] [Mul F] [Div F] [LinearOrder F]
    (rules : SearchRules F) (env : Env) (filters : Option ShopFilters)
    (scan : Scan (ShopRow F)) (params : PageParams) :
    Request (Page (BarbershopRead F)) :=
  let criteria := filters.getD {}
  listShopsWhere rules env criteria (nearby rules criteria) scan params

end BarberHub
