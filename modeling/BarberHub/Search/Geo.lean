import Mathlib.Data.Rat.Defs
import Mathlib.Order.Lattice

/-!
# Distances

`app/services/geo.py`, over the numbers the floats stand for: a linear order
with the four operations, and the functions that are not operations.
-/

namespace BarberHub

/-- What `geo.py` takes from `math` and from the database. -/
structure FloatFunctions (F : Type) where
  /-- `float` of a decimal, and `cast(Float)` of a column. -/
  float : ℚ → F
  radians : F → F
  cos : F → F
  sin : F → F
  acos : F → F

/-- `EARTH_RADIUS_KM`. -/
def earthRadiusKm : ℚ := 6371

/-- `KM_PER_DEGREE_LAT`. -/
def kmPerDegreeLat : ℚ := 111045 / 1000

/-- The bounds on latitude and longitude. -/
structure Box (F : Type) where
  latMin : F
  latMax : F
  lngMin : F
  lngMax : F

section

variable {F : Type} [Add F] [Sub F] [Mul F] [Div F] [LinearOrder F]
  (fn : FloatFunctions F)

/-- `least(1.0, greatest(-1.0, cosine))`.  Of a null and a number both take the
number. -/
def clamped (cosine : Option F) : F :=
  min (fn.float 1) (cosine.elim (fn.float (-1)) (max (fn.float (-1))))

/-- `haversine_km`; a column may be null. -/
def haversineKm (latColumn lngColumn : Option F) (lat lng : F) : F :=
  let originLat := fn.radians lat
  let originLng := fn.radians lng
  let cosine := do
    let targetLat := fn.radians (← latColumn)
    let targetLng := fn.radians (← lngColumn)
    some (fn.cos originLat * fn.cos targetLat *
        fn.cos (targetLng - originLng) +
      fn.sin originLat * fn.sin targetLat)
  fn.float earthRadiusKm * fn.acos (clamped fn cosine)

omit [Div F] in
/-- Without a coordinate the distance is that of the farthest point. -/
theorem haversineKm_of_null {latColumn lngColumn : Option F} (lat lng : F)
    (h : latColumn = none ∨ lngColumn = none) :
    haversineKm fn latColumn lngColumn lat lng =
      fn.float earthRadiusKm * fn.acos (clamped fn none) := by
  rcases h with rfl | rfl
  · rfl
  · cases latColumn <;> rfl

def boundingBox (lat lng radiusKm : F) : Box F :=
  let latDelta := radiusKm / fn.float kmPerDegreeLat
  let shrink := max (fn.cos (fn.radians lat)) (fn.float (1 / 100))
  let lngDelta := radiusKm / (fn.float kmPerDegreeLat * shrink)
  { latMin := max (lat - latDelta) (fn.float (-90))
    latMax := min (lat + latDelta) (fn.float 90)
    lngMin := lng - lngDelta
    lngMax := lng + lngDelta }

end

/-- `latitude BETWEEN ... AND longitude BETWEEN ...`. -/
def Box.Contains {F : Type} [LinearOrder F] (box : Box F) (lat lng : F) : Prop :=
  (box.latMin ≤ lat ∧ lat ≤ box.latMax) ∧ box.lngMin ≤ lng ∧ lng ≤ box.lngMax

instance {F : Type} [LinearOrder F] (box : Box F) (lat lng : F) :
    Decidable (box.Contains lat lng) :=
  inferInstanceAs (Decidable (_ ∧ _))

end BarberHub
