import BarberHub.Search.Shops
import BarberHub.Support.SphericalCaps
import Mathlib.Analysis.Real.Pi.Bounds

/-!
# The box and the circle

Over exact real arithmetic, the box of `bounding_box` is wide enough in
latitude for every circle.  In longitude it is that of a flat map, on which the
180th meridian is an edge.
-/

namespace BarberHub

open Set SphericalCaps ReadCommitted Program
open Real hiding cos sin

/-- The functions of the reals. -/
noncomputable def exactFunctions : FloatFunctions ℝ where
  float q := q
  radians x := x * π / 180
  cos := Real.cos
  sin := Real.sin
  acos := Real.arccos

/-- A search over the reals, with names ordered by code points. -/
noncomputable def exactRules : SearchRules ℝ where
  toFloatFunctions := exactFunctions
  round2 x := round (100 * x) / 100
  collation := .codePoints
  isSpace := Char.isWhitespace
  pythonLower := String.toLower

/-- `math.radians`. -/
noncomputable def radians (x : ℝ) : ℝ :=
  x * π / 180

/-- The condition on the coordinates without the box. -/
noncomputable def nearbyExact (rules : SearchRules ℝ) (criteria : ShopFilters)
    (shop : Barbershop) : Bool :=
  match criteria.radiusKm, criteria.origin with
  | some radiusKm, some origin => shop.inCircle rules origin radiusKm
  | _, _ => !criteria.hasOrigin || shop.latitude.isSome

/-- The coordinates of a shop are those of a point on a map. -/
def Barbershop.OnMap (shop : Barbershop) : Prop :=
  (∀ lat ∈ shop.latitude, -90000000 ≤ lat ∧ lat ≤ 90000000) ∧
    ∀ lng ∈ shop.longitude, -180000000 ≤ lng ∧ lng ≤ 180000000

/-- The box is a prefilter: it has every point of the circle, and the search
answers the same without it. -/
structure Prefilters (lat lng radius : ℝ) : Prop where
  contains : ∀ lat' ∈ Icc (-90 : ℝ) 90, ∀ lng' ∈ Icc (-180 : ℝ) 180,
    haversineKm exactFunctions lat' lng' lat lng ≤ radius →
      (boundingBox exactFunctions lat lng radius).Contains lat' lng'
  search : ∀ (rules : SearchRules ℝ) (env : Env) (criteria : ShopFilters)
    (db : Database) (scan : Paging.Scan (ShopRow ℝ)) (params : PageParams),
    rules.toFloatFunctions = exactFunctions →
    (∀ q ∈ criteria.lat, (q : ℝ) = lat) → (∀ q ∈ criteria.lng, (q : ℝ) = lng) →
    (∀ q ∈ criteria.radiusKm, (q : ℝ) = radius) →
    (∀ shop ∈ db.barbershops, shop.OnMap) →
    (listShops rules env (some criteria) scan params).run db =
      (listShopsWhere rules env criteria (nearbyExact rules criteria) scan
        params).run db

/-- How many degrees of longitude the circle reaches on either side. -/
noncomputable def circleWidth (lat radius : ℝ) : ℝ :=
  halfWidth (radians lat) (radius / 6371) * 180 / π

/-- The flat width is that of the circle where this stays clear of the 180th
meridian, and that of the whole map where it does not. -/
def WideEnough (lat lng radius : ℝ) : Prop :=
  let flatWidth := radius / (111.045 * max (Real.cos (radians lat)) 0.01)
  |lng| + circleWidth lat radius < 180 ∧ circleWidth lat radius ≤ flatWidth ∨
    180 + |lng| ≤ flatWidth

section

variable {lat lng radius lat' lng' : ℝ}

theorem radians_mem (h : lat ∈ Icc (-90 : ℝ) 90) :
    radians lat ∈ Icc (-(π / 2)) (π / 2) := by
  have hpi := pi_pos
  rw [radians]
  constructor
  · nlinarith [h.1]
  · nlinarith [h.2]

theorem abs_radians (x : ℝ) : |radians x| = |x| * π / 180 := by
  rw [radians, abs_div, abs_mul, abs_of_pos pi_pos,
    abs_of_pos (by norm_num : (0 : ℝ) < 180)]

theorem radians_sub (x y : ℝ) : radians (x - y) = radians x - radians y := by
  rw [radians, radians, radians]
  ring

/-- A point is in the circle if its arc is at most the angle of the radius. -/
theorem haversineKm_le_iff (hlat : lat ∈ Icc (-90 : ℝ) 90)
    (hlat' : lat' ∈ Icc (-90 : ℝ) 90) (hradius : 0 ≤ radius)
    (hradius' : radius / 6371 ≤ π) :
    haversineKm exactFunctions lat' lng' lat lng ≤ radius ↔
      Real.cos (radius / 6371) ≤
        cosArc (radians lat) (radians lat') (radians (lng' - lng)) := by
  have hcos := cos_nonneg_of_latitude (radians_mem hlat)
  have hcos' := cos_nonneg_of_latitude (radians_mem hlat')
  have hlow := neg_one_le_cosArc (Δ := radians (lng' - lng)) hcos hcos'
  have hhigh := cosArc_le_one (Δ := radians (lng' - lng)) hcos hcos'
  have hkm : haversineKm exactFunctions lat' lng' lat lng =
      6371 * arccos (cosArc (radians lat) (radians lat')
        (radians (lng' - lng))) := by
    have hclamped : min 1 (max (-1) (cosArc (radians lat) (radians lat')
        (radians (lng' - lng)))) =
          cosArc (radians lat) (radians lat') (radians (lng' - lng)) := by
      rw [max_eq_right hlow, min_eq_right hhigh]
    rw [← hclamped, cosArc, radians_sub]
    simp [haversineKm, clamped, exactFunctions, earthRadiusKm, radians]
  rw [hkm, ← arccos_le_iff_cos_le hlow hhigh (by positivity) hradius',
    le_div_iff₀ (by norm_num), mul_comm]

/-- The box is never too narrow in latitude. -/
theorem abs_sub_lat_le (hlat : lat ∈ Icc (-90 : ℝ) 90)
    (hlat' : lat' ∈ Icc (-90 : ℝ) 90) (hradius : 0 ≤ radius)
    (hradius' : radius / 6371 ≤ π)
    (h : haversineKm exactFunctions lat' lng' lat lng ≤ radius) :
    |lat - lat'| ≤ radius / 111.045 := by
  have harc : |radians lat - radians lat'| ≤ radius / 6371 :=
    abs_sub_le_of_cos_le (radians_mem hlat) (radians_mem hlat')
      (by positivity) hradius' ((haversineKm_le_iff hlat hlat' hradius hradius').mp h)
  rw [← radians_sub, abs_radians] at harc
  -- a degree of latitude is 6371 π / 180 = 111.19... kilometres
  have hpi : 3.14 < π := pi_gt_d2
  have hkm : |lat - lat'| * (6371 * π / 180) ≤ radius := by
    rw [le_div_iff₀ (by norm_num)] at harc
    linarith
  rw [le_div_iff₀ (by norm_num)]
  nlinarith [abs_nonneg (lat - lat')]

/-- What is left of the box for a point of the circle. -/
theorem contains_iff (hlat : lat ∈ Icc (-90 : ℝ) 90)
    (hlat' : lat' ∈ Icc (-90 : ℝ) 90) (hradius : 0 ≤ radius)
    (hradius' : radius / 6371 ≤ π)
    (h : haversineKm exactFunctions lat' lng' lat lng ≤ radius) :
    (boundingBox exactFunctions lat lng radius).Contains lat' lng' ↔
      |lng' - lng| ≤
        radius / (111.045 * max (Real.cos (radians lat)) 0.01) := by
  have hdelta := abs_le.mp (abs_sub_lat_le hlat hlat' hradius hradius' h)
  have hlatitude : max (lat - radius / 111.045) (-90) ≤ lat' ∧
      lat' ≤ min (lat + radius / 111.045) 90 := by
    rw [max_le_iff, le_min_iff]
    exact ⟨⟨by linarith, hlat'.1⟩, by linarith, hlat'.2⟩
  have hbox : (boundingBox exactFunctions lat lng radius).Contains lat' lng' ↔
      (max (lat - radius / 111.045) (-90) ≤ lat' ∧
        lat' ≤ min (lat + radius / 111.045) 90) ∧
      lng - radius / (111.045 * max (Real.cos (radians lat)) 0.01) ≤ lng' ∧
        lng' ≤ lng + radius / (111.045 * max (Real.cos (radians lat)) 0.01) := by
    norm_num [Box.Contains, boundingBox, exactFunctions, kmPerDegreeLat, radians]
  rw [hbox, abs_le]
  constructor
  · rintro ⟨-, hwest, heast⟩
    exact ⟨by linarith, by linarith⟩
  · rintro ⟨hwest, heast⟩
    exact ⟨hlatitude, by linarith, by linarith⟩

theorem radians_degrees (φ : ℝ) : radians (φ * 180 / π) = φ := by
  have hpi := pi_ne_zero
  rw [radians]
  field_simp

theorem degrees_mem {φ : ℝ} (h : φ ∈ Icc (-(π / 2)) (π / 2)) :
    φ * 180 / π ∈ Icc (-90 : ℝ) 90 := by
  have hpi := pi_pos
  constructor
  · rw [le_div_iff₀ hpi]
    linarith [h.1]
  · rw [div_le_iff₀ hpi]
    linarith [h.2]

/-- The angle of a radius that a search accepts. -/
theorem angle_bounds (h : radius ∈ Ioc (0 : ℝ) 500) :
    0 ≤ radius / 6371 ∧ radius / 6371 < π / 2 ∧ radius / 6371 ≤ π := by
  have hpi : 3.14 < π := pi_gt_d2
  obtain ⟨hpos, hmost⟩ := h
  refine ⟨by positivity, ?_, ?_⟩
  · rw [div_lt_iff₀ (by norm_num)]
    nlinarith
  · rw [div_le_iff₀ (by norm_num)]
    nlinarith

/-- The circle has a point at a longitude exactly if that is within its width,
one way around or the other. -/
theorem exists_lat_iff (hlat : lat ∈ Icc (-90 : ℝ) 90)
    (hradius : radius ∈ Ioc (0 : ℝ) 500) (hlng : |lng' - lng| ≤ 2 * 180) :
    (∃ lat' ∈ Icc (-90 : ℝ) 90,
      haversineKm exactFunctions lat' lng' lat lng ≤ radius) ↔
      |lng' - lng| ≤ circleWidth lat radius ∨
        2 * 180 - circleWidth lat radius ≤ |lng' - lng| := by
  obtain ⟨hangle, hquarter, hhalf⟩ := angle_bounds hradius
  have hpi := pi_pos
  have hcos := cos_nonneg_of_latitude (radians_mem hlat)
  have hsin := Real.sin_nonneg_of_nonneg_of_le_pi hangle hhalf
  have hwidth := halfWidth_nonneg hcos hsin
  have hfull : |radians (lng' - lng)| ≤ 2 * π := by
    rw [abs_radians, div_le_iff₀ (by norm_num)]
    nlinarith
  have hcap := exists_latitude_iff (Δ := radians (lng' - lng))
    (radians_mem hlat) hangle hquarter
  rw [cos_le_cos_iff_near hwidth (halfWidth_le_pi _ _) hfull, abs_radians]
    at hcap
  have hdegrees : ∀ x w : ℝ, x * π / 180 ≤ w ↔ x ≤ w * 180 / π := by
    intro x w
    rw [div_le_iff₀ (by norm_num), le_div_iff₀ hpi]
  have hdegrees' : ∀ x w : ℝ, 2 * π - w ≤ x * π / 180 ↔
      2 * 180 - w * 180 / π ≤ x := by
    intro x w
    rw [le_div_iff₀ (by norm_num), sub_le_iff_le_add, ← sub_le_iff_le_add',
      le_div_iff₀ hpi]
    constructor
    · intro h
      linarith
    · intro h
      linarith
  rw [hdegrees, hdegrees'] at hcap
  rw [circleWidth, ← hcap]
  constructor
  · rintro ⟨lat', hlat', h⟩
    exact ⟨radians lat', radians_mem hlat',
      (haversineKm_le_iff hlat hlat' hradius.1.le hhalf).mp h⟩
  · rintro ⟨φ', hφ', h⟩
    refine ⟨φ' * 180 / π, degrees_mem hφ', ?_⟩
    rw [haversineKm_le_iff hlat (degrees_mem hφ') hradius.1.le hhalf,
      radians_degrees]
    exact h

/-- The box has every point of the circle exactly if it is wide enough. -/
theorem forall_contains_iff (hlat : lat ∈ Icc (-90 : ℝ) 90)
    (hlng : lng ∈ Icc (-180 : ℝ) 180) (hradius : radius ∈ Ioc (0 : ℝ) 500) :
    (∀ lat' ∈ Icc (-90 : ℝ) 90, ∀ lng' ∈ Icc (-180 : ℝ) 180,
      haversineKm exactFunctions lat' lng' lat lng ≤ radius →
        (boundingBox exactFunctions lat lng radius).Contains lat' lng') ↔
      WideEnough lat lng radius := by
  obtain ⟨hangle, hquarter, hhalf⟩ := angle_bounds hradius
  have hcos := cos_nonneg_of_latitude (radians_mem hlat)
  have hsin := Real.sin_nonneg_of_nonneg_of_le_pi hangle hhalf
  have hwidth : 0 ≤ circleWidth lat radius := by
    have hhalfWidth := halfWidth_nonneg hcos hsin
    rw [circleWidth]
    positivity
  have hnear : ∀ lng' ∈ Icc (-180 : ℝ) 180, |lng' - lng| ≤ 2 * 180 := by
    intro lng' hlng'
    rw [abs_le]
    exact ⟨by linarith [hlng'.1, hlng.2], by linarith [hlng'.2, hlng.1]⟩
  rw [WideEnough, ← forall_near_le_iff hwidth (abs_le.mpr hlng)]
  constructor
  · intro h lng' hlng' hreach
    obtain ⟨lat', hlat', hcircle⟩ :=
      (exists_lat_iff hlat hradius (hnear lng' hlng')).mpr hreach
    exact (contains_iff hlat hlat' hradius.1.le hhalf hcircle).mp
      (h lat' hlat' lng' hlng' hcircle)
  · intro h lat' hlat' lng' hlng' hcircle
    apply (contains_iff hlat hlat' hradius.1.le hhalf hcircle).mpr
    exact h lng' hlng'
      ((exists_lat_iff hlat hradius (hnear lng' hlng')).mp ⟨lat', hlat', hcircle⟩)

/-! ## The search -/

/-- A shop without a coordinate counts as half the way round the earth. -/
theorem haversineKm_exact_of_null {latColumn lngColumn : Option ℝ} (lat lng : ℝ)
    (h : latColumn = none ∨ lngColumn = none) :
    haversineKm exactFunctions latColumn lngColumn lat lng = 6371 * π := by
  rw [haversineKm_of_null _ lat lng h]
  norm_num [exactFunctions, earthRadiusKm, clamped]

theorem lt_haversineKm_of_null {latColumn lngColumn : Option ℝ} (lat lng : ℝ)
    (h : latColumn = none ∨ lngColumn = none) :
    500 < haversineKm exactFunctions latColumn lngColumn lat lng := by
  rw [haversineKm_exact_of_null lat lng h]
  linarith [pi_gt_three]

/-- A stored shop in the circle is in a box with every point of the circle. -/
theorem inBox_of_inCircle {rules : SearchRules ℝ} {origin : ℚ × ℚ} {radiusKm : ℚ}
    {shop : Barbershop} (hrules : rules.toFloatFunctions = exactFunctions)
    (hmap : shop.OnMap) (hradius : (radiusKm : ℝ) ≤ 500)
    (hbox : ∀ lat' ∈ Icc (-90 : ℝ) 90, ∀ lng' ∈ Icc (-180 : ℝ) 180,
      haversineKm exactFunctions lat' lng' origin.1 origin.2 ≤ radiusKm →
        (boundingBox exactFunctions (origin.1 : ℝ) origin.2 radiusKm).Contains
          lat' lng')
    (h : shop.inCircle rules origin radiusKm = true) :
    shop.inBox rules origin radiusKm = true := by
  have hfloat : ∀ q, rules.float q = q := fun q =>
    congrFun (congrArg FloatFunctions.float hrules) q
  have hcoordinate : ∀ column : ℤ,
      (coordinate rules column : ℝ) = column / 1000000 := by
    intro column
    rw [coordinate, hfloat]
    push_cast
    rfl
  have h := of_decide_eq_true h
  rw [Barbershop.distance, hfloat, hfloat, hfloat, hrules] at h
  rw [Barbershop.inBox]
  have hfar : ∀ lat lng : Option ℝ, lat = none ∨ lng = none →
      ¬ haversineKm exactFunctions lat lng origin.1 origin.2 ≤ radiusKm := by
    intro lat lng hnull hle
    have hlt := lt_haversineKm_of_null (origin.1 : ℝ) (origin.2 : ℝ) hnull
    linarith
  cases hlat : shop.latitude with
  | none =>
      rw [hlat] at h
      exact absurd h (hfar _ _ (Or.inl rfl))
  | some lat =>
      cases hlng : shop.longitude with
      | none =>
          rw [hlng] at h
          exact absurd h (hfar _ _ (Or.inr rfl))
      | some lng =>
          obtain ⟨hsouth, hnorth⟩ := hmap.1 lat hlat
          obtain ⟨hwest, heast⟩ := hmap.2 lng hlng
          have hsouth' : (-90000000 : ℝ) ≤ lat := by exact_mod_cast hsouth
          have hnorth' : (lat : ℝ) ≤ 90000000 := by exact_mod_cast hnorth
          have hwest' : (-180000000 : ℝ) ≤ lng := by exact_mod_cast hwest
          have heast' : (lng : ℝ) ≤ 180000000 := by exact_mod_cast heast
          simp only [hlat, hlng, Option.map_some, decide_eq_true_eq, hrules,
            hcoordinate] at h ⊢
          refine hbox _ ⟨?_, ?_⟩ _ ⟨?_, ?_⟩ h <;> linarith

/-- A box with every point of the circle does not change the condition on the
coordinates. -/
theorem nearby_eq_nearbyExact {rules : SearchRules ℝ} {criteria : ShopFilters}
    {shop : Barbershop} (hrules : rules.toFloatFunctions = exactFunctions)
    (hlat : ∀ q ∈ criteria.lat, (q : ℝ) = lat)
    (hlng : ∀ q ∈ criteria.lng, (q : ℝ) = lng)
    (hradius : ∀ q ∈ criteria.radiusKm, (q : ℝ) = radius)
    (hsmall : radius ≤ 500) (hmap : shop.OnMap)
    (hbox : ∀ lat' ∈ Icc (-90 : ℝ) 90, ∀ lng' ∈ Icc (-180 : ℝ) 180,
      haversineKm exactFunctions lat' lng' lat lng ≤ radius →
        (boundingBox exactFunctions lat lng radius).Contains lat' lng') :
    nearby rules criteria shop = nearbyExact rules criteria shop := by
  rw [nearby, nearbyExact]
  cases hgiven : criteria.radiusKm with
  | none => rfl
  | some radiusKm =>
      cases horigin : criteria.origin with
      | none => rfl
      | some origin =>
          obtain ⟨horiginLat, horiginLng⟩ := ShopFilters.origin_eq_some horigin
          rw [← hlat _ horiginLat, ← hlng _ horiginLng, ← hradius _ hgiven]
            at hbox
          refine Bool.and_eq_right_iff_imp.mpr
            (inBox_of_inCircle hrules hmap ?_ hbox)
          rw [hradius _ hgiven]
          exact hsmall

/-- **The prefilter**: for every origin on the map and every radius a search
accepts, the box never discards a shop inside the circle exactly if it is wide
enough. -/
theorem prefilters_iff (hlat : lat ∈ Icc (-90 : ℝ) 90)
    (hlng : lng ∈ Icc (-180 : ℝ) 180) (hradius : radius ∈ Ioc (0 : ℝ) 500) :
    Prefilters lat lng radius ↔ WideEnough lat lng radius := by
  rw [← forall_contains_iff hlat hlng hradius]
  constructor
  · exact Prefilters.contains
  · intro hbox
    refine ⟨hbox, ?_⟩
    intro rules env criteria db scan params hrules hlat' hlng' hradius' hmap
    apply run_listShopsWhere_congr
    intro shop hshop
    exact nearby_eq_nearbyExact hrules hlat' hlng' hradius' hradius.2
      (hmap shop hshop) hbox

end

/-- Ten kilometres around a point of Almaty. -/
theorem prefilters_iff_almaty :
    Prefilters 43.238949 76.889709 10 ↔ WideEnough 43.238949 76.889709 10 :=
  prefilters_iff (by norm_num) (by norm_num) (by norm_num)

/-- On the 180th meridian a shop at the very place of the origin is discarded
when the two longitudes have different signs. -/
theorem not_prefilters_meridian :
    ¬ ∀ lat ∈ Icc (-90 : ℝ) 90, ∀ lng ∈ Icc (-180 : ℝ) 180,
      ∀ radius ∈ Ioc (0 : ℝ) 500, Prefilters lat lng radius := by
  intro h
  have hequator : (0 : ℝ) ∈ Icc (-90 : ℝ) 90 := by norm_num
  have hsame : haversineKm exactFunctions (0 : ℝ) (-180 : ℝ) 0 180 ≤ 1 := by
    have hone : (1 : ℝ) ∈ Ioc (0 : ℝ) 500 := by norm_num
    obtain ⟨-, -, hhalf⟩ := angle_bounds hone
    rw [haversineKm_le_iff hequator hequator zero_le_one hhalf]
    have hturn : radians (-180 - 180) = -(2 * π) := by
      rw [radians]
      ring
    have hzero : radians 0 = 0 := by
      rw [radians, zero_mul, zero_div]
    rw [hturn, hzero, cosArc, Real.cos_neg, Real.cos_two_pi, Real.cos_zero,
      Real.sin_zero]
    norm_num [Real.cos_le_one]
  have hcontains := (h 0 hequator 180 (by norm_num) 1 (by norm_num)).contains 0
    hequator (-180) (by norm_num) hsame
  have hwest := hcontains.2.1
  norm_num [boundingBox, exactFunctions, kmPerDegreeLat] at hwest

end BarberHub
