import Mathlib.Analysis.SpecialFunctions.Trigonometric.Inverse
import Mathlib.Tactic.FieldSimp

/-!
# Spherical caps

The points of a sphere within an angle of a centre, in latitudes and
longitudes.  A cap that contains a pole has points at every longitude;
any other reaches a certain difference of longitudes, at the latitude where its
boundary touches a meridian.  Angles are in radians.
-/

namespace SphericalCaps

open Real Set

/-- The cosine of the arc between points at two latitudes, a difference of
longitudes apart. -/
noncomputable def cosArc (φ φ' Δ : ℝ) : ℝ :=
  cos φ * cos φ' * cos Δ + sin φ * sin φ'

/-- The difference of longitudes a cap reaches on either side. -/
noncomputable def halfWidth (φ δ : ℝ) : ℝ :=
  if cos φ ≤ sin δ then π else arcsin (sin δ / cos φ)

/-- The latitude at which a cap without a pole is widest. -/
noncomputable def widestLatitude (φ δ : ℝ) : ℝ :=
  arcsin (sin φ / cos δ)

variable {φ φ' δ Δ : ℝ}

theorem cos_nonneg_of_latitude (h : φ ∈ Icc (-(π / 2)) (π / 2)) : 0 ≤ cos φ :=
  cos_nonneg_of_mem_Icc h

/-! ## Latitudes -/

/-- Two points on a meridian are closest. -/
theorem cosArc_le_cos_sub (hφ : 0 ≤ cos φ) (hφ' : 0 ≤ cos φ') :
    cosArc φ φ' Δ ≤ cos (φ - φ') := by
  have hscaled := mul_le_mul_of_nonneg_left (cos_le_one Δ) (mul_nonneg hφ hφ')
  rw [cosArc, cos_sub]
  linarith

theorem cosArc_le_one (hφ : 0 ≤ cos φ) (hφ' : 0 ≤ cos φ') :
    cosArc φ φ' Δ ≤ 1 :=
  (cosArc_le_cos_sub hφ hφ').trans (cos_le_one _)

theorem neg_one_le_cosArc (hφ : 0 ≤ cos φ) (hφ' : 0 ≤ cos φ') :
    -1 ≤ cosArc φ φ' Δ := by
  have hscaled :=
    mul_le_mul_of_nonneg_left (neg_one_le_cos Δ) (mul_nonneg hφ hφ')
  have hsum := cos_le_one (φ + φ')
  rw [cos_add] at hsum
  rw [cosArc]
  linarith

/-- An arc is at most an angle when its cosine is at least that of the angle. -/
theorem arccos_le_iff_cos_le {c : ℝ} (hc : -1 ≤ c) (hc' : c ≤ 1)
    (hδ : 0 ≤ δ) (hδ' : δ ≤ π) : arccos c ≤ δ ↔ cos δ ≤ c := by
  have hcos := strictAntiOn_cos.le_iff_ge (a := δ) (b := arccos c)
    ⟨hδ, hδ'⟩ ⟨arccos_nonneg c, arccos_le_pi c⟩
  rw [cos_arccos hc hc'] at hcos
  exact hcos.symm

/-- The latitudes of a cap are within its angle. -/
theorem abs_sub_le_of_cos_le (hφ : φ ∈ Icc (-(π / 2)) (π / 2))
    (hφ' : φ' ∈ Icc (-(π / 2)) (π / 2)) (hδ : 0 ≤ δ) (hδ' : δ ≤ π)
    (h : cos δ ≤ cosArc φ φ' Δ) : |φ - φ'| ≤ δ := by
  have hle : cos δ ≤ cos |φ - φ'| := by
    rw [cos_abs]
    exact h.trans (cosArc_le_cos_sub (cos_nonneg_of_latitude hφ)
      (cos_nonneg_of_latitude hφ'))
  have hrange : |φ - φ'| ≤ π := by
    rw [abs_le]
    constructor
    · linarith [hφ.1, hφ'.2]
    · linarith [hφ.2, hφ'.1]
  exact (strictAntiOn_cos.le_iff_ge ⟨hδ, hδ'⟩ ⟨abs_nonneg _, hrange⟩).mp hle

/-! ## Longitudes -/

/-- A cap around a pole has that pole at every longitude. -/
theorem exists_pole (hφ : φ ∈ Icc (-(π / 2)) (π / 2)) (hδ : 0 ≤ cos δ)
    (h : cos φ ≤ sin δ) :
    ∃ φ' ∈ Icc (-(π / 2)) (π / 2), cos δ ≤ cosArc φ φ' Δ := by
  have hle : cos δ ≤ |sin φ| := by
    rw [← abs_of_nonneg hδ, ← sq_le_sq, cos_sq', sin_sq φ]
    have hsquare := pow_le_pow_left₀ (cos_nonneg_of_latitude hφ) h 2
    linarith
  have hpi := pi_pos
  rcases le_total 0 (sin φ) with hnorth | hsouth
  · refine ⟨π / 2, ⟨by linarith, le_rfl⟩, ?_⟩
    rw [abs_of_nonneg hnorth] at hle
    simpa [cosArc] using hle
  · refine ⟨-(π / 2), ⟨le_rfl, by linarith⟩, ?_⟩
    rw [abs_of_nonpos hsouth] at hle
    simpa [cosArc] using hle

/-- On a great circle through the meridian an arc is no shorter. -/
theorem cosArc_sq_le (φ φ' Δ : ℝ) :
    cosArc φ φ' Δ ^ 2 ≤ 1 - (cos φ * sin Δ) ^ 2 := by
  have hcauchy : 0 ≤ (cos φ * cos Δ * sin φ' - sin φ * cos φ') ^ 2 :=
    sq_nonneg _
  have hφ := sin_sq_add_cos_sq φ
  have hφ' := sin_sq_add_cos_sq φ'
  have hΔ := sin_sq_add_cos_sq Δ
  have hsum : cosArc φ φ' Δ ^ 2 +
      (cos φ * cos Δ * sin φ' - sin φ * cos φ') ^ 2 =
        ((cos φ * cos Δ) ^ 2 + sin φ ^ 2) * (sin φ' ^ 2 + cos φ' ^ 2) := by
    rw [cosArc]
    ring
  have hwidth : (cos φ * cos Δ) ^ 2 + sin φ ^ 2 = 1 - (cos φ * sin Δ) ^ 2 := by
    rw [mul_pow, mul_pow]
    linear_combination hφ + (cos φ ^ 2) * hΔ
  rw [hφ', mul_one, hwidth] at hsum
  linarith

theorem sin_div_cos_mem (hsin : 0 ≤ sin δ) (hpole : sin δ < cos φ) :
    sin δ / cos φ ∈ Icc (-1 : ℝ) 1 := by
  have hcos : 0 < cos φ := hsin.trans_lt hpole
  constructor
  · exact le_trans (by norm_num) (div_nonneg hsin hcos.le)
  · rw [div_le_one hcos]
    exact hpole.le

section NoPole

variable (hδ : 0 < cos δ) (hsin : 0 ≤ sin δ) (hpole : sin δ < cos φ)

include hδ hsin hpole

theorem abs_sin_lt : |sin φ| < cos δ := by
  rw [← abs_of_pos hδ, ← sq_lt_sq, cos_sq', sin_sq φ]
  have hsquare := pow_lt_pow_left₀ hpole hsin two_ne_zero
  linarith

/-- The point where the boundary of the cap touches a meridian. -/
theorem cosArc_widestLatitude :
    cosArc φ (widestLatitude φ δ) (arcsin (sin δ / cos φ)) = cos δ := by
  have hcos : 0 < cos φ := hsin.trans_lt hpole
  have hwidth := sin_div_cos_mem hsin hpole
  have hlat : sin φ / cos δ ∈ Icc (-1 : ℝ) 1 := by
    have habs := abs_le.mp (abs_sin_lt hδ hsin hpole).le
    constructor
    · rw [le_div_iff₀ hδ]
      linarith
    · rw [div_le_one hδ]
      exact habs.2
  have hrest : 0 ≤ cos δ ^ 2 - sin φ ^ 2 := by
    have hsquare := pow_le_pow_left₀ hsin hpole.le 2
    rw [cos_sq', sin_sq φ]
    linarith
  have hproduct : √(1 - (sin φ / cos δ) ^ 2) * √(1 - (sin δ / cos φ) ^ 2) =
      (cos δ ^ 2 - sin φ ^ 2) / (cos δ * cos φ) := by
    have hsame : cos φ ^ 2 - sin δ ^ 2 = cos δ ^ 2 - sin φ ^ 2 := by
      rw [cos_sq', cos_sq']
      ring
    have hsquare : (1 - (sin φ / cos δ) ^ 2) * (1 - (sin δ / cos φ) ^ 2) =
        ((cos δ ^ 2 - sin φ ^ 2) / (cos δ * cos φ)) ^ 2 := by
      field_simp
      rw [hsame]
      ring
    have hfactor : 0 ≤ 1 - (sin δ / cos φ) ^ 2 := by
      nlinarith [hwidth.1, hwidth.2]
    rw [← sqrt_mul' _ hfactor, hsquare]
    exact sqrt_sq (by positivity)
  rw [cosArc, widestLatitude, sin_arcsin hlat.1 hlat.2, cos_arcsin, cos_arcsin,
    mul_assoc, hproduct]
  field_simp
  ring

variable (hφ : φ ∈ Icc (-(π / 2)) (π / 2))

include hφ

/-- The points of a cap without a pole are on its side of the sphere. -/
theorem cos_nonneg_of_cos_le (hφ' : φ' ∈ Icc (-(π / 2)) (π / 2))
    (h : cos δ ≤ cosArc φ φ' Δ) : 0 ≤ cos Δ := by
  by_contra hneg
  push Not at hneg
  have hnear := mul_nonneg (cos_nonneg_of_latitude hφ)
    (cos_nonneg_of_latitude hφ')
  have hfar : cos φ * cos φ' * cos Δ ≤ 0 :=
    mul_nonpos_of_nonneg_of_nonpos hnear hneg.le
  have hsines : sin φ * sin φ' ≤ |sin φ| := by
    calc sin φ * sin φ' ≤ |sin φ * sin φ'| := le_abs_self _
      _ = |sin φ| * |sin φ'| := abs_mul _ _
      _ ≤ |sin φ| := mul_le_of_le_one_right (abs_nonneg _) (abs_sin_le_one φ')
  rw [cosArc] at h
  linarith [abs_sin_lt hδ hsin hpole]

/-- No point of a cap without a pole is farther away in longitude. -/
theorem cos_halfWidth_le (hφ' : φ' ∈ Icc (-(π / 2)) (π / 2))
    (h : cos δ ≤ cosArc φ φ' Δ) : cos (arcsin (sin δ / cos φ)) ≤ cos Δ := by
  have hcos : 0 < cos φ := hsin.trans_lt hpole
  have hside := cos_nonneg_of_cos_le hδ hsin hpole hφ hφ' h
  have hsquare : cos δ ^ 2 ≤ 1 - (cos φ * sin Δ) ^ 2 :=
    (pow_le_pow_left₀ hδ.le h 2).trans (cosArc_sq_le φ φ' Δ)
  have hsine : sin Δ ^ 2 ≤ (sin δ / cos φ) ^ 2 := by
    rw [div_pow, le_div_iff₀ (by positivity), ← mul_pow, mul_comm]
    linarith [sin_sq_add_cos_sq δ]
  rw [cos_arcsin]
  apply sqrt_le_iff.mpr
  refine ⟨hside, ?_⟩
  rw [cos_sq']
  linarith

theorem exists_widest (h : cos (arcsin (sin δ / cos φ)) ≤ cos Δ) :
    ∃ φ' ∈ Icc (-(π / 2)) (π / 2), cos δ ≤ cosArc φ φ' Δ := by
  refine ⟨widestLatitude φ δ, arcsin_mem_Icc _, ?_⟩
  rw [← cosArc_widestLatitude hδ hsin hpole, cosArc, cosArc]
  have hnear : 0 ≤ cos φ * cos (widestLatitude φ δ) :=
    mul_nonneg (cos_nonneg_of_latitude hφ) (cos_arcsin_nonneg _)
  linarith [mul_le_mul_of_nonneg_left h hnear]

end NoPole

/-- A cap has a point at a longitude exactly if that is no farther away than its
half width. -/
theorem exists_latitude_iff (hφ : φ ∈ Icc (-(π / 2)) (π / 2)) (hδ : 0 ≤ δ)
    (hδ' : δ < π / 2) :
    (∃ φ' ∈ Icc (-(π / 2)) (π / 2), cos δ ≤ cosArc φ φ' Δ) ↔
      cos (halfWidth φ δ) ≤ cos Δ := by
  have hcos : 0 < cos δ := cos_pos_of_mem_Ioo ⟨by linarith, hδ'⟩
  have hsin : 0 ≤ sin δ := sin_nonneg_of_nonneg_of_le_pi hδ (by linarith)
  rw [halfWidth]
  by_cases hpole : cos φ ≤ sin δ
  · rw [if_pos hpole, cos_pi]
    exact iff_of_true (exists_pole hφ hcos.le hpole) (neg_one_le_cos Δ)
  · rw [if_neg hpole]
    push Not at hpole
    constructor
    · rintro ⟨φ', hφ', h⟩
      exact cos_halfWidth_le hcos hsin hpole hφ hφ' h
    · exact exists_widest hcos hsin hpole hφ

theorem halfWidth_nonneg (hφ : 0 ≤ cos φ) (hδ : 0 ≤ sin δ) :
    0 ≤ halfWidth φ δ := by
  rw [halfWidth]
  split
  · exact pi_nonneg
  · exact arcsin_nonneg.mpr (div_nonneg hδ hφ)

theorem halfWidth_le_pi (φ δ : ℝ) : halfWidth φ δ ≤ π := by
  rw [halfWidth]
  split
  · exact le_rfl
  · exact (arcsin_le_pi_div_two _).trans (by linarith [pi_pos])

/-- Angles up to a full turn that are near, one way around or the other. -/
theorem cos_le_cos_iff_near {w x : ℝ} (hw : 0 ≤ w) (hw' : w ≤ π)
    (hx : |x| ≤ 2 * π) :
    cos w ≤ cos x ↔ |x| ≤ w ∨ 2 * π - w ≤ |x| := by
  rw [← cos_abs x]
  have hpi := pi_pos
  rcases le_total |x| π with hnear | hfar
  · rw [strictAntiOn_cos.le_iff_ge ⟨hw, hw'⟩ ⟨abs_nonneg x, hnear⟩]
    constructor
    · exact Or.inl
    · rintro (h | h)
      · exact h
      · linarith
  · rw [← cos_two_pi_sub |x|, strictAntiOn_cos.le_iff_ge ⟨hw, hw'⟩
      ⟨by linarith, by linarith⟩]
    constructor
    · intro h
      exact Or.inr (by linarith)
    · rintro (h | h)
      · linarith
      · linarith

/-- The longitudes near another one, on a map that is cut at half a turn, are
within a bound exactly if the width is and the cut is not near, or if the whole
map is. -/
theorem forall_near_le_iff {half w b lng : ℝ} (hw : 0 ≤ w)
    (hlng : |lng| ≤ half) :
    (∀ lng' ∈ Icc (-half) half,
      |lng' - lng| ≤ w ∨ 2 * half - w ≤ |lng' - lng| → |lng' - lng| ≤ b) ↔
      |lng| + w < half ∧ w ≤ b ∨ half + |lng| ≤ b := by
  obtain ⟨hwest, heast⟩ := abs_le.mp hlng
  constructor
  · intro h
    by_cases hcut : |lng| + w < half
    · left
      refine ⟨hcut, ?_⟩
      have hreach := h (lng + w) ⟨by linarith,
        by linarith [le_abs_self lng]⟩
      rw [add_sub_cancel_left, abs_of_nonneg hw] at hreach
      exact hreach (Or.inl le_rfl)
    · right
      push Not at hcut
      rcases le_total 0 lng with hpos | hneg
      · rw [abs_of_nonneg hpos] at hcut ⊢
        have hedge : |-half - lng| = half + lng := by
          rw [abs_of_nonpos (by linarith)]
          ring
        have hreach := h (-half) ⟨le_rfl, by linarith⟩
        rw [hedge] at hreach
        exact hreach (Or.inr (by linarith))
      · rw [abs_of_nonpos hneg] at hcut ⊢
        have hedge : |half - lng| = half + -lng := by
          rw [abs_of_nonneg (by linarith)]
          ring
        have hreach := h half ⟨by linarith, le_rfl⟩
        rw [hedge] at hreach
        exact hreach (Or.inr (by linarith))
  · intro h lng' hlng' hnear
    have hmap : |lng' - lng| ≤ half + |lng| :=
      (abs_sub lng' lng).trans (by linarith [abs_le.mpr hlng'])
    rcases h with ⟨hcut, hbound⟩ | hbound
    · rcases hnear with hnear | hfar
      · exact hnear.trans hbound
      · linarith
    · exact hmap.trans hbound

end SphericalCaps
