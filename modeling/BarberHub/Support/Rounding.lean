import Mathlib.Data.Int.Log
import Mathlib.Data.Rat.Floor
import Mathlib.Tactic.Linarith

/-!
# Rounding

`ROUND_HALF_UP` and `ROUND_HALF_EVEN` of decimal arithmetic: to the nearest
integer, and a tie away from zero or to the even one of the two.
-/

namespace Rounding

/-- The nearest integer, the one farther from zero for a tie. -/
def halfUp (x : ℚ) : ℤ :=
  if 0 ≤ x then ⌊x + 1 / 2⌋ else ⌈x - 1 / 2⌉

theorem halfUp_of_nonneg {x : ℚ} (h : 0 ≤ x) : halfUp x = ⌊x + 1 / 2⌋ :=
  if_pos h

/-- The integer within a half, above it for a tie. -/
theorem floor_add_half_eq_iff {x : ℚ} {n : ℤ} :
    ⌊x + 1 / 2⌋ = n ↔ (n : ℚ) - 1 / 2 ≤ x ∧ x < n + 1 / 2 := by
  rw [Int.floor_eq_iff]
  constructor
  · rintro ⟨hlow, hhigh⟩
    exact ⟨by linarith, by linarith⟩
  · rintro ⟨hlow, hhigh⟩
    exact ⟨by linarith, by linarith⟩

example : halfUp (433 / 100 * 100 + 1 / 2) = 434 := by decide +kernel

/-- The nearest integer, the even one for a tie. -/
def halfEven (x : ℚ) : ℤ :=
  if x - ⌊x⌋ < 1 / 2 then ⌊x⌋
  else if 1 / 2 < x - ⌊x⌋ then ⌊x⌋ + 1
  else if ⌊x⌋ % 2 = 0 then ⌊x⌋ else ⌊x⌋ + 1

theorem halfEven_intCast (n : ℤ) : halfEven n = n := by
  rw [halfEven, Int.floor_intCast, sub_self, if_pos]
  norm_num

theorem halfEven_le_ceil (x : ℚ) : halfEven x ≤ ⌈x⌉ := by
  have hfloor : ⌊x⌋ ≤ ⌈x⌉ := Int.floor_le_ceil x
  rw [halfEven]
  split
  · exact hfloor
  · have hfrac : (⌊x⌋ : ℚ) < x := by linarith
    have hceil : ⌊x⌋ + 1 ≤ ⌈x⌉ := Int.add_one_le_of_lt (Int.lt_ceil.mpr hfrac)
    split
    · exact hceil
    · split
      · exact hfloor
      · exact hceil

theorem floor_le_halfEven (x : ℚ) : ⌊x⌋ ≤ halfEven x := by
  rw [halfEven]
  split
  · exact le_rfl
  · split
    · omega
    · split
      · exact le_rfl
      · omega

/-- Rounding does not pass an integer. -/
theorem halfEven_le {x : ℚ} {n : ℤ} (h : x ≤ n) : halfEven x ≤ n :=
  (halfEven_le_ceil x).trans (Int.ceil_le.mpr h)

theorem le_halfEven {x : ℚ} {n : ℤ} (h : (n : ℚ) ≤ x) : n ≤ halfEven x :=
  (Int.le_floor.mpr h).trans (floor_le_halfEven x)

/-- The rounded number is within a half. -/
theorem abs_halfEven_sub_le (x : ℚ) : |(halfEven x : ℚ) - x| ≤ 1 / 2 := by
  have hlow : (⌊x⌋ : ℚ) ≤ x := Int.floor_le x
  have hhigh : x < ⌊x⌋ + 1 := Int.lt_floor_add_one x
  rw [abs_le, halfEven]
  split
  · constructor <;> linarith
  · split
    · push_cast
      constructor <;> linarith
    · split
      · constructor <;> linarith
      · push_cast
        constructor <;> linarith

/-- The nearest number with so many significant decimal digits. -/
def toDigits (digits : ℕ) (x : ℚ) : ℚ :=
  halfEven (x / 10 ^ (Int.log 10 |x| + 1 - digits)) *
    10 ^ (Int.log 10 |x| + 1 - digits)

/-- Rounding to digits does not pass an integer that has no more of them. -/
theorem toDigits_le {digits : ℕ} {x : ℚ} {n : ℤ} (hx : 0 ≤ x) (h : x ≤ n)
    (hn : n < 10 ^ digits) : toDigits digits x ≤ n := by
  rcases hx.eq_or_lt with rfl | hpos
  · have hzero : halfEven 0 = 0 := by exact_mod_cast halfEven_intCast 0
    rw [toDigits, zero_div, hzero, Int.cast_zero, zero_mul]
    exact h
  · have hlog : Int.log 10 x < digits := by
      rw [← Int.lt_zpow_iff_log_lt (by norm_num) hpos, zpow_natCast]
      exact h.trans_lt (by exact_mod_cast hn)
    obtain ⟨k, hk⟩ := Int.exists_add_of_le (Int.add_one_le_of_lt hlog)
    have hexp : Int.log 10 |x| + 1 - (digits : ℤ) = -(k : ℤ) := by
      rw [abs_of_pos hpos]
      omega
    have hscale : (0 : ℚ) < 10 ^ k := by positivity
    rw [toDigits, hexp, zpow_neg, zpow_natCast, div_inv_eq_mul,
      mul_inv_le_iff₀ hscale]
    have hround : halfEven (x * 10 ^ k) ≤ n * 10 ^ k := by
      apply halfEven_le
      push_cast
      exact mul_le_mul_of_nonneg_right h hscale.le
    exact_mod_cast hround

theorem toDigits_nonneg {digits : ℕ} {x : ℚ} (hx : 0 ≤ x) :
    0 ≤ toDigits digits x := by
  have hscale : ∀ e : ℤ, (0 : ℚ) ≤ 10 ^ e := fun e => zpow_nonneg (by norm_num) e
  apply mul_nonneg _ (hscale _)
  have hround : (0 : ℤ) ≤ halfEven (x / 10 ^ (Int.log 10 |x| + 1 - digits)) := by
    apply le_halfEven
    rw [Int.cast_zero]
    exact div_nonneg hx (hscale _)
  exact_mod_cast hround

/-- Numbers of so many digits are that close to the numbers they stand for. -/
theorem abs_toDigits_sub_le (digits : ℕ) (x : ℚ) :
    |toDigits digits x - x| ≤ 1 / 2 * 10 ^ (Int.log 10 |x| + 1 - digits) := by
  have hunit : (0 : ℚ) < 10 ^ (Int.log 10 |x| + 1 - digits) :=
    zpow_pos (by norm_num) _
  rw [toDigits]
  generalize (10 : ℚ) ^ (Int.log 10 |x| + 1 - digits) = unit at hunit ⊢
  have hround := abs_halfEven_sub_le (x / unit)
  have hx : x = x / unit * unit := (div_mul_cancel₀ x hunit.ne').symm
  calc |(halfEven (x / unit) : ℚ) * unit - x|
      = |((halfEven (x / unit) : ℚ) - x / unit) * unit| := by
        rw [sub_mul, ← hx]
    _ = |(halfEven (x / unit) : ℚ) - x / unit| * unit := by
        rw [abs_mul, abs_of_pos hunit]
    _ ≤ 1 / 2 * unit := mul_le_mul_of_nonneg_right hround hunit.le

/-- A quotient that is first taken to some digits and then rounded is within a
half, if the dividend has fewer digits. -/
theorem abs_halfEven_toDigits_sub_le {digits n : ℕ} {total : ℤ} (hn : 0 < n)
    (htotal : 0 ≤ total) (h : 10 * total < 10 ^ digits) :
    |(halfEven (toDigits digits ((total : ℚ) / n)) : ℚ) - (total : ℚ) / n| ≤
      1 / 2 := by
  have hn' : (0 : ℚ) < n := by exact_mod_cast hn
  rcases htotal.eq_or_lt with rfl | hpos
  · have hzero : halfEven 0 = 0 := by exact_mod_cast halfEven_intCast 0
    simp [toDigits, hzero]
  have hx : (0 : ℚ) < (total : ℚ) / n := div_pos (by exact_mod_cast hpos) hn'
  have hclose := abs_toDigits_sub_le digits ((total : ℚ) / n)
  have hround := abs_halfEven_sub_le (toDigits digits ((total : ℚ) / n))
  -- the last digit is worth less than the smallest distance to a tie
  have hunit : (n : ℚ) * 10 ^ (Int.log 10 |(total : ℚ) / n| + 1 - digits) < 1 := by
    have hlog : (10 : ℚ) ^ Int.log 10 ((total : ℚ) / n) ≤ (total : ℚ) / n :=
      Int.zpow_log_le_self (by norm_num) hx
    have hdigits : (10 : ℚ) * total < 10 ^ digits := by exact_mod_cast h
    have hscale : (0 : ℚ) < 10 ^ digits := by positivity
    rw [abs_of_pos hx, zpow_sub₀ (by norm_num), zpow_add₀ (by norm_num), zpow_one,
      zpow_natCast, ← mul_div_assoc, div_lt_one hscale]
    rw [le_div_iff₀ hn'] at hlog
    linarith
  generalize (10 : ℚ) ^ (Int.log 10 |(total : ℚ) / n| + 1 - digits) = unit
    at hclose hunit
  generalize toDigits digits ((total : ℚ) / n) = y at hclose hround ⊢
  generalize hm : halfEven y = m at hround ⊢
  rw [abs_le] at hclose hround ⊢
  have hcancel : (total : ℚ) / n * n = total := div_mul_cancel₀ _ hn'.ne'
  generalize (total : ℚ) / n = x at hclose hcancel ⊢
  constructor
  · by_contra hfar
    -- twice the distances are integers over the divisor
    have hint : 2 * m * (n : ℤ) + n + 1 ≤ 2 * total := by
      have hlt : (2 * m * n + n : ℚ) < 2 * total := by
        rw [← hcancel]
        nlinarith
      exact_mod_cast hlt
    have hint' : (2 * m * n + n + 1 : ℚ) ≤ 2 * total := by exact_mod_cast hint
    nlinarith
  · by_contra hfar
    have hint : 2 * total + 1 ≤ 2 * m * (n : ℤ) - n := by
      have hlt : (2 * total : ℚ) < 2 * m * n - n := by
        rw [← hcancel]
        nlinarith
      exact_mod_cast hlt
    have hint' : (2 * total + 1 : ℚ) ≤ 2 * m * n - n := by exact_mod_cast hint
    nlinarith

example : halfEven (toDigits 28 (1000000 / 3)) = 333333 := by decide +kernel

end Rounding
