import Mathlib.Algebra.Order.Ring.Int
import Mathlib.Data.List.Basic

/-!
# Decimal numerals

Integers as texts and back, with or without zeros in front.
-/

namespace Numerals

/-- An integer in decimal. -/
def numeral (n : ℤ) : List Char :=
  if n < 0 then '-' :: Nat.toDigits 10 n.natAbs else Nat.toDigits 10 n.natAbs

/-- Zeros in front of a shorter text. -/
def zeroPadded (width : ℕ) (text : List Char) : List Char :=
  List.replicate (width - text.length) '0' ++ text

/-- The number a text of digits stands for, zero if there are none. -/
def number (text : List Char) : ℤ :=
  Nat.ofDigitChars 10 text 0

theorem number_numeral {n : ℤ} (hn : 0 ≤ n) : number (numeral n) = n := by
  rw [numeral, if_neg (not_lt.mpr hn), number, Nat.ofDigitChars_ten_toDigits]
  exact Int.natAbs_of_nonneg hn

theorem number_zeroPadded (width : ℕ) (text : List Char) :
    number (zeroPadded width text) = number text := by
  rw [number, number, zeroPadded, Nat.ofDigitChars_append,
    Nat.ofDigitChars_replicate_zero, Nat.mul_zero]

theorem isDigit_of_mem_numeral {n : ℤ} (hn : 0 ≤ n) {c : Char}
    (hc : c ∈ numeral n) : c.isDigit = true := by
  rw [numeral, if_neg (not_lt.mpr hn)] at hc
  exact Nat.isDigit_of_mem_toDigits (by decide) (by decide) hc

theorem isDigit_of_mem_zeroPadded {width : ℕ} {n : ℤ} (hn : 0 ≤ n) {c : Char}
    (hc : c ∈ zeroPadded width (numeral n)) : c.isDigit = true := by
  rw [zeroPadded, List.mem_append, List.mem_replicate] at hc
  rcases hc with ⟨-, rfl⟩ | hc
  · decide
  · exact isDigit_of_mem_numeral hn hc

end Numerals
