import Mathlib.Algebra.Order.Field.Basic
import Mathlib.Algebra.Order.Field.Rat
import Mathlib.Tactic.NormNum
import Mathlib.Tactic.Ring
import ScalarLowering.Proofs.Text.Numerals

/-!
Decimals as rational numbers: an integer is read at a scale, and a numeral with a point is the number
of its digits at the scale that the point marks.
-/

namespace ScalarLowering

/-- The number of an integer whose last digits, as many as there are places, stand behind the
point. -/
def scaled (coefficient places : Int) : ℚ := coefficient * 10 ^ (-places)

theorem scaled_zero (coefficient : Int) : scaled coefficient 0 = coefficient := by
  rw [scaled, neg_zero, zpow_zero, mul_one]

theorem scaled_eq_mul (coefficient places others : Int) :
    scaled coefficient others = scaled coefficient places * 10 ^ (places - others) := by
  have power : (10 : ℚ) ^ (-others) = 10 ^ (-places) * 10 ^ (places - others) := by
    rw [← zpow_add₀ (by norm_num)]
    congr 1
    omega
  rw [scaled, scaled, power, mul_assoc]

/-- Reading an integer at another scale keeps its number only if the number is zero. -/
theorem scaled_eq_scaled_iff (coefficient places others : Int) :
    scaled coefficient others = scaled coefficient places ↔
      scaled coefficient places = 0 ∨ places = others := by
  rw [scaled_eq_mul coefficient places others, mul_right_eq_self₀, or_comm,
    zpow_eq_one_iff_right₀ (by norm_num) (by norm_num), Int.sub_eq_zero]

theorem scaled_neg_iff (coefficient places : Int) :
    scaled coefficient places < 0 ↔ coefficient < 0 := by
  have power : (0 : ℚ) < 10 ^ (-places) := zpow_pos (by norm_num) _
  rw [scaled, mul_neg_iff, and_iff_left power, Int.cast_lt_zero, or_iff_right]
  exact fun wrong => power.not_gt wrong.2

theorem abs_scaled (coefficient places : Int) :
    |scaled coefficient places| =
      (coefficient.natAbs * 10 ^ (-places).toNat : Nat) / (10 ^ places.toNat : Nat) := by
  have power : (10 : ℚ) ^ (-places) = 10 ^ (-places).toNat / 10 ^ places.toNat := by
    have parts : -places = (-places).toNat - places.toNat := by omega
    rw [parts, zpow_sub₀ (by norm_num), zpow_natCast, zpow_natCast, ← parts]
  have magnitude : |(coefficient : ℚ)| = coefficient.natAbs := by
    rw [Nat.cast_natAbs, Int.cast_abs]
  rw [scaled, abs_mul, magnitude, abs_of_pos (zpow_pos (by norm_num) _), power, ← mul_div_assoc]
  push_cast
  rfl

namespace Numeral

def number (negative : Bool) (whole fraction : List Char) : ℚ :=
  (if negative then -1 else 1) * (value whole + scaled (value fraction) fraction.length)

theorem scaled_signed (negative : Bool) (whole fraction : List Char) :
    scaled (signed negative (value (whole ++ fraction))) fraction.length =
      number negative whole fraction := by
  have power : (10 : ℚ) ^ fraction.length * 10 ^ (-(fraction.length : Int)) = 1 := by
    rw [zpow_neg, zpow_natCast]
    exact mul_inv_cancel₀ (by positivity)
  have sign : (signed negative (value (whole ++ fraction)) : ℚ) =
      (if negative then -1 else 1) * (value (whole ++ fraction) : ℚ) := by
    cases negative <;> simp [signed]
  rw [scaled, number, scaled, sign, value_append]
  push_cast
  calc (if negative then -1 else 1) * ((10 : ℚ) ^ fraction.length * value whole + value fraction) *
        10 ^ (-(fraction.length : Int))
      = (if negative then -1 else 1) * (value whole *
          (10 ^ fraction.length * 10 ^ (-(fraction.length : Int))) +
          value fraction * 10 ^ (-(fraction.length : Int))) := by ring
    _ = _ := by rw [power, mul_one]

end Numeral

end ScalarLowering
