import ScalarLowering.Binary64.Nearest
import ScalarLowering.Proofs.Binary64.Magnitudes
import ScalarLowering.Proofs.Text.Numerals

/-!
Rounding to the nearest double depends on the quotient alone, and leaves the doubles where they are.
The bounds on the leading digit of a number, beyond which no power of ten is formed, change nothing:
what lies beyond them is rounded to zero and to the infinity anyhow.
-/

namespace ScalarLowering.Binary64

variable {numerator denominator : Nat}

/-- The power that definitions compute with is the one that lemmas are about. -/
theorem natPow_eq (base exponent : Nat) : Nat.pow base exponent = base ^ exponent := rfl

theorem roundHalfEven_mul_left {factor : Nat} (positive : 0 < factor) :
    roundHalfEven (factor * numerator) (factor * denominator) = roundHalfEven numerator denominator := by
  simp only [roundHalfEven, Nat.mul_div_mul_left _ _ positive, Nat.mul_mod_mul_left,
    Nat.mul_left_comm 2 factor, Nat.mul_lt_mul_left positive]

theorem roundHalfEven_mul_right {whole : Nat} (positive : 0 < denominator) :
    roundHalfEven (whole * denominator) denominator = whole := by
  simp [roundHalfEven, Nat.mul_div_cancel _ positive, positive]

theorem nearestBits_mul_left {factor : Nat} (positive : 0 < factor) :
    nearestBits (factor * numerator) (factor * denominator) = nearestBits numerator denominator := by
  simp only [nearestBits, Nat.mul_assoc, Nat.mul_div_mul_left _ _ positive,
    roundHalfEven_mul_left positive]

theorem log2_mul_pow {significand shift : Nat} (low : hiddenWeight ≤ significand)
    (high : significand < 2 * hiddenWeight) : (significand * 2 ^ shift).log2 = shift + 52 := by
  have positive : 0 < 2 ^ shift := Nat.two_pow_pos shift
  have least : 2 ^ (shift + 52) = hiddenWeight * 2 ^ shift := by
    rw [pow_add, mul_comm]
    rfl
  have beyond : 2 ^ (shift + 52 + 1) = 2 * hiddenWeight * 2 ^ shift := by
    rw [pow_succ, least]
    ring
  have nonzero : significand * 2 ^ shift ≠ 0 :=
    Nat.mul_ne_zero (by rw [hiddenWeight] at low; omega) (by omega)
  rw [Nat.log2_eq_iff nonzero, least, beyond]
  exact ⟨Nat.mul_le_mul_right _ low, Nat.mul_lt_mul_of_pos_right high positive⟩

/-- A significand at a power of two is not rounded. Only at the lowest power may it lack the hidden
bit. -/
theorem nearestBits_significand {significand shift : Nat}
    (low : shift = 0 ∨ hiddenWeight ≤ significand) (high : significand < 2 * hiddenWeight)
    (finite : shift * hiddenWeight + significand < infinityBits) :
    nearestBits (significand * 2 ^ shift) (Nat.pow 2 unitExponent) =
      shift * hiddenWeight + significand := by
  have positive : 0 < Nat.pow 2 unitExponent := by simp
  have power : (significand * 2 ^ shift).log2 - 52 = shift := by
    by_cases hidden : hiddenWeight ≤ significand
    · rw [log2_mul_pow hidden high, Nat.add_sub_cancel]
    · obtain rfl : shift = 0 := low.resolve_right hidden
      rw [pow_zero, mul_one]
      by_cases zero : significand = 0
      · rw [zero]
        rfl
      · have small : significand.log2 < 52 := (Nat.log2_lt zero).mpr (Nat.lt_of_not_le hidden)
        omega
  have rounded : roundHalfEven (significand * 2 ^ shift * Nat.pow 2 unitExponent)
      (Nat.pow 2 unitExponent * Nat.pow 2 shift) = significand := by
    have divisor : 0 < Nat.pow 2 unitExponent * Nat.pow 2 shift :=
      Nat.mul_pos positive (Nat.two_pow_pos shift)
    have expanded : significand * 2 ^ shift * Nat.pow 2 unitExponent =
        significand * (Nat.pow 2 unitExponent * Nat.pow 2 shift) := by
      rw [natPow_eq 2 shift, mul_assoc, mul_comm (2 ^ shift)]
    rw [expanded]
    exact roundHalfEven_mul_right divisor
  simp only [nearestBits, Nat.mul_div_cancel _ positive, power, rounded, finite, if_true]

theorem nearestBits_units {magnitude : Nat} (finite : magnitude < infinityBits) :
    nearestBits (units magnitude) (Nat.pow 2 unitExponent) = magnitude := by
  obtain ⟨significand, shift, low, high, rfl⟩ := exists_significand magnitude
  rw [units_significand low high.le, nearestBits_significand low high finite]

theorem nearestBits_of_lt (small : 2 * (numerator * Nat.pow 2 unitExponent) < denominator) :
    nearestBits numerator denominator = 0 := by
  have below : numerator * Nat.pow 2 unitExponent < denominator := by omega
  simp only [nearestBits, Nat.div_eq_of_lt below]
  have power : Nat.log2 0 - 52 = 0 := rfl
  have one : denominator * Nat.pow 2 0 = denominator := Nat.mul_one denominator
  simp only [power, one, roundHalfEven, Nat.div_eq_of_lt below, Nat.mod_eq_of_lt below, small, if_true]
  rfl

theorem nearestBits_of_le (large : 2 ^ 1026 * denominator ≤ numerator)
    (positive : 0 < denominator) : nearestBits numerator denominator = infinityBits := by
  have quotient : 2 ^ (1026 + unitExponent) ≤ numerator * Nat.pow 2 unitExponent / denominator := by
    have power : 2 ^ (1026 + unitExponent) * denominator =
        2 ^ 1026 * denominator * Nat.pow 2 unitExponent := by
      rw [natPow_eq, pow_add, mul_right_comm]
    rw [Nat.le_div_iff_mul_le positive, power]
    exact Nat.mul_le_mul_right (Nat.pow 2 unitExponent) large
  have exponent : 1026 + unitExponent ≤ (numerator * Nat.pow 2 unitExponent / denominator).log2 :=
    (Nat.le_log2 (Nat.ne_of_gt (Nat.lt_of_lt_of_le (Nat.two_pow_pos _) quotient))).mpr quotient
  have beyond : ¬ ((numerator * Nat.pow 2 unitExponent / denominator).log2 - 52) * hiddenWeight +
      roundHalfEven (numerator * Nat.pow 2 unitExponent) (denominator *
        Nat.pow 2 ((numerator * Nat.pow 2 unitExponent / denominator).log2 - 52)) < infinityBits := by
    have field : 2047 ≤ (numerator * Nat.pow 2 unitExponent / denominator).log2 - 52 := by
      rw [unitExponent] at exponent ⊢
      omega
    have weight : infinityBits = 2047 * hiddenWeight := rfl
    have := Nat.mul_le_mul_right hiddenWeight field
    omega
  simp only [nearestBits, beyond, if_false]

section LeadingDigit

variable {coefficient : Nat} {exponent : Int}

theorem scaled_tiny
    (tiny : coefficient = 0 ∨ ((Numeral.digits coefficient).length : Int) + exponent < -330) :
    2 * (coefficient * 10 ^ exponent.toNat * Nat.pow 2 unitExponent) < 10 ^ (-exponent).toNat := by
  have unit : 2 * Nat.pow 2 unitExponent ≤ 10 ^ 331 := by decide +kernel
  rcases tiny with zero | low
  · rw [zero, Nat.zero_mul, Nat.zero_mul, Nat.mul_zero]
    exact Nat.pow_pos (by decide)
  · have unscaled : exponent.toNat = 0 := by omega
    have places : (Numeral.digits coefficient).length + 331 ≤ (-exponent).toNat := by omega
    calc 2 * (coefficient * 10 ^ exponent.toNat * Nat.pow 2 unitExponent)
        = coefficient * (2 * Nat.pow 2 unitExponent) := by
          rw [unscaled, pow_zero, mul_one, mul_left_comm]
      _ ≤ coefficient * 10 ^ 331 := Nat.mul_le_mul_left _ unit
      _ < 10 ^ (Numeral.digits coefficient).length * 10 ^ 331 :=
          Nat.mul_lt_mul_of_pos_right (Numeral.lt_pow_length coefficient) (pow_pos (by decide) 331)
      _ = 10 ^ ((Numeral.digits coefficient).length + 331) := (pow_add _ _ _).symm
      _ ≤ 10 ^ (-exponent).toNat := Nat.pow_le_pow_right (by decide) places

theorem scaled_huge (positive : 0 < coefficient)
    (huge : 310 < ((Numeral.digits coefficient).length : Int) + exponent) :
    2 ^ 1026 * 10 ^ (-exponent).toNat ≤ coefficient * 10 ^ exponent.toNat := by
  have largest : 2 ^ 1026 ≤ 10 ^ 310 := by decide +kernel
  have places : 310 + (-exponent).toNat ≤
      (Numeral.digits coefficient).length - 1 + exponent.toNat := by omega
  calc 2 ^ 1026 * 10 ^ (-exponent).toNat
      ≤ 10 ^ 310 * 10 ^ (-exponent).toNat := Nat.mul_le_mul_right _ largest
    _ = 10 ^ (310 + (-exponent).toNat) := (pow_add _ _ _).symm
    _ ≤ 10 ^ ((Numeral.digits coefficient).length - 1 + exponent.toNat) :=
        Nat.pow_le_pow_right (by decide) places
    _ = 10 ^ ((Numeral.digits coefficient).length - 1) * 10 ^ exponent.toNat := pow_add _ _ _
    _ ≤ coefficient * 10 ^ exponent.toNat :=
        Nat.mul_le_mul_right _ (Numeral.pow_length_le positive)

end LeadingDigit

/-- The number of a coefficient and a power of ten, of either sign, is rounded as the quotient that
it is. -/
theorem nearestScaled_eq (coefficient : Nat) (exponent : Int) :
    nearestScaled coefficient exponent =
      nearestBits (coefficient * 10 ^ exponent.toNat) (10 ^ (-exponent).toNat) := by
  rw [nearestScaled, natPow_eq, natPow_eq]
  split
  next tiny => exact (nearestBits_of_lt (scaled_tiny tiny)).symm
  next present =>
    split
    next huge =>
      have positive : 0 < coefficient := Nat.pos_of_ne_zero (not_or.mp present).1
      exact (nearestBits_of_le (scaled_huge positive huge) (Nat.pow_pos (by decide))).symm
    next =>
      split
      next nonnegative =>
        have whole : (-exponent).toNat = 0 := by omega
        rw [whole, pow_zero]
      next negative =>
        have unscaled : exponent.toNat = 0 := by omega
        rw [unscaled, pow_zero, mul_one]

end ScalarLowering.Binary64
