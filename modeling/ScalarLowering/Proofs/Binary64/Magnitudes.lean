import Mathlib.Order.Monotone.Basic
import Mathlib.Tactic.Ring
import ScalarLowering.Binary64.Basic

/-!
The sign and the magnitude of a double, and magnitudes as whole numbers of units. Magnitude bits are a
significand and a power of two, and grow with the number that they stand for. Beyond the least normal
number of a power, all magnitudes lie on the multiples of that power.
-/

namespace ScalarLowering.Binary64

variable {magnitude significand shift : Nat}

theorem ofMagnitude_magnitudeBits (x : Binary64) : ofMagnitude x.isNegative x.magnitudeBits = x := by
  have word : x.bits.toNat < 2 * signWeight := x.bits.toNat_lt
  have bits : (if x.isNegative then signWeight + x.magnitudeBits else x.magnitudeBits) =
      x.bits.toNat := by
    simp only [isNegative, magnitudeBits, decide_eq_true_eq]
    split
    next negative =>
      rw [Nat.mod_eq_sub_mod negative, Nat.mod_eq_of_lt (by omega), Nat.add_sub_cancel' negative]
    next nonnegative => exact Nat.mod_eq_of_lt (Nat.lt_of_not_le nonnegative)
  rw [ofMagnitude, bits, UInt64.ofNat_toNat]

theorem eq_of_magnitudeBits {x y : Binary64} (sign : x.isNegative = y.isNegative)
    (magnitude : x.magnitudeBits = y.magnitudeBits) : x = y := by
  rw [← ofMagnitude_magnitudeBits x, ← ofMagnitude_magnitudeBits y, sign, magnitude]

section Fields

variable {negative : Bool} (bounded : magnitude ≤ infinityBits)

include bounded

theorem lt_signWeight : magnitude < signWeight := bounded.trans_lt (by decide)

theorem toNat_ofMagnitude :
    (ofMagnitude negative magnitude).bits.toNat =
      if negative then signWeight + magnitude else magnitude := by
  have word : 2 * signWeight = 2 ^ 64 := rfl
  have small := lt_signWeight bounded
  refine UInt64.toNat_ofNat_of_lt' ?_
  change _ < 2 ^ 64
  split <;> omega

theorem isNegative_ofMagnitude : (ofMagnitude negative magnitude).isNegative = negative := by
  rw [isNegative, toNat_ofMagnitude bounded]
  cases negative with
  | false => exact decide_eq_false (Nat.not_le.mpr (lt_signWeight bounded))
  | true => exact decide_eq_true (Nat.le_add_right _ _)

theorem magnitudeBits_ofMagnitude : (ofMagnitude negative magnitude).magnitudeBits = magnitude := by
  rw [magnitudeBits, toNat_ofMagnitude bounded]
  cases negative with
  | false => exact Nat.mod_eq_of_lt (lt_signWeight bounded)
  | true => exact (Nat.add_mod_left _ _).trans (Nat.mod_eq_of_lt (lt_signWeight bounded))

end Fields

/-- A significand with its hidden bit may be one too large; it then is the least of the next
power. -/
theorem units_significand (low : shift = 0 ∨ hiddenWeight ≤ significand)
    (high : significand ≤ 2 * hiddenWeight) :
    units (shift * hiddenWeight + significand) = significand * 2 ^ shift := by
  have positive : 0 < hiddenWeight := by decide
  rcases Nat.lt_or_ge significand hiddenWeight with small | normal
  · obtain rfl : shift = 0 := low.resolve_right (Nat.not_le.mpr small)
    rw [Nat.zero_mul, Nat.zero_add, pow_zero, mul_one]
    simp only [units, Nat.div_eq_of_lt small, Nat.mod_eq_of_lt small, if_true]
  · rcases Nat.lt_or_ge significand (2 * hiddenWeight) with inside | beyond
    · have bits : shift * hiddenWeight + significand =
          (significand - hiddenWeight) + (shift + 1) * hiddenWeight := by
        rw [Nat.succ_mul]
        omega
      have fraction : significand - hiddenWeight < hiddenWeight := by omega
      have exponent : (shift * hiddenWeight + significand) / hiddenWeight = shift + 1 := by
        rw [bits, Nat.add_mul_div_right _ _ positive, Nat.div_eq_of_lt fraction, Nat.zero_add]
      have rest : (shift * hiddenWeight + significand) % hiddenWeight =
          significand - hiddenWeight := by
        rw [bits, Nat.add_mul_mod_self_right, Nat.mod_eq_of_lt fraction]
      simp only [units, exponent, rest, Nat.succ_ne_zero, if_false, Nat.add_sub_cancel,
        Nat.add_sub_cancel' normal]
      rfl
    · obtain rfl : significand = 2 * hiddenWeight := Nat.le_antisymm high beyond
      have bits : shift * hiddenWeight + 2 * hiddenWeight = (shift + 2) * hiddenWeight :=
        (Nat.add_mul _ _ _).symm
      have exponent : (shift + 2) * hiddenWeight / hiddenWeight = shift + 2 :=
        Nat.mul_div_cancel _ positive
      have power : Nat.pow 2 (shift + 1) = 2 * 2 ^ shift := pow_succ' 2 shift
      have field : shift + 2 - 1 = shift + 1 := rfl
      simp only [units, bits, exponent, Nat.mul_mod_left, Nat.add_zero, Nat.succ_ne_zero, if_false,
        field, power]
      ring

theorem exists_significand (magnitude : Nat) : ∃ significand shift,
    (shift = 0 ∨ hiddenWeight ≤ significand) ∧ significand < 2 * hiddenWeight ∧
      magnitude = shift * hiddenWeight + significand := by
  have parts := Nat.div_add_mod' magnitude hiddenWeight
  have fraction : magnitude % hiddenWeight < hiddenWeight := Nat.mod_lt _ (by decide)
  by_cases subnormal : magnitude / hiddenWeight = 0
  · rw [subnormal, Nat.zero_mul, Nat.zero_add] at parts
    exact ⟨magnitude, 0, .inl rfl, by omega, by rw [Nat.zero_mul, Nat.zero_add]⟩
  · -- The hidden bit stands for the last unit of the exponent field.
    have bits : (magnitude / hiddenWeight - 1) * hiddenWeight +
        (hiddenWeight + magnitude % hiddenWeight) = magnitude := by
      rw [← Nat.add_assoc, ← Nat.succ_mul, Nat.succ_eq_add_one,
        Nat.sub_add_cancel (Nat.pos_of_ne_zero subnormal), parts]
    exact ⟨_, _, .inr (Nat.le_add_right _ _), by omega, bits.symm⟩

theorem units_strictMono : StrictMono units := by
  refine strictMono_nat_of_lt_succ fun magnitude => ?_
  obtain ⟨significand, shift, low, high, rfl⟩ := exists_significand magnitude
  have next : shift = 0 ∨ hiddenWeight ≤ significand + 1 := low.imp_right (Nat.le_succ_of_le ·)
  rw [units_significand low high.le, Nat.add_assoc, units_significand next high]
  exact Nat.mul_lt_mul_of_pos_right (Nat.lt_succ_self _) (Nat.two_pow_pos shift)

/-- The magnitudes that are not multiples of a power of two lie below its least normal number. -/
theorem units_grid (magnitude shift : Nat) :
    (∃ multiple, units magnitude = multiple * 2 ^ shift) ∨
      shift ≠ 0 ∧ units magnitude < hiddenWeight * 2 ^ shift := by
  obtain ⟨significand, power, low, high, rfl⟩ := exists_significand magnitude
  rw [units_significand low high.le]
  rcases Nat.le_total shift power with fine | coarse
  · refine .inl ⟨significand * 2 ^ (power - shift), ?_⟩
    rw [Nat.mul_assoc, ← Nat.pow_add, Nat.sub_add_cancel fine]
  · by_cases same : power = shift
    · exact .inl ⟨significand, by rw [same]⟩
    · refine .inr ⟨by omega, ?_⟩
      calc significand * 2 ^ power
          < 2 * hiddenWeight * 2 ^ power := Nat.mul_lt_mul_of_pos_right high (Nat.two_pow_pos power)
        _ = hiddenWeight * 2 ^ (power + 1) := by rw [Nat.pow_succ]; ring
        _ ≤ hiddenWeight * 2 ^ shift :=
            Nat.mul_le_mul_left _ (Nat.pow_le_pow_right (by decide) (by omega))

theorem exists_units (shift : Nat) (low : significand < 2 * hiddenWeight) (high : shift ≤ 2045) :
    ∃ magnitude < infinityBits, units magnitude = significand * 2 ^ shift := by
  induction shift generalizing significand with
  | zero =>
      have finite : 2 * hiddenWeight ≤ infinityBits := by decide
      refine ⟨0 * hiddenWeight + significand, by omega, units_significand (.inl rfl) low.le⟩
  | succ shift induction =>
      rcases Nat.lt_or_ge significand hiddenWeight with small | normal
      · obtain ⟨magnitude, finite, same⟩ := induction
          (by omega : 2 * significand < 2 * hiddenWeight) (by omega)
        exact ⟨magnitude, finite, by rw [same, Nat.pow_succ]; ring⟩
      · have field := Nat.mul_le_mul_right hiddenWeight high
        have finite : 2045 * hiddenWeight + 2 * hiddenWeight = infinityBits := rfl
        exact ⟨(shift + 1) * hiddenWeight + significand, by omega,
          units_significand (.inr normal) low.le⟩

end ScalarLowering.Binary64
