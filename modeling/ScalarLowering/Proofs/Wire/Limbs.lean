import Mathlib.Data.Nat.Digits.Lemmas
import ScalarLowering.Proofs.Wire.RoundTrip

/-!
The limbs of wide integers. The limbs that are written for a number are its digits to the base 2 ^ 32,
so a number is written with as few limbs as it can be read from, and limbs without a zero at the top
are written again as they were read.
-/

namespace ScalarLowering.Wire

namespace Form

/-- Spelled without waste: the highest limb is not zero, and the sign is zero exactly when there is no
limb. -/
structure Canonical (sign : Int) (limbs : List UInt32) : Prop where
  highest : limbs.getLast? ≠ some 0
  zero : sign = 0 ↔ limbs = []

/-- The strict form of a wide integer, beside the lenient one. -/
def canonicalInt (value : Int) : Language UInt8 :=
  {bytes | ∃ (sign : Int) (limbs : List UInt32), (sign = -1 ∨ sign = 0 ∨ sign = 1) ∧
    Canonical sign limbs ∧ value = sign * limbValue limbs ∧
    bytes ∈ signed 1 sign * counted limb limbs}

end Form

theorem limbCount_eq_length_digits (n : Nat) : limbCount n = ((2 ^ 32).digits n).length := by
  by_cases zero : n = 0
  · subst zero
    simp [limbCount]
  · rw [limbCount, if_neg zero, Nat.length_digits _ _ (by decide) zero, Nat.log_pow_left,
      Nat.log2_eq_log_two]

theorem lt_of_mem_map_toNat {limbs : List UInt32} : ∀ digit ∈ limbs.map UInt32.toNat, digit < 2 ^ 32 := by
  intro digit member
  obtain ⟨limb, _, rfl⟩ := List.mem_map.mp member
  exact limb.toNat_lt

theorem map_toNat_limbs (n : Nat) :
    (limbs (limbCount n) n).map UInt32.toNat = (2 ^ 32).digits n := by
  apply Nat.ofDigits_inj_of_len_eq (b := 2 ^ 32) (by decide)
  · rw [List.length_map, length_limbs, limbCount_eq_length_digits]
  · exact lt_of_mem_map_toNat
  · exact fun digit member => Nat.digits_lt_base (by decide) member
  · rw [Nat.ofDigits_digits]
    exact limbValue_limbs n

theorem digits_limbValue {limbs : List UInt32} (highest : limbs.getLast? ≠ some 0) :
    (2 ^ 32).digits (Form.limbValue limbs) = limbs.map UInt32.toNat := by
  apply Nat.digits_ofDigits _ (by decide)
  · exact lt_of_mem_map_toNat
  · intro some zero
    apply highest
    rw [List.getLast_map, ← UInt32.toNat_zero, UInt32.toNat_inj] at zero
    rw [← zero]
    exact List.getLast?_eq_some_getLast _

theorem limbs_limbValue {spelled : List UInt32} (highest : spelled.getLast? ≠ some 0) :
    limbs (limbCount (Form.limbValue spelled)) (Form.limbValue spelled) = spelled := by
  have digits := map_toNat_limbs (Form.limbValue spelled)
  rw [digits_limbValue highest] at digits
  exact List.map_injective_iff.mpr (fun _ _ => UInt32.toNat_inj.mp) digits

theorem getLast?_limbs (n : Nat) : (limbs (limbCount n) n).getLast? ≠ some 0 := by
  intro highest
  have digit := congrArg (Option.map UInt32.toNat) highest
  rw [← List.getLast?_map, map_toNat_limbs] at digit
  by_cases zero : n = 0
  · simp [zero] at digit
  · rw [List.getLast?_eq_some_getLast (Nat.digits_ne_nil_iff_ne_zero.mpr zero)] at digit
    exact Nat.getLast_digit_ne_zero _ zero (Option.some.inj digit)

theorem limbs_limbCount_eq_nil_iff {n : Nat} : limbs (limbCount n) n = [] ↔ n = 0 := by
  rw [← List.length_eq_zero_iff, length_limbs, limbCount]
  split <;> simp_all

section Spelled

variable {value sign : Int} {spelled : List UInt32}

/-- No spelling of a number has fewer limbs than are written for it. -/
theorem limbCount_natAbs_le (known : sign = -1 ∨ sign = 0 ∨ sign = 1)
    (same : value = sign * Form.limbValue spelled) : limbCount value.natAbs ≤ spelled.length := by
  have magnitude : value.natAbs ≤ Form.limbValue spelled := by
    rw [same]
    rcases known with rfl | rfl | rfl <;> omega
  have bound : Form.limbValue spelled < (2 ^ 32) ^ spelled.length := by
    have digits : Form.limbValue spelled < _ :=
      Nat.ofDigits_lt_base_pow_length (by decide) lt_of_mem_map_toNat
    rwa [List.length_map] at digits
  rw [limbCount_eq_length_digits]
  exact (Nat.digits_length_le_iff (by decide) _).mpr (magnitude.trans_lt bound)

theorem limbValue_pos (highest : spelled.getLast? ≠ some 0) (some : spelled ≠ []) :
    0 < Form.limbValue spelled := by
  have digits := digits_limbValue highest
  apply Nat.pos_of_ne_zero
  intro zero
  rw [zero, Nat.digits_zero, eq_comm, List.map_eq_nil_iff] at digits
  exact some digits

theorem sign_of_canonical (known : sign = -1 ∨ sign = 0 ∨ sign = 1)
    (canonical : Form.Canonical sign spelled) (same : value = sign * Form.limbValue spelled) :
    value.sign = sign ∧ value.natAbs = Form.limbValue spelled := by
  by_cases empty : spelled = []
  · have zero := canonical.zero.mpr empty
    subst empty zero same
    exact ⟨rfl, rfl⟩
  · have positive := limbValue_pos canonical.highest empty
    have signed : sign ≠ 0 := mt canonical.zero.mp empty
    rcases known with rfl | rfl | rfl
    · have negative : value < 0 := by omega
      exact ⟨Int.sign_eq_neg_one_of_neg negative, by omega⟩
    · contradiction
    · have positive : 0 < value := by omega
      exact ⟨Int.sign_eq_one_of_pos positive, by omega⟩

end Spelled

theorem canonical_limbs (value : Int) :
    Form.Canonical value.sign (limbs (limbCount value.natAbs) value.natAbs) where
  highest := getLast?_limbs value.natAbs
  zero := by rw [limbs_limbCount_eq_nil_iff, Int.sign_eq_zero_iff_zero, Int.natAbs_eq_zero]

end ScalarLowering.Wire
