import ScalarLowering.Proofs.Lowering.ApproximateIntegers
import ScalarLowering.Proofs.Lowering.DecimalWidth

/-!
Literals whose digits can be counted in 32 bits. A decimal that is read from a text has no more digits
than the text, and the texts of integers and of doubles are short in any case. So a count can wrap only
where a decimal, a text or a byte string is given with that many digits. It does wrap there: a byte
string of two to the power of thirty-two digits counts as one without digits.
-/

namespace ScalarLowering

namespace Decimal

open Numeral

variable {d : Decimal}

theorem length_digits_ofUnscaled (negative : Bool) (spelling : List Char) (scale : Int32) :
    (ofUnscaled (signed negative (value spelling)) scale).digits.length =
      (Numeral.digits (value spelling)).length := by
  rw [Decimal.digits, ofUnscaled, natAbs_signed]

theorem length_digits_le_countP {text : List Char} (read : ofChars? text = some d) :
    d.digits.length ≤ text.countP Char.isDigit := by
  obtain ⟨negative, whole, fraction, pointed, rfl⟩ := ofChars?_eq_some_iff.mp read
  rw [length_digits_ofUnscaled]
  exact (length_digits_value_le pointed.digits pointed.nonempty).trans pointed.length_le_countP

theorem length_digits_le_of_ofInt {i : Int} {count : Nat} (positive : 0 < count)
    (bound : i.natAbs < 10 ^ count) (read : ofChars? (ofInt i) = some d) :
    d.digits.length ≤ count := by
  rw [ofChars?_of_pointed (pointed_ofInt i), List.append_nil] at read
  cases read
  rw [length_digits_ofUnscaled, value_digits]
  exact (length_digits_le_iff positive).mpr bound

end Decimal

namespace Binary64

open Numeral

/-- The leading digit of a number that is rounded to a finite double does not stand beyond the three
hundred and tenth place. -/
theorem leading_le_of_finite {coefficient : Nat} {exponent : Int}
    (finite : nearestScaled coefficient exponent < infinityBits) (nonzero : coefficient ≠ 0) :
    (digits coefficient).length + exponent ≤ 310 := by
  by_contra beyond
  have huge : nearestScaled coefficient exponent = infinityBits := by
    simp only [nearestScaled]
    rw [if_neg (by omega), if_pos (by omega)]
  omega

variable {x : Binary64} {d : Decimal}

/-- A double is shown in as many digits as stand between its leading place and the finest grid, at the
most. -/
theorem length_digits_le_of_chars (read : Decimal.ofChars? x.chars = some d) :
    d.digits.length ≤ 310 + unitExponent := by
  have finite : x.IsFinite := isFinite_of_read rfl rfl rfl read
  obtain ⟨whole, fraction, pointed, rounded, places⟩ :=
    pointed_magnitudeChars x.isNegative finite
  rw [chars_of_finite finite, Decimal.ofChars?_of_pointed pointed] at read
  cases read
  rw [Decimal.length_digits_ofUnscaled]
  by_cases zero : value (whole ++ fraction) = 0
  · rw [zero]
    decide
  · rw [IsFinite, ← rounded] at finite
    have leading := leading_le_of_finite finite zero
    omega

end Binary64

namespace Literal

/-- The digits of a literal can be counted in 32 bits. Those of a decimal are its integer's, and those of
a text are all that occur in it; a byte string is a text of hexadecimal digits. -/
def FewDigits : Literal → Prop
  | .decimal d => d.digits.length < 2 ^ 32
  | .text spelling => spelling.toList.countP Char.isDigit < 2 ^ 32
  | .bytes content => (Hex.ofBytes content).countP Char.isDigit < 2 ^ 32
  | _ => True

instance : DecidablePred FewDigits
  | .decimal d => inferInstanceAs (Decidable (d.digits.length < 2 ^ 32))
  | .text spelling => inferInstanceAs (Decidable (spelling.toList.countP Char.isDigit < 2 ^ 32))
  | .bytes content => inferInstanceAs (Decidable ((Hex.ofBytes content).countP Char.isDigit < 2 ^ 32))
  | .null | .boolean _ | .exact _ | .approximate _ => .isTrue trivial

variable {value : Literal} {d : Decimal}

theorem length_digits_lt_of_readsAs (few : value.FewDigits) (reads : value.ReadsAs d) :
    d.digits.length < 2 ^ 32 := by
  cases reads with
  | itself => exact few
  | text other parsed =>
      have read := parse_toText_eq_ok_iff.mp parsed
      cases value with
      | null => contradiction
      | boolean truth => cases truth <;> contradiction
      | exact i =>
          have low := i.le_toInt
          have high := i.toInt_lt
          have short : d.digits.length ≤ 19 :=
            Decimal.length_digits_le_of_ofInt (by decide) (by omega) read
          omega
      | approximate x =>
          have short := Binary64.length_digits_le_of_chars read
          rw [Binary64.unitExponent] at short
          omega
      | decimal d => exact absurd rfl (other d)
      | text spelling => exact (Decimal.length_digits_le_countP read).trans_lt few
      | bytes content => exact (Decimal.length_digits_le_countP read).trans_lt few

/-- A byte string that spells a power of ten. -/
def powerOfTen (zeros : Nat) : Literal := .bytes (0x10 :: List.replicate zeros 0)

theorem chars_powerOfTen (zeros : Nat) :
    (powerOfTen zeros).chars = ['1'] ++ List.replicate (2 * zeros + 1) '0' := by
  have pairs : Hex.ofBytes (List.replicate zeros 0) = List.replicate (2 * zeros) '0' := by
    induction zeros with
    | zero => rfl
    | succ zeros induction => exact congrArg (fun rest => '0' :: '0' :: rest) induction
  exact congrArg (fun rest => '1' :: '0' :: rest) pairs

theorem readsAs_powerOfTen (zeros : Nat) :
    (powerOfTen zeros).ReadsAs (.ofUnscaled (10 ^ (2 * zeros + 1)) 0) := by
  refine .text nofun (parse_toText_eq_ok_iff.mpr ?_)
  have digits : ∀ c ∈ (powerOfTen zeros).chars, c.isDigit := by
    intro c member
    rw [chars_powerOfTen] at member
    rcases List.mem_append.mp member with one | zero
    · rw [List.mem_singleton.mp one]
      rfl
    · exact Numeral.isDigit_of_mem_replicate_zero zero
  have nonempty : (powerOfTen zeros).chars ≠ [] := by simp [chars_powerOfTen]
  have number : Numeral.signed false (Numeral.value ((powerOfTen zeros).chars ++ [])) =
      10 ^ (2 * zeros + 1) := by
    have one : Numeral.value ['1'] = 1 := rfl
    rw [List.append_nil, chars_powerOfTen, Numeral.value_append_replicate_zero, one, Nat.one_mul]
    exact Int.natCast_pow 10 _
  have read := Decimal.ofChars?_of_pointed (Numeral.pointed_digits false digits nonempty)
  rw [number] at read
  exact read

theorem lower_powerOfTen {zeros : Nat} (wraps : 2 * zeros + 2 = 2 ^ 32) (precision : UInt32)
    (scale : Int32) : (powerOfTen zeros).lower (.decimal precision scale) =
      .error (.decimalTooWide (10 ^ (2 * zeros + 1)) 0) := by
  have count : Decimal.digitCount (10 ^ (2 * zeros + 1)) = 0 := by
    have digits := Numeral.length_digits_pow (2 * zeros + 1)
    rw [wraps] at digits
    have ten : (10 : Int).natAbs = 10 := rfl
    rw [Decimal.digitCount, Int.natAbs_pow, ten, digits]
    rfl
  have beyond : (2 : Int) ^ 63 ≤ 10 ^ (2 * zeros + 1) := by
    have large : (10 : Int) ^ 19 ≤ 10 ^ (2 * zeros + 1) :=
      pow_le_pow_right₀ (by decide) (by omega)
    omega
  have narrow : (0 : UInt32) ≤ 18 := by decide
  have reads := readsAs_powerOfTen zeros
  rw [Decimal.ofUnscaled, count] at reads
  rw [lower_decimal, asDecimal_of_readsAs reads]
  exact (Decimal.storedByPrecision _).tooWide.mpr ⟨narrow, fun fits => not_lt.mpr beyond fits.2⟩

end Literal
end ScalarLowering
