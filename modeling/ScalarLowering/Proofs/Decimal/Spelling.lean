import ScalarLowering.Proofs.Decimal.Number
import ScalarLowering.Proofs.Decimal.Text
import ScalarLowering.Proofs.Text.Exponents

/-!
What the text of a decimal tells. Whatever its scale, the text is a numeral, possibly with an exponent,
that can be taken apart in one way only; its digits are the unscaled integer, and its places are the
scale. So the text tells everything but the precision, and it is not much longer than the integer.
-/

namespace ScalarLowering

namespace Numeral

theorem length_ofInt_le {i : Int} {count : Nat} (positive : 0 < count) (bound : i.natAbs < 10 ^ count) :
    (if 0 ≤ i then 1 else 0) + (ofInt i).length ≤ count + 1 := by
  have digits := (length_digits_le_iff positive).mpr bound
  rw [ofInt, withSign]
  by_cases negative : i < 0
  · rw [if_pos (decide_eq_true negative), if_neg (Int.not_le.mpr negative), List.length_cons]
    omega
  · rw [decide_eq_false negative, if_pos (Int.not_lt.mp negative)]
    change 1 + (Numeral.digits i.natAbs).length ≤ count + 1
    omega

theorem length_withSign_le (negative : Bool) (spelling : List Char) :
    (withSign negative spelling).length ≤ spelling.length + 1 := by
  cases negative with
  | false => exact Nat.le_succ _
  | true => exact Nat.le_refl _

theorem withSign_append (negative : Bool) (front back : List Char) :
    withSign negative (front ++ back) = withSign negative front ++ back := by
  cases negative with
  | false => rfl
  | true => rfl

theorem exponent_ofInt (e : Int) :
    Exponent ('E' :: ((if 0 ≤ e then ['+'] else []) ++ ofInt e)) (some e) := by
  have digits : ∀ c ∈ digits e.natAbs, c.isDigit := fun _ => isDigit_of_mem_digits
  have nonempty := digits_ne_nil e.natAbs
  rw [ofInt, withSign]
  by_cases negative : e < 0
  · have written := Exponent.written (.inr rfl) .minus digits nonempty
    have same : signed true (value (Numeral.digits e.natAbs)) = e := by
      rw [value_digits, ← decide_eq_true negative, signed_natAbs]
    rw [if_pos (decide_eq_true negative), if_neg (Int.not_le.mpr negative), List.nil_append]
    rwa [same] at written
  · have written := Exponent.written (.inr rfl) .plus digits nonempty
    have same : signed false (value (Numeral.digits e.natAbs)) = e := by
      rw [value_digits, ← decide_eq_false negative, signed_natAbs]
    rw [decide_eq_false negative, if_pos (Int.not_lt.mp negative)]
    rwa [same] at written

theorem scaled_scientific (negative : Bool) (whole fraction : List Char) (exponent : Int) :
    scaled (signed negative (value (whole ++ fraction))) (fraction.length - exponent) =
      number negative whole fraction * 10 ^ exponent := by
  have places : (fraction.length : Int) - (fraction.length - exponent) = exponent := by omega
  rw [scaled_eq_mul _ fraction.length, scaled_signed, places]

end Numeral

theorem Positional.length_withPoint_le (digits : List Char) (places : Nat) :
    (withPoint digits places).length ≤ max digits.length (places + 1) + 1 := by
  rw [withPoint]
  split
  · omega
  · simp only [List.length_append, List.length_cons, List.length_take, List.length_drop,
      List.length_replicate]
    omega

namespace Decimal

open Numeral

variable (d : Decimal)

theorem isPositional_iff : d.isPositional ↔
    ¬ (d.scale.toInt < 0 ∨ 0 < d.scale.toInt ∧ (d.digits.length : Int) - 1 - d.scale.toInt < -6) := by
  have conditions : d.isPositional ↔ d.scale.toInt = 0 ∨
      0 < d.scale.toInt ∧ -6 ≤ (d.digits.length : Int) - 1 - d.scale.toInt := by
    simp [isPositional, leadingExponent]
  rw [conditions]
  omega

/-- The text of a decimal is a numeral of its unscaled integer at its scale. An exponent is written
where positional notation would be too long. -/
theorem scientific_chars : ∃ whole fraction exponent,
    Scientific d.chars (d.unscaled < 0) whole fraction exponent ∧
      value (whole ++ fraction) = d.unscaled.natAbs ∧
      fraction.length - exponent.getD 0 = d.scale.toInt ∧
      (exponent.isSome ↔ ¬ d.isPositional) := by
  rw [chars]
  split
  next positional =>
    obtain ⟨whole, fraction, pointed, counted, places⟩ :=
      pointed_withPoint (d.unscaled < 0) d.unscaled.natAbs d.scale.toInt.toNat
    refine ⟨whole, fraction, none, pointed.scientific, counted, ?_, by simpa using positional⟩
    have nonnegative := scale_of_isPositional positional
    rw [Option.getD_none]
    omega
  next other =>
    obtain ⟨whole, fraction, pointed, counted, places⟩ :=
      pointed_withPoint (d.unscaled < 0) d.unscaled.natAbs (d.digits.length - 1)
    refine ⟨whole, fraction, some d.leadingExponent, ⟨_, _, pointed, exponent_ofInt _, ?_⟩, counted,
      ?_, by simpa using other⟩
    · rw [scientific, List.append_assoc, withSign_append]
      rfl
    · have some := length_digits_pos d.unscaled.natAbs
      rw [Option.getD_some, leadingExponent, places]
      rw [← digits] at some
      omega

theorem length_scientific_le (short : d.digits.length < 2 ^ 31) :
    (scientific d.digits d.leadingExponent).length ≤ d.digits.length + 13 := by
  have low := d.scale.minValue_le_toInt
  have high := d.scale.toInt_le
  have least : Int32.minValue.toInt = -2147483648 := rfl
  have greatest : Int32.maxValue.toInt = 2147483647 := rfl
  have some : 0 < d.digits.length := length_digits_pos d.unscaled.natAbs
  have bound : d.leadingExponent.natAbs < 10 ^ 10 := by
    rw [leadingExponent]
    omega
  have exponent := length_ofInt_le (by decide) bound
  have point := Positional.length_withPoint_le d.digits (d.digits.length - 1)
  have plus : (if 0 ≤ d.leadingExponent then ['+'] else []).length =
      if 0 ≤ d.leadingExponent then 1 else 0 := by
    split <;> rfl
  rw [scientific, List.length_append, List.length_append, List.length_cons, plus]
  omega

theorem length_chars_le (short : d.digits.length < 2 ^ 31) :
    d.chars.length ≤ d.digits.length + 14 := by
  rw [chars]
  refine Nat.le_trans (length_withSign_le _ _) (Nat.succ_le_succ ?_)
  split
  next positional =>
    have point := Positional.length_withPoint_le d.digits d.scale.toInt.toNat
    rw [isPositional_iff] at positional
    omega
  next => exact d.length_scientific_le short

variable {d} {other : Decimal} {whole fraction : List Char} {negative : Bool} {exponent : Option Int}

theorem unscaled_of_scientific (numeral : Scientific d.chars negative whole fraction exponent) :
    signed negative (value (whole ++ fraction)) = d.unscaled ∧
      fraction.length - exponent.getD 0 = d.scale.toInt ∧
      (exponent.isSome ↔ ¬ d.isPositional) := by
  obtain ⟨_, _, _, written, counted, places, shown⟩ := d.scientific_chars
  obtain ⟨rfl, rfl, rfl, rfl⟩ := numeral.unique written
  refine ⟨?_, places, shown⟩
  rw [counted, signed_natAbs]

theorem text_eq_iff :
    d.text = other.text ↔ d.unscaled = other.unscaled ∧ d.scale = other.scale := by
  constructor
  · intro same
    have chars : d.chars = other.chars := String.ofList_injective same
    obtain ⟨whole, fraction, exponent, written, _⟩ := d.scientific_chars
    obtain ⟨unscaled, places, _⟩ := unscaled_of_scientific written
    rw [chars] at written
    obtain ⟨otherUnscaled, otherPlaces, _⟩ := unscaled_of_scientific written
    exact ⟨unscaled.symm.trans otherUnscaled, Int32.toInt_inj.mp (places.symm.trans otherPlaces)⟩
  · intro same
    obtain ⟨unscaled, _, scale⟩ := d
    obtain ⟨otherUnscaled, _, otherScale⟩ := other
    obtain ⟨rfl, rfl⟩ := same
    rfl

/-- The text of a decimal can be taken apart, and tells its unscaled integer and its scale. It is read
as a decimal again unless it has an exponent, and is at most fourteen characters longer than the
integer. -/
theorem text_tells (d other : Decimal) :
    (∃ negative whole fraction exponent,
      Scientific d.text.toList negative whole fraction exponent) ∧
    (∀ negative whole fraction exponent,
      Scientific d.text.toList negative whole fraction exponent →
        signed negative (value (whole ++ fraction)) = d.unscaled ∧
        fraction.length - exponent.getD 0 = d.scale.toInt ∧
        number negative whole fraction * 10 ^ exponent.getD 0 =
          scaled d.unscaled d.scale.toInt ∧
        (exponent.isSome ↔ d.scale.toInt < 0 ∨
          0 < d.scale.toInt ∧ (d.digits.length : Int) - 1 - d.scale.toInt < -6) ∧
        ofChars? d.text.toList =
          if exponent.isSome then none else some (ofUnscaled d.unscaled d.scale)) ∧
    (d.text = other.text ↔ d.unscaled = other.unscaled ∧ d.scale = other.scale) ∧
    (d.digits.length < 2 ^ 31 → d.text.length ≤ d.digits.length + 14) := by
  have characters : d.text.toList = d.chars := String.toList_ofList
  rw [characters]
  refine ⟨?_, ?_, text_eq_iff, fun short => ?_⟩
  · obtain ⟨whole, fraction, exponent, written, _⟩ := d.scientific_chars
    exact ⟨_, whole, fraction, exponent, written⟩
  · intro negative whole fraction exponent written
    obtain ⟨unscaled, places, shown⟩ := unscaled_of_scientific written
    refine ⟨unscaled, places, ?_, ?_, ?_⟩
    · rw [← unscaled, ← places, scaled_scientific]
    · rw [shown, isPositional_iff, not_not]
    · rw [ofChars?_chars]
      by_cases positional : d.isPositional
      · rw [if_pos positional, if_neg (by simpa [shown] using positional)]
      · rw [if_neg positional, if_pos (shown.mpr positional)]
  · rw [text, String.length_ofList]
    exact d.length_chars_le short

/-- The leading digit of `-1.5E-7` stands at the seventh place behind the point. -/
theorem text_tells_seventhPlace :
    (Decimal.mk (-15) 3 8).text = "-1.5E-7" ∧
      Scientific "-1.5E-7".toList true ['1'] ['5'] (some (-7)) ∧
      number true ['1'] ['5'] * 10 ^ (-7 : Int) = scaled (-15) 8 ∧
      ofChars? "-1.5E-7".toList = none ∧ "-1.5E-7".length ≤ 2 + 14 := by
  have pointed : Pointed ['-', '1', '.', '5'] true ['1'] ['5'] :=
    ⟨⟨['-'], ['.', '5'], .minus, .point ['5'], rfl⟩, List.all_eq_true.mp rfl,
      List.cons_ne_nil _ _⟩
  have exponent : Exponent ['E', '-', '7'] (some (-7)) :=
    .written (.inr rfl) .minus (List.all_eq_true.mp rfl) (List.cons_ne_nil _ _)
  have numeral : Scientific (Decimal.mk (-15) 3 8).text.toList true ['1'] ['5'] (some (-7)) :=
    ⟨_, _, pointed, exponent, rfl⟩
  obtain ⟨_, tells, _, length⟩ := text_tells (Decimal.mk (-15) 3 8) (Decimal.mk (-15) 3 8)
  obtain ⟨_, _, same, _, read⟩ := tells _ _ _ _ numeral
  exact ⟨rfl, numeral, same, read, length (by decide)⟩

end Decimal
end ScalarLowering
