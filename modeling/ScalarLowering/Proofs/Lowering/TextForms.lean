import ScalarLowering.Proofs.Binary64.Text
import ScalarLowering.Proofs.Decimal.Text
import ScalarLowering.Proofs.Lowering.Constants

/-!
Literals and their text forms. A literal and the text that it is shown as become the same constant or
are refused alike, unless the literal is taken as it is: a truth value, which no text stands for, and
a decimal, whose text need not be read back and does not show the stated precision. The text of a
double loses nothing.
-/

namespace ScalarLowering

namespace Decimal

variable {d : Decimal}

theorem precision_ofUnscaled_le_iff (unscaled : Int) (scale : Int32)
    (counted : (Numeral.digits unscaled.natAbs).length < 2 ^ 32) :
    (ofUnscaled unscaled scale).precision ≤ bigIntPrecision ↔
      (Numeral.digits unscaled.natAbs).length ≤ 18 := by
  rw [ofUnscaled, UInt32.le_iff_toNat_le, toNat_digitCount counted]
  rfl

theorem int64?_of_length_le {unscaled : Int}
    (short : (Numeral.digits unscaled.natAbs).length ≤ 18) :
    ∃ value, Word.int64? unscaled = some value := by
  rw [Numeral.length_digits_le_iff (by decide)] at short
  have least : Int64.minValue.toInt = -9223372036854775808 := rfl
  have greatest : Int64.maxValue.toInt = 9223372036854775807 := rfl
  refine ⟨_, dif_pos ?_⟩
  rw [least, greatest]
  omega

/-- Counting the digits of a decimal anew keeps what is stored if and only if it keeps the width. -/
theorem result_lower_ofUnscaled_iff (scale : Int32) (counted : d.digits.length < 2 ^ 32) :
    d.lower.result = (ofUnscaled d.unscaled scale).lower.result ↔
      (d.precision ≤ bigIntPrecision ↔ d.digits.length ≤ 18) := by
  rw [result_lower, result_lower]
  simp only [precision_ofUnscaled_le_iff d.unscaled scale counted]
  change _ = (if d.digits.length ≤ 18 then _ else _) ↔ _
  by_cases short : d.digits.length ≤ 18
  · obtain ⟨value, fits⟩ := int64?_of_length_le short
    by_cases narrow : d.precision ≤ bigIntPrecision
    · simp [ofUnscaled, short, narrow, fits]
    · simp [ofUnscaled, short, narrow, fits]
  · by_cases narrow : d.precision ≤ bigIntPrecision
    · cases Word.int64? d.unscaled with
      | none => simp [ofUnscaled, short, narrow]
      | some value => simp [ofUnscaled, short, narrow]
    · simp [ofUnscaled, short, narrow]

theorem result_lower_ne_invalid (tag : SqlType.Tag) (text : String) :
    d.lower.result ≠ .error (.invalidLiteral tag text) := by
  rw [result_lower]
  split
  · split <;> simp
  · simp

end Decimal

namespace Literal

/-- A double is kept bit for bit, except that there is one constant for all NaNs. -/
theorem lower_approximate (x : Binary64) :
    (Literal.approximate x).lower .double =
      .ok (.double (if x.isNaN then ⟨0x7FF8000000000000⟩ else x)) := by
  have present : Literal.approximate x ≠ .null := nofun
  rw [lower_double, read_of_present present, chars, Binary64.ofChars?_chars]
  rfl

variable {value : Literal} {type : SqlType}

/-- Whether a literal that is not a null and its text form are lowered alike under a type with the
given tag. A decimal must be shown without an exponent, and its stated precision must select the
width that the count of its digits does. -/
def LowersAsText : Literal → SqlType.Tag → Prop
  | .boolean _, .boolean => False
  | .decimal d, .decimal =>
      (d.scale.toInt = 0 ∨
        0 < d.scale.toInt ∧ -6 ≤ (d.digits.length : Int) - 1 - d.scale.toInt) ∧
      (d.precision ≤ 18 ↔ d.digits.length ≤ 18)
  | _, _ => True

theorem chars_toText (value : Literal) : (Literal.text value.toText).chars = value.chars :=
  String.toList_ofList

theorem invalid_toText (value : Literal) (tag : SqlType.Tag) :
    (Literal.text value.toText).invalid tag = value.invalid tag := by
  rw [invalid, invalid, toText, chars_toText]
  rfl

/-- Reading tells a literal from its text form only if it is a null. -/
theorem read_toText {α : Type} (present : value ≠ .null) (tag : SqlType.Tag)
    (reader : List Char → Option α) :
    (Literal.text value.toText).read tag reader = value.read tag reader := by
  have text : Literal.text value.toText ≠ .null := nofun
  rw [read_of_present text, read_of_present present, chars_toText, invalid_toText]

theorem lower_eq_of_tag (present : value ≠ .null) (boolean : type.tag ≠ .boolean)
    (decimal : type.tag ≠ .decimal) :
    value.lower type = (Literal.text value.toText).lower type := by
  rw [lower, lower]
  cases tagged : type.tag with
  | boolean => contradiction
  | decimal => contradiction
  | _ => simp only [lowerAs, read_toText present]

theorem lower_boolean_eq_iff (present : value ≠ .null) :
    value.lower .boolean = (Literal.text value.toText).lower .boolean ↔
      value.LowersAsText .boolean := by
  have refused : (Literal.text value.toText).lower .boolean = .error (value.invalid .boolean) := by
    rw [← invalid_toText]
    rfl
  rw [refused]
  cases value with
  | null => contradiction
  | boolean truth => exact iff_of_false nofun id
  | _ => exact iff_of_true rfl trivial

theorem asDecimal_toText (other : ∀ d, value ≠ .decimal d) :
    (Literal.text value.toText).asDecimal = value.asDecimal := by
  have text : ∀ d, Literal.text value.toText ≠ .decimal d := nofun
  rw [asDecimal_of_other text, asDecimal_of_other other, chars_toText, invalid_toText]

theorem lowersAsText_decimal_iff {d : Decimal} :
    (Literal.decimal d).LowersAsText .decimal ↔
      d.isPositional ∧ (d.precision ≤ 18 ↔ d.digits.length ≤ 18) := by
  simp [LowersAsText, Decimal.isPositional, Decimal.leadingExponent]

theorem asDecimal_toText_decimal (d : Decimal) :
    (Literal.text (Literal.decimal d).toText).asDecimal =
      if d.isPositional then .ok (.ofUnscaled d.unscaled d.scale)
      else .error ((Literal.decimal d).invalid .decimal) := by
  have text : ∀ e, Literal.text (Literal.decimal d).toText ≠ .decimal e := nofun
  rw [asDecimal_of_other text, chars_toText, chars, Decimal.ofChars?_chars, invalid_toText]
  split
  next => rfl
  next => rfl

theorem lower_decimal_eq_iff (present : value ≠ .null) (precision : UInt32) (scale : Int32)
    (counted : ∀ d, value = .decimal d → d.digits.length < 2 ^ 32) :
    value.lower (.decimal precision scale) =
        (Literal.text value.toText).lower (.decimal precision scale) ↔
      value.LowersAsText .decimal := by
  rw [lower_decimal, lower_decimal]
  cases value with
  | null => contradiction
  | decimal d =>
      rw [lowersAsText_decimal_iff, asDecimal_toText_decimal]
      by_cases positional : d.isPositional
      · rw [if_pos positional, and_iff_right positional]
        exact d.result_lower_ofUnscaled_iff d.scale (counted d rfl)
      · rw [if_neg positional]
        exact iff_of_false (d.result_lower_ne_invalid _ _) (positional ·.1)
  | _ =>
      rw [asDecimal_toText]
      · exact iff_of_true rfl trivial
      · nofun

/-- A literal and its text form become the same constant or are refused alike, but for truth values
and for those decimals whose text is not read back as them in the same width. -/
theorem lower_eq_lower_toText_iff (present : value ≠ .null)
    (counted : ∀ d, value = .decimal d → type.tag = .decimal → d.digits.length < 2 ^ 32) :
    value.lower type = (Literal.text value.toText).lower type ↔ value.LowersAsText type.tag := by
  cases type with
  | boolean => exact lower_boolean_eq_iff present
  | decimal precision scale =>
      exact lower_decimal_eq_iff present precision scale fun d same => counted d same rfl
  | _ =>
      refine iff_of_true (lower_eq_of_tag present nofun nofun) ?_
      unfold LowersAsText
      split
      · contradiction
      · contradiction
      · trivial

/-- A decimal whose leading digit stands at the sixth place behind the point is lowered as its text is,
but not if its precision is stated as 19, nor if the digit stands at the seventh. -/
theorem lower_eq_lower_toText_sixthPlace :
    (Literal.decimal ⟨15, 18, 7⟩).lower (.decimal 10 2) =
        (Literal.text "0.0000015").lower (.decimal 10 2) ∧
      (Literal.decimal ⟨15, 19, 7⟩).lower (.decimal 10 2) ≠
        (Literal.text "0.0000015").lower (.decimal 10 2) ∧
      (Literal.decimal ⟨15, 18, 8⟩).lower (.decimal 10 2) ≠
        (Literal.text "1.5E-7").lower (.decimal 10 2) := by
  have alike {precision : UInt32} {scale : Int32} {spelling : String}
      (shown : (Literal.decimal ⟨15, precision, scale⟩).toText = spelling) :
      (Literal.decimal ⟨15, precision, scale⟩).lower (.decimal 10 2) =
          (Literal.text spelling).lower (.decimal 10 2) ↔
        (Literal.decimal ⟨15, precision, scale⟩).LowersAsText .decimal := by
    have short : (Numeral.digits 15).length < 2 ^ 32 := by decide
    rw [← shown]
    refine lower_eq_lower_toText_iff (by simp) ?_
    intro d same _
    cases same
    exact short
  refine ⟨(alike (by decide)).mpr (lowersAsText_decimal_iff.mpr (by decide)), ?_, ?_⟩
  · intro same
    exact absurd (lowersAsText_decimal_iff.mp ((alike (by decide)).mp same)) (by decide)
  · intro same
    exact absurd (lowersAsText_decimal_iff.mp ((alike (by decide)).mp same)) (by decide)

end Literal
end ScalarLowering
