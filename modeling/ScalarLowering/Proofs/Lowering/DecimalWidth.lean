import ScalarLowering.Proofs.Decimal.Parsing
import ScalarLowering.Proofs.Lowering.ExactIntegers
import ScalarLowering.Proofs.Lowering.TextForms

/-!
The width that a decimal is stored in. The precision alone selects it, and a decimal whose integer does
not fit the width is refused. That can only be because its precision was stated: where the precision is
the number of digits, all integers of the narrow width fit.
-/

namespace ScalarLowering

namespace Decimal

/-- Decimals whose precision comes from their digits: those that are made of an integer, and those that
are read from a text. -/
inductive Counted : Decimal → Prop
  | ofUnscaled (unscaled : Int) (scale : Int32) : Counted (ofUnscaled unscaled scale)
  | parsed {text : String} {d : Decimal} (read : parse text = .ok d) : Counted d

structure StoredByPrecision (d : Decimal) (result : Except Refusal Datum) : Prop where
  bigInt : (∃ word : Int64, word.toInt = d.unscaled ∧ result = .ok (.bigInt word)) ↔
    d.precision ≤ 18 ∧ (-2 ^ 63 ≤ d.unscaled ∧ d.unscaled < 2 ^ 63)
  tooWide : result = .error (.decimalTooWide d.unscaled d.precision) ↔
    d.precision ≤ 18 ∧ ¬ (-2 ^ 63 ≤ d.unscaled ∧ d.unscaled < 2 ^ 63)
  hugeInt : result = .ok (.hugeInt d.unscaled) ↔ 18 < d.precision

/-- What a decimal comes to if its digits count: it always fits. -/
structure StoredByDigits (d : Decimal) (result : Except Refusal Datum) : Prop where
  bigInt : (∃ word : Int64, word.toInt = d.unscaled ∧ result = .ok (.bigInt word)) ↔
    d.unscaled.natAbs < 10 ^ 18
  hugeInt : result = .ok (.hugeInt d.unscaled) ↔ 10 ^ 18 ≤ d.unscaled.natAbs
  fits : ∀ unscaled precision, result ≠ .error (.decimalTooWide unscaled precision)

variable {d : Decimal}

theorem Counted.eq_ofUnscaled (counted : d.Counted) : d = .ofUnscaled d.unscaled d.scale := by
  cases counted with
  | ofUnscaled => rfl
  | parsed read =>
      obtain ⟨_, _, _, _, rfl⟩ := ofChars?_eq_some_iff.mp (parse_eq_ok_iff.mp read)
      rfl

theorem Counted.precision_le_iff (counted : d.Counted) (few : d.digits.length < 2 ^ 32) :
    d.precision ≤ bigIntPrecision ↔ d.unscaled.natAbs < 10 ^ 18 := by
  rw [counted.eq_ofUnscaled, precision_ofUnscaled_le_iff _ _ few,
    Numeral.length_digits_le_iff (by decide)]
  rfl

theorem storedByPrecision (d : Decimal) : d.StoredByPrecision d.lower.result := by
  by_cases narrow : d.precision ≤ bigIntPrecision
  · have short : ¬ 18 < d.precision := UInt32.not_lt.mpr narrow
    by_cases fits : -2 ^ 63 ≤ d.unscaled ∧ d.unscaled < 2 ^ 63
    · obtain ⟨word, same⟩ := Word.exists_int64_iff.mpr fits
      have stored : d.lower.result = .ok (.bigInt word) := by
        rw [result_lower, if_pos narrow, Word.int64?_eq_some_iff.mpr same]
      rw [stored]
      exact ⟨iff_of_true ⟨word, same, rfl⟩ ⟨narrow, fits⟩, iff_of_false nofun (·.2 fits),
        iff_of_false nofun short⟩
    · have refused : d.lower.result = .error (.decimalTooWide d.unscaled d.precision) := by
        rw [result_lower, if_pos narrow, Word.int64?_eq_none fits]
      rw [refused]
      exact ⟨iff_of_false nofun (fits ·.2), iff_of_true rfl ⟨narrow, fits⟩, iff_of_false nofun short⟩
  · have stored : d.lower.result = .ok (.hugeInt d.unscaled) := by
      rw [result_lower, if_neg narrow]
    rw [stored]
    exact ⟨iff_of_false nofun (narrow ·.1), iff_of_false nofun (narrow ·.1),
      iff_of_true rfl (UInt32.not_le.mp narrow)⟩

theorem storedByDigits (counted : d.Counted) (few : d.digits.length < 2 ^ 32) :
    d.StoredByDigits d.lower.result := by
  have stored := d.storedByPrecision
  have width : d.precision ≤ 18 ↔ d.unscaled.natAbs < 10 ^ 18 := counted.precision_le_iff few
  have bigInt : (∃ word : Int64, word.toInt = d.unscaled ∧ d.lower.result = .ok (.bigInt word)) ↔
      d.unscaled.natAbs < 10 ^ 18 := by
    -- Eighteen digits fall short of the sixty-third power of two.
    rw [stored.bigInt, width]
    exact and_iff_left_of_imp (by omega)
  have hugeInt : d.lower.result = .ok (.hugeInt d.unscaled) ↔ 10 ^ 18 ≤ d.unscaled.natAbs := by
    rw [stored.hugeInt, ← UInt32.not_le, width, Nat.not_lt]
  refine ⟨bigInt, hugeInt, fun unscaled precision refused => ?_⟩
  rcases Nat.lt_or_ge d.unscaled.natAbs (10 ^ 18) with short | long
  · obtain ⟨word, _, fits⟩ := bigInt.mpr short
    rw [fits] at refused
    contradiction
  · rw [hugeInt.mpr long] at refused
    contradiction

end Decimal

namespace Literal

/-- The decimal that a literal is, or else the one that its text form is read as. -/
inductive ReadsAs : Literal → Decimal → Prop
  | itself (d : Decimal) : ReadsAs (.decimal d) d
  | text {value : Literal} {d : Decimal} (other : ∀ d, value ≠ .decimal d)
      (read : Decimal.parse value.toText = .ok d) : ReadsAs value d

variable {value : Literal} {d : Decimal}

theorem parse_toText_eq_ok_iff :
    Decimal.parse value.toText = .ok d ↔ Decimal.ofChars? value.chars = some d := by
  rw [Decimal.parse_eq_ok_iff, toText, String.toList_ofList]

theorem asDecimal_of_readsAs (reads : value.ReadsAs d) : value.asDecimal = .ok d := by
  cases reads with
  | itself => rfl
  | text other read => exact asDecimal_of_ofChars? other (parse_toText_eq_ok_iff.mp read)

theorem asDecimal_of_unread (unread : ¬ ∃ d, value.ReadsAs d) :
    value.asDecimal = .error (value.invalid .decimal) := by
  have other : ∀ d, value ≠ .decimal d := by
    rintro d rfl
    exact unread ⟨d, .itself d⟩
  rw [asDecimal_of_other other]
  cases read : Decimal.ofChars? value.chars with
  | none => rfl
  | some d => exact absurd ⟨d, .text other (parse_toText_eq_ok_iff.mpr read)⟩ unread

/-- A literal under a DECIMAL type is stored in the width that the precision of its decimal selects,
whatever the type declares. Only a decimal whose precision was stated can fail to fit. -/
theorem lower_decimal_width (value : Literal) (precision : UInt32) (scale : Int32) :
    (∀ d, value.ReadsAs d →
      d.StoredByPrecision (value.lower (.decimal precision scale)) ∧
      (d.Counted → d.digits.length < 2 ^ 32 →
        d.StoredByDigits (value.lower (.decimal precision scale)))) ∧
    ((¬ ∃ d, value.ReadsAs d) →
      value.lower (.decimal precision scale) =
        .error (.invalidLiteral .decimal value.toText)) := by
  rw [lower_decimal]
  constructor
  · intro d reads
    rw [asDecimal_of_readsAs reads]
    exact ⟨d.storedByPrecision, Decimal.storedByDigits⟩
  · intro unread
    rw [asDecimal_of_unread unread]
    rfl

/-- Eighteen nines are stored in 64 bits, and the next integer is not, whatever its sign. The first
integer beyond 64 bits does not fit if its precision is stated as eighteen. -/
theorem lower_decimal_width_eighteenNines :
    (∃ word : Int64, word.toInt = 999999999999999999 ∧
      (Literal.text "9999999999.99999999").lower (.decimal 5 2) = .ok (.bigInt word)) ∧
    (Literal.exact (-1000000000000000000)).lower (.decimal 5 2) =
      .ok (.hugeInt (-1000000000000000000)) ∧
    (Literal.decimal ⟨2 ^ 63, 18, 0⟩).lower (.decimal 5 2) = .error (.decimalTooWide (2 ^ 63) 18) ∧
    (Literal.text "1e5").lower (.decimal 5 2) = .error (.invalidLiteral .decimal "1e5") := by
  have nines : (Literal.text "9999999999.99999999").ReadsAs (.ofUnscaled 999999999999999999 8) :=
    .text nofun rfl
  have more : (Literal.exact (-1000000000000000000)).ReadsAs (.ofUnscaled (-1000000000000000000) 0) :=
    .text nofun rfl
  have unread : ¬ ∃ d, (Literal.text "1e5").ReadsAs d := by
    rintro ⟨d, reads⟩
    cases reads with
    | text _ read =>
        have refused : Decimal.parse (Literal.text "1e5").toText = .error ⟨"1e5"⟩ := rfl
        rw [refused] at read
        contradiction
  refine ⟨?_, ?_, ?_, (lower_decimal_width (.text "1e5") 5 2).2 unread⟩
  · obtain ⟨_, counted⟩ := (lower_decimal_width (.text "9999999999.99999999") 5 2).1 _ nines
    exact (counted (.ofUnscaled _ _) (by decide)).bigInt.mpr (by decide)
  · obtain ⟨_, counted⟩ := (lower_decimal_width (.exact (-1000000000000000000)) 5 2).1 _ more
    exact (counted (.ofUnscaled _ _) (by decide)).hugeInt.mpr (by decide)
  · obtain ⟨stored, _⟩ := (lower_decimal_width (.decimal ⟨2 ^ 63, 18, 0⟩) 5 2).1 _ (.itself _)
    exact stored.tooWide.mpr (by decide)

end Literal
end ScalarLowering
