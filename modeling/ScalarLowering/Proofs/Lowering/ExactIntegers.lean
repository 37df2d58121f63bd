import ScalarLowering.Proofs.Decimal.Text
import ScalarLowering.Proofs.Lowering.Constants
import ScalarLowering.Proofs.Text.Integers

/-!
Literals under the types of integers. A type has the integers of 32 or of 64 bits as constants, and a
literal is lowered to one of them if its text form is a numeral without a point that is in range. So
integers, decimals and texts are never altered: what is no integer of the type is refused.
-/

namespace ScalarLowering

namespace Word

theorem exists_int32_iff {i : Int} :
    (∃ word : Int32, word.toInt = i) ↔ -2 ^ 31 ≤ i ∧ i < 2 ^ 31 := by
  constructor
  · rintro ⟨word, rfl⟩
    exact ⟨word.le_toInt, word.toInt_lt⟩
  · rintro ⟨low, high⟩
    exact ⟨Int32.ofInt i, Int32.toInt_ofInt_of_le low high⟩

theorem exists_int64_iff {i : Int} :
    (∃ word : Int64, word.toInt = i) ↔ -2 ^ 63 ≤ i ∧ i < 2 ^ 63 := by
  constructor
  · rintro ⟨word, rfl⟩
    exact ⟨word.le_toInt, word.toInt_lt⟩
  · rintro ⟨low, high⟩
    exact ⟨Int64.ofInt i, Int64.toInt_ofInt_of_le low high⟩

theorem int64?_eq_none {i : Int} (beyond : ¬ (-2 ^ 63 ≤ i ∧ i < 2 ^ 63)) : int64? i = none := by
  rw [Option.eq_none_iff_forall_ne_some]
  intro word found
  exact beyond (exists_int64_iff.mp ⟨word, int64?_eq_some_iff.mp found⟩)

def Fits (bits : Nat) (i : Int) : Prop := -2 ^ (bits - 1) ≤ i ∧ i < 2 ^ (bits - 1)

end Word

/-- The types of integers, and the bits of their constants. Those of the narrow types are as wide as
those of INTEGER. -/
inductive SqlType.IntegerBits : SqlType → Nat → Prop
  | tinyInt : IntegerBits .tinyInt 32
  | smallInt : IntegerBits .smallInt 32
  | integer : IntegerBits .integer 32
  | bigInt : IntegerBits .bigInt 64

theorem SqlType.IntegerBits.narrow_or_bigInt {type : SqlType} {bits : Nat}
    (integral : type.IntegerBits bits) : bits = 32 ∨ type = .bigInt ∧ bits = 64 := by
  cases integral with
  | tinyInt | smallInt | integer => exact .inl rfl
  | bigInt => exact .inr ⟨rfl, rfl⟩

inductive Datum.IsInteger : Datum → Nat → Int → Prop
  | integer (word : Int32) : IsInteger (.integer word) 32 word.toInt
  | bigInt (word : Int64) : IsInteger (.bigInt word) 64 word.toInt

theorem SqlType.IntegerBits.exists_datum {type : SqlType} {bits : Nat} {n : Int}
    (integral : type.IntegerBits bits) (fits : Word.Fits bits n) :
    ∃ datum : Datum, datum.IsInteger bits n := by
  obtain rfl | ⟨_, rfl⟩ := integral.narrow_or_bigInt
  · obtain ⟨word, rfl⟩ := Word.exists_int32_iff.mpr fits
    exact ⟨_, .integer word⟩
  · obtain ⟨word, rfl⟩ := Word.exists_int64_iff.mpr fits
    exact ⟨_, .bigInt word⟩

theorem Datum.IsInteger.fits {datum : Datum} {bits : Nat} {n : Int}
    (stored : datum.IsInteger bits n) : Word.Fits bits n := by
  cases stored with
  | integer word => exact Word.exists_int32_iff.mp ⟨word, rfl⟩
  | bigInt word => exact Word.exists_int64_iff.mp ⟨word, rfl⟩

namespace Literal

open Numeral

section Texts

variable {text : List Char}

theorem readInt32?_eq_some_iff {word : Int32} :
    readInt32? text = some word ↔ toInt? text = some word.toInt := by
  simp only [readInt32?, Option.bind_eq_some_iff, Word.int32?_eq_some_iff, exists_eq_right']

theorem readInt64?_eq_some_iff {word : Int64} :
    readInt64? text = some word ↔ toInt? text = some word.toInt := by
  simp only [readInt64?, Option.bind_eq_some_iff, Word.int64?_eq_some_iff, exists_eq_right']

theorem readInt32?_eq_none (unread : ¬ ∃ n, toInt? text = some n ∧ Word.Fits 32 n) :
    readInt32? text = none := by
  rw [Option.eq_none_iff_forall_ne_some]
  intro word found
  exact unread ⟨_, readInt32?_eq_some_iff.mp found, (Datum.IsInteger.integer word).fits⟩

theorem readInt64?_eq_none (unread : ¬ ∃ n, toInt? text = some n ∧ Word.Fits 64 n) :
    readInt64? text = none := by
  rw [Option.eq_none_iff_forall_ne_some]
  intro word found
  exact unread ⟨_, readInt64?_eq_some_iff.mp found, (Datum.IsInteger.bigInt word).fits⟩

end Texts

theorem lower_narrow {type : SqlType} (narrow : type.IntegerBits 32) (value : Literal) :
    value.lower type = Datum.integer <$> value.read type.tag readInt32? := by
  cases narrow with
  | tinyInt | smallInt | integer => rfl

section Present

variable {value : Literal} {type : SqlType} {datum : Datum} {bits : Nat} {n : Int}
  (integral : type.IntegerBits bits) (present : value ≠ .null)

include integral present

theorem lower_eq_ok_iff (stored : datum.IsInteger bits n) :
    value.lower type = .ok datum ↔ toInt? value.chars = some n := by
  cases stored with
  | integer word =>
      rw [lower_narrow integral, map_eq_ok]
      simp only [read_eq_ok_iff present, readInt32?_eq_some_iff, Datum.integer.injEq, exists_eq_right]
  | bigInt word =>
      cases integral
      rw [lower_bigInt, map_eq_ok]
      simp only [read_eq_ok_iff present, readInt64?_eq_some_iff, Datum.bigInt.injEq, exists_eq_right]

theorem exists_lower_iff :
    (∃ datum : Datum, datum.IsInteger bits n ∧ value.lower type = .ok datum) ↔
      toInt? value.chars = some n ∧ Word.Fits bits n := by
  constructor
  · rintro ⟨datum, stored, lowered⟩
    exact ⟨(lower_eq_ok_iff integral present stored).mp lowered, stored.fits⟩
  · rintro ⟨read, fits⟩
    obtain ⟨datum, stored⟩ := integral.exists_datum fits
    exact ⟨datum, stored, (lower_eq_ok_iff integral present stored).mpr read⟩

theorem lower_eq_invalid (unread : ¬ ∃ n, toInt? value.chars = some n ∧ Word.Fits bits n) :
    value.lower type = .error (.invalidLiteral type.tag value.toText) := by
  obtain rfl | ⟨rfl, rfl⟩ := integral.narrow_or_bigInt
  · rw [lower_narrow integral, read_of_present present, readInt32?_eq_none unread]
    rfl
  · rw [lower_bigInt, read_of_present present, readInt64?_eq_none unread]
    rfl

end Present

inductive IsExact : Literal → Prop
  | exact (value : Int64) : IsExact (.exact value)
  | decimal (d : Decimal) : IsExact (.decimal d)
  | text (spelling : String) : IsExact (.text spelling)

/-- The integer that such a literal is. A decimal is one if it has no places, and a text if it is a
numeral without a point. -/
inductive Spells : Literal → Int → Prop
  | exact (value : Int64) : Spells (.exact value) value.toInt
  | decimal {d : Decimal} (unscaled : d.scale = 0) : Spells (.decimal d) d.unscaled
  | text {spelling : String} {negative : Bool} {digits : List Char}
      (numeral : Unpointed spelling.toList negative digits) :
      Spells (.text spelling) (signed negative (Numeral.value digits))

end Literal

namespace Decimal

open Numeral

variable {d : Decimal}

theorem toInt?_chars_of_isPositional (positional : d.isPositional) :
    toInt? d.chars = if 0 < d.scale.toInt then none else some d.unscaled := by
  obtain ⟨whole, fraction, pointed, counted, _⟩ :=
    pointed_withPoint (d.unscaled < 0) d.unscaled.natAbs d.scale.toInt.toNat
  have places : 0 < d.scale.toInt.toNat ↔ 0 < d.scale.toInt := by omega
  rw [chars, if_pos positional, digits, toInt?_pointed pointed, counted, signed_natAbs]
  simp only [point_mem_withSign_iff, point_mem_withPoint_iff, places]

/-- A decimal is shown as an integer if and only if it has no places. Others have a point or an exponent
in their text. -/
theorem toInt?_chars_iff {n : Int} :
    toInt? d.chars = some n ↔ d.scale = 0 ∧ d.unscaled = n := by
  have unscaled : d.scale = 0 ↔ d.scale.toInt = 0 := Int32.toInt_inj.symm
  rw [unscaled]
  by_cases positional : d.isPositional
  · have nonnegative := scale_of_isPositional positional
    rw [toInt?_chars_of_isPositional positional]
    split
    next places => exact iff_of_false nofun (by omega)
    next => rw [Option.some.injEq, and_iff_right (by omega)]
  · rw [toInt?_eq_none (exponent_mem_chars positional) (by decide)]
    refine iff_of_false nofun fun zero => positional ?_
    rw [isPositional, decide_eq_true zero.1, Bool.true_or]

end Decimal

namespace Literal

open Numeral

variable {value : Literal} {n : Int}

/-- The integer that is read from the text form of an exact literal is the one that the literal is. -/
theorem toInt?_chars_iff (source : value.IsExact) : toInt? value.chars = some n ↔ value.Spells n := by
  cases source with
  | exact i =>
      rw [chars, toInt?_ofInt, Option.some.injEq]
      constructor
      · rintro rfl
        exact .exact i
      · intro spells
        cases spells
        rfl
  | decimal d =>
      rw [chars, Decimal.toInt?_chars_iff]
      constructor
      · rintro ⟨unscaled, rfl⟩
        exact .decimal unscaled
      · intro spells
        cases spells with
        | decimal unscaled => exact ⟨unscaled, rfl⟩
  | text spelling =>
      rw [chars, toInt?_eq_some_iff]
      constructor
      · rintro ⟨negative, digits, numeral, rfl⟩
        exact .text numeral
      · intro spells
        cases spells with
        | text numeral => exact ⟨_, _, numeral, rfl⟩

/-- An integer, a decimal or a text is lowered under a type of integers to the integer that it is, if it
is one in the range of the type, and is refused otherwise. -/
theorem lower_exact_integer {type : SqlType} {bits : Nat} (integral : type.IntegerBits bits)
    (source : value.IsExact) :
    (∀ n, (∃ datum : Datum, datum.IsInteger bits n ∧ value.lower type = .ok datum) ↔
      value.Spells n ∧ Word.Fits bits n) ∧
    ((¬ ∃ n, value.Spells n ∧ Word.Fits bits n) →
      value.lower type = .error (.invalidLiteral type.tag value.toText)) := by
  have present : value ≠ .null := by
    rintro rfl
    cases source
  simp only [← toInt?_chars_iff source]
  exact ⟨fun n => exists_lower_iff integral present, lower_eq_invalid integral present⟩

/-- The least integer of 64 bits may be spelt with a leading zero. The first integer beyond 32 bits is
refused under INTEGER, and seven with a place behind the point under TINYINT. -/
theorem lower_exact_integer_leastInt64 :
    (∃ datum : Datum, datum.IsInteger 64 (-2 ^ 63) ∧
      (Literal.text "-09223372036854775808").lower .bigInt = .ok datum) ∧
    (Literal.exact 2147483648).lower .integer = .error (.invalidLiteral .integer "2147483648") ∧
    (Literal.decimal ⟨70, 2, 1⟩).lower .tinyInt = .error (.invalidLiteral .tinyInt "7.0") := by
  have numeral : Unpointed "-09223372036854775808".toList true "09223372036854775808".toList :=
    ⟨⟨['-'], .minus, rfl⟩, List.all_eq_true.mp rfl, List.cons_ne_nil _ _⟩
  have spells : (Literal.text "-09223372036854775808").Spells (-2 ^ 63) := .text numeral
  have least : Word.Fits 64 (-2 ^ 63) := ⟨by decide, by decide⟩
  refine ⟨((lower_exact_integer .bigInt (.text _)).1 _).mpr ⟨spells, least⟩,
    (lower_exact_integer .integer (.exact 2147483648)).2 ?_,
    (lower_exact_integer .tinyInt (.decimal ⟨70, 2, 1⟩)).2 ?_⟩
  · rintro ⟨_, ⟨⟩, fits⟩
    exact absurd fits.2 (by decide)
  · rintro ⟨_, spells, _⟩
    cases spells with
    | decimal unscaled => exact absurd unscaled (by decide)

end Literal
end ScalarLowering
