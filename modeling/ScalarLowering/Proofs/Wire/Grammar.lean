import Mathlib.Computability.Language
import Mathlib.Data.Nat.Digits.Defs
import ScalarLowering.Engine.EngineExpr

/-!
The byte form of engine expressions as a grammar. Every value has a language of byte strings, its
forms, and a compound value has the forms of its parts one behind the other. All values but wide
integers have one form; what the forms of a wide integer are is left open where trees are built from
them, so that strict and lenient forms share one grammar.
-/

namespace ScalarLowering.Wire.Form

variable {α : Type}

def number (bytes : List UInt8) : Nat := Nat.ofDigits 256 (bytes.map UInt8.toNat)

def unsigned (width value : Nat) : Language UInt8 :=
  {bytes | bytes.length = width ∧ number bytes = value}

def signed (width : Nat) (value : Int) : Language UInt8 :=
  {bytes | bytes.length = width ∧ (number bytes : Int).bmod (256 ^ width) = value}

def sequence (form : α → Language UInt8) (items : List α) : Language UInt8 := (items.map form).prod

/-- Items behind their number. -/
def counted (form : α → Language UInt8) (items : List α) : Language UInt8 :=
  unsigned 8 items.length * sequence form items

def truth (value : Bool) : Language UInt8 := unsigned 1 value.toNat

def text (value : String) : Language UInt8 :=
  unsigned 8 value.utf8ByteSize * {value.toUTF8.data.toList}

def optional (form : α → Language UInt8) : Option α → Language UInt8
  | none => unsigned 1 0
  | some value => unsigned 1 1 * form value

def limb (value : UInt32) : Language UInt8 := unsigned 4 value.toNat

def limbValue (limbs : List UInt32) : Nat := Nat.ofDigits (2 ^ 32) (limbs.map UInt32.toNat)

/-- A sign and any limbs. Limbs behind a zero sign do not count, nor do zero limbs at the top. -/
def wideInt (value : Int) : Language UInt8 :=
  {bytes | ∃ (sign : Int) (limbs : List UInt32), (sign = -1 ∨ sign = 0 ∨ sign = 1) ∧
    value = (if sign = 0 then 0 else sign * limbValue limbs) ∧
    bytes ∈ signed 1 sign * counted limb limbs}

def type : EngineType → Language UInt8
  | .boolean => unsigned 4 0
  | .integer => unsigned 4 1
  | .bigInt => unsigned 4 2
  | .varChar => unsigned 4 3
  | .timestamp => unsigned 4 4
  | .decimal precision scale =>
      unsigned 4 5 * (unsigned 4 precision.toNat * signed 4 scale.toInt)
  | .row names types =>
      unsigned 4 6 * (counted text names * (unsigned 8 types.length * (types.map type).prod))

variable (wide : Int → Language UInt8)

def datum : Datum → Language UInt8
  | .boolean value => unsigned 4 0 * truth value
  | .tinyInt value => unsigned 4 1 * signed 1 value.toInt
  | .smallInt value => unsigned 4 2 * signed 2 value.toInt
  | .integer value => unsigned 4 3 * signed 4 value.toInt
  | .bigInt value => unsigned 4 4 * signed 8 value.toInt
  | .double value => unsigned 4 5 * unsigned 8 value.bits.toNat
  | .varChar value => unsigned 4 6 * text value
  | .varBinary value => unsigned 4 7 * text value
  | .hugeInt value => unsigned 4 8 * wide value

def expr : EngineExpr → Language UInt8
  | .constant dataType value vector =>
      unsigned 4 0 * (type dataType * (datum wide value *
        optional (counted fun byte => unsigned 1 byte.toNat) vector))
  | .call dataType inputs function =>
      unsigned 4 1 * (type dataType *
        (unsigned 8 inputs.length * (inputs.map expr).prod * text function))
  | .fieldAccess dataType field => unsigned 4 2 * (type dataType * text field)

theorem number_lt (bytes : List UInt8) : number bytes < 256 ^ bytes.length := by
  have digits : ∀ digit ∈ bytes.map UInt8.toNat, digit < 256 := by
    intro digit member
    obtain ⟨byte, _, rfl⟩ := List.mem_map.mp member
    exact byte.toNat_lt
  simpa [number] using Nat.ofDigits_lt_base_pow_length (by decide) digits

theorem lt_of_mem_unsigned {width value : Nat} {bytes : List UInt8}
    (form : bytes ∈ unsigned width value) : value < 256 ^ width := by
  rcases form with ⟨rfl, rfl⟩
  exact number_lt bytes

theorem eq_of_bmod_eq {modulus left right : Nat} (leftBound : left < modulus)
    (rightBound : right < modulus)
    (same : (left : Int).bmod modulus = (right : Int).bmod modulus) : left = right := by
  have remainder : (left : Int) % modulus = (right : Int) % modulus := by
    rw [← Int.bmod_emod, same, Int.bmod_emod]
  have nonneg : (0 : Int) ≤ left ∧ (0 : Int) ≤ right := by omega
  rw [Int.emod_eq_of_lt nonneg.1 (by omega), Int.emod_eq_of_lt nonneg.2 (by omega)] at remainder
  omega

/-- Two's complement is the plain spelling of the number that wraps to the integer. -/
theorem signed_eq_unsigned {width wrapped : Nat} {value : Int} (bound : wrapped < 256 ^ width)
    (same : (wrapped : Int).bmod (256 ^ width) = value) :
    signed width value = unsigned width wrapped := by
  ext bytes
  constructor
  · intro form
    rcases form with ⟨rfl, spelled⟩
    exact ⟨rfl, eq_of_bmod_eq (number_lt bytes) bound (spelled.trans same.symm)⟩
  · intro form
    rcases form with ⟨rfl, rfl⟩
    exact ⟨rfl, same⟩

theorem signed_int8 (value : Int8) : signed 1 value.toInt = unsigned 1 value.toUInt8.toNat :=
  signed_eq_unsigned value.toUInt8.toNat_lt value.toBitVec.toInt_eq_toNat_bmod.symm

theorem signed_int16 (value : Int16) : signed 2 value.toInt = unsigned 2 value.toUInt16.toNat :=
  signed_eq_unsigned value.toUInt16.toNat_lt value.toBitVec.toInt_eq_toNat_bmod.symm

theorem signed_int32 (value : Int32) : signed 4 value.toInt = unsigned 4 value.toUInt32.toNat :=
  signed_eq_unsigned value.toUInt32.toNat_lt value.toBitVec.toInt_eq_toNat_bmod.symm

theorem signed_int64 (value : Int64) : signed 8 value.toInt = unsigned 8 value.toUInt64.toNat :=
  signed_eq_unsigned value.toUInt64.toNat_lt value.toBitVec.toInt_eq_toNat_bmod.symm

theorem type_row (names : List String) (types : List EngineType) :
    type (.row names types) = unsigned 4 6 * (counted text names * counted type types) := by
  rw [type]
  rfl

theorem expr_call (dataType : EngineType) (inputs : List EngineExpr) (function : String) :
    expr wide (.call dataType inputs function) =
      unsigned 4 1 * (type dataType * (counted (expr wide) inputs * text function)) := by
  rw [expr]
  rfl

end ScalarLowering.Wire.Form
