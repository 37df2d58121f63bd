import ScalarLowering.Engine.Datum
import ScalarLowering.Lowering.Log
import ScalarLowering.Word

/-!
Literals as engine constants. The declared type alone decides which constant a literal becomes,
and all types but BOOLEAN and DECIMAL read the literal through its text form, so a number and its
numeral become the same constant. A null is no value of any type.
-/

namespace ScalarLowering

namespace Decimal

/-- Decimals of at most this precision are stored as 64-bit integers, which hold all integers of so
many digits. -/
def bigIntPrecision : UInt32 := 18

def lower (d : Decimal) : Logged Datum :=
  if d.precision ≤ bigIntPrecision then
    match Word.int64? d.unscaled with
    | some value => do
        Logged.write (.decimalStored d .bigInt)
        return .bigInt value
    | none => .ofExcept (.error (.decimalTooWide d.unscaled d.precision))
  else do
    Logged.write (.decimalStored d .hugeInt)
    return .hugeInt d.unscaled

end Decimal

namespace Literal

def invalid (value : Literal) (tag : SqlType.Tag) : Refusal := .invalidLiteral tag value.toText

/-- Reads the text form of a literal. A null has none to be read. -/
def read {α : Type} (value : Literal) (tag : SqlType.Tag) (reader : List Char → Option α) :
    Except Refusal α :=
  match value with
  | .null => .error (value.invalid tag)
  | _ =>
      match reader value.chars with
      | some result => .ok result
      | none => .error (value.invalid tag)

def readInt32? (text : List Char) : Option Int32 := (Numeral.toInt? text).bind Word.int32?

def readInt64? (text : List Char) : Option Int64 := (Numeral.toInt? text).bind Word.int64?

def asDecimal : Literal → Except Refusal Decimal
  | .decimal value => .ok value
  | value => value.read .decimal Decimal.ofChars?

def asBoolean : Literal → Except Refusal Bool
  | .boolean value => .ok value
  | value => .error (value.invalid .boolean)

/-- The constant of a literal under a type with the given tag. A stored decimal is logged. -/
def lowerAs (value : Literal) (tag : SqlType.Tag) : Logged Datum :=
  match tag with
  | .boolean => .ofExcept (.boolean <$> value.asBoolean)
  | .tinyInt | .smallInt | .integer => .ofExcept (.integer <$> value.read tag readInt32?)
  | .bigInt => .ofExcept (.bigInt <$> value.read tag readInt64?)
  | .double => .ofExcept (.double <$> value.read tag Binary64.ofChars?)
  | .varChar => .ofExcept (.varChar <$> value.read tag (some ∘ String.ofList))
  | .binary => .ofExcept (.varBinary <$> value.read tag (some ∘ String.ofList))
  | .decimal => do
      let d ← Logged.ofExcept value.asDecimal
      d.lower
  | _ => .ofExcept (.error (.unsupportedLiteral tag))

def lower (value : Literal) (type : SqlType) : Except Refusal Datum :=
  (value.lowerAs type.tag).result

end Literal
end ScalarLowering
