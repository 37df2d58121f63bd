import ScalarLowering.Binary64.Text
import ScalarLowering.Decimal.Text
import ScalarLowering.Text.Hex

/-!
The values of a planner's literals, before their declared type is taken into account, and the text
form through which most types read them.
-/

namespace ScalarLowering

inductive Literal where
  | null
  | boolean (value : Bool)
  | exact (value : Int64)
  | approximate (value : Binary64)
  | decimal (value : Decimal)
  | text (value : String)
  | bytes (value : List UInt8)
  deriving DecidableEq

namespace Literal

/-- The text form of a literal: truth values in lower case, numbers as numerals, byte strings in
hexadecimal, and text as it is. -/
def chars : Literal → List Char
  | .null => ['N', 'U', 'L', 'L']
  | .boolean true => ['t', 'r', 'u', 'e']
  | .boolean false => ['f', 'a', 'l', 's', 'e']
  | .exact value => Numeral.ofInt value.toInt
  | .approximate value => value.chars
  | .decimal value => value.chars
  | .text value => value.toList
  | .bytes value => Hex.ofBytes value

def toText (value : Literal) : String := String.ofList value.chars

end Literal
end ScalarLowering
