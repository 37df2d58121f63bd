import ScalarLowering.Text.Numeral
import ScalarLowering.Text.Utf8

/-!
Why a byte string is not the byte form of an expression. Reading stops at the first fault, in the
order of the bytes. It is one fault if the bytes end within a field of fixed width, and another if a
text is said to be longer than what is left.
-/

namespace ScalarLowering.Wire

inductive Fault where
  | endOfInput
  | shortText
  | badVariant (found : UInt32) (count : Nat)
  | badBool (found : UInt8)
  | badOption (found : UInt8)
  | badSign (found : Int8)
  | badText (fault : Utf8.Fault)
  deriving DecidableEq

namespace Fault

def textFault : Utf8.Fault → String
  | .invalid index length =>
      "invalid utf-8 sequence of " ++ Numeral.text length ++ " bytes from index " ++
        Numeral.text index
  | .incomplete index => "incomplete utf-8 byte sequence from index " ++ Numeral.text index

def message : Fault → String
  | .endOfInput => "io error: unexpected end of file"
  | .shortText => "io error: "
  | .badVariant found count =>
      "invalid value: integer `" ++ Numeral.text found.toNat ++
        "`, expected variant index 0 <= i < " ++ Numeral.text count
  | .badBool found =>
      "invalid u8 while decoding bool, expected 0 or 1, found " ++ Numeral.text found.toNat
  | .badOption found => "tag for enum is not valid, found " ++ Numeral.text found.toNat
  | .badSign found =>
      "invalid value: integer `" ++ Numeral.text found.toInt ++ "`, expected a sign of -1, 0, or 1"
  | .badText fault => "string is not valid utf8: " ++ textFault fault

end Fault
end ScalarLowering.Wire
