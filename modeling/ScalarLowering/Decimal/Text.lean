import ScalarLowering.Decimal.Basic
import ScalarLowering.Text.Positional

/-!
The text of a decimal. It is positional as long as the scale is not negative and the leading digit
stands no lower than the sixth place behind the point; beyond that it is scientific. Only positional
text is read back.
-/

namespace ScalarLowering.Decimal

/-- The power of ten at which the leading digit stands. -/
def leadingExponent (d : Decimal) : Int := (d.digits.length : Int) - 1 - d.scale.toInt

def isPositional (d : Decimal) : Bool :=
  d.scale.toInt = 0 || (0 < d.scale.toInt && -6 ≤ d.leadingExponent)

/-- One digit, the other digits behind a point, and the exponent with its sign. -/
def scientific (digits : List Char) (exponent : Int) : List Char :=
  Positional.withPoint digits (digits.length - 1) ++
    'E' :: (if 0 ≤ exponent then ['+'] else []) ++ Numeral.ofInt exponent

def chars (d : Decimal) : List Char :=
  Numeral.withSign (d.unscaled < 0)
    (if d.isPositional then Positional.withPoint d.digits d.scale.toInt.toNat
     else scientific d.digits d.leadingExponent)

def text (d : Decimal) : String := String.ofList d.chars

def wholePart (text : List Char) : List Char := text.takeWhile (· != '.')

def fractionPart (text : List Char) : List Char := (text.dropWhile (· != '.')).drop 1

/-- Reads a decimal: a sign or none, digits, and at most one point among, before or behind them. The
scale is the number of digits behind the point. -/
def ofChars? (text : List Char) : Option Decimal :=
  let (negative, body) := Numeral.splitSign text
  (Numeral.toNat? (wholePart body ++ fractionPart body)).map fun magnitude =>
    ofUnscaled (Numeral.signed negative magnitude) (Int32.ofNat (fractionPart body).length)

def invalidMessage (text : String) : String := s!"Invalid decimal literal: '{text}'"

structure InvalidText where
  text : String
  deriving DecidableEq

def InvalidText.message (refused : InvalidText) : String := invalidMessage refused.text

def parse (text : String) : Except InvalidText Decimal :=
  match ofChars? text.toList with
  | some d => .ok d
  | none => .error ⟨text⟩

end ScalarLowering.Decimal
