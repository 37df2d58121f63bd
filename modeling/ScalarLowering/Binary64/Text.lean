import ScalarLowering.Binary64.Nearest
import ScalarLowering.Text.Positional

/-!
The text of a double, and doubles from texts. The text has the fewest digits that read back as the
same double, of those the nearest to it, and is positional throughout; outlines show the same digits,
with an exponent where the number is large or small. Reading takes a sign, digits
with a point, an exponent, and the names of the infinities and of NaN in any case, and rounds to the
nearest double.
-/

namespace ScalarLowering.Binary64

/-- A finite magnitude as a whole number of the `unitExponent`-th decimal places. -/
def decimalUnits (magnitude : Nat) : Nat := units magnitude * Nat.pow 5 unitExponent

/-- Whether `coefficient` on the decimal grid `grid` reads back as the magnitude. The grid is
counted in powers of ten from the `unitExponent`-th decimal place. -/
def readsBack (magnitude coefficient grid : Nat) : Bool :=
  nearestBits (coefficient * Nat.pow 10 grid) (Nat.pow 10 unitExponent) = magnitude

/-- The point of a grid that is nearest to the magnitude among its two neighbours that read back.
When both are equally near, the upper one is taken. -/
def onGrid? (magnitude grid : Nat) : Option Nat :=
  let spacing := Nat.pow 10 grid
  let below := decimalUnits magnitude / spacing
  let twice := 2 * (decimalUnits magnitude % spacing)
  let fitsBelow := readsBack magnitude below grid
  let fitsAbove := readsBack magnitude (below + 1) grid
  if fitsAbove && (!fitsBelow || spacing ≤ twice) then some (below + 1)
  else if fitsBelow then some below
  else none

/-- Searches the grids, from `grid` on to finer ones, for the first that has a point, and gives the
point and the grid. The finest grid has the point `finest` in any case. -/
def firstOnGrids (point? : Nat → Option Nat) (finest : Nat) : (grid : Nat) → Nat × Nat
  | 0 => (finest, 0)
  | grid + 1 =>
      match point? (grid + 1) with
      | some coefficient => (coefficient, grid + 1)
      | none => firstOnGrids point? finest grid

/-- The shortest decimal of a finite magnitude that is not zero, as a coefficient and its grid. The
finest grid holds the magnitude itself. -/
def shortest (magnitude : Nat) : Nat × Nat :=
  firstOnGrids (onGrid? magnitude) (decimalUnits magnitude)
    (Numeral.digits (decimalUnits magnitude)).length

def magnitudeChars (magnitude : Nat) : List Char :=
  if magnitude = 0 then ['0']
  else
    Positional.scaled (Numeral.digits (shortest magnitude).1)
      ((shortest magnitude).2 - unitExponent)

/-- The text of a double. Zero and infinity show their sign, and NaN has none. -/
def chars (x : Binary64) : List Char :=
  if x.isNaN then ['N', 'a', 'N']
  else Numeral.withSign x.isNegative
    (if x.isInfinite then ['i', 'n', 'f'] else magnitudeChars x.magnitudeBits)

def text (x : Binary64) : String := String.ofList x.chars

/-- A finite magnitude in an outline. A digit stands behind the point, unless the leading digit stands
below the fourth place behind it or above the sixteenth before it, where an exponent is written. -/
def outlineMagnitude (magnitude : Nat) : List Char :=
  if magnitude = 0 then ['0', '.', '0']
  else
    let digits := Numeral.digits (shortest magnitude).1
    let exponent : Int := (shortest magnitude).2 - unitExponent
    let leading := exponent + (digits.length - 1)
    if leading < -4 ∨ 16 ≤ leading then
      Positional.withPoint digits (digits.length - 1) ++ 'e' :: Numeral.ofInt leading
    else Positional.scaled digits exponent ++ (if 0 ≤ exponent then ['.', '0'] else [])

def outlineChars (x : Binary64) : List Char :=
  if x.isNaN || x.isInfinite then x.chars
  else Numeral.withSign x.isNegative (outlineMagnitude x.magnitudeBits)

def exponent? : List Char → Option Int
  | [] => some 0
  | c :: rest => if c = 'e' ∨ c = 'E' then Numeral.toInt? rest else none

def splitFraction : List Char → List Char × List Char
  | '.' :: rest => (rest.takeWhile Char.isDigit, rest.dropWhile Char.isDigit)
  | rest => ([], rest)

def numeralBits? (text : List Char) : Option Nat :=
  let whole := text.takeWhile Char.isDigit
  let (fraction, rest) := splitFraction (text.dropWhile Char.isDigit)
  if whole = [] ∧ fraction = [] then none
  else (exponent? rest).map fun exponent =>
    nearestScaled (Numeral.value (whole ++ fraction)) (exponent - fraction.length)

def magnitudeBits? (text : List Char) : Option Nat :=
  let name := String.ofList (text.map Char.toLower)
  if name = "inf" ∨ name = "infinity" then some infinityBits
  else if name = "nan" then some quietBits
  else numeralBits? text

def ofChars? (text : List Char) : Option Binary64 :=
  let (negative, body) := Numeral.splitSign text
  (magnitudeBits? body).map (ofMagnitude negative)

end ScalarLowering.Binary64
