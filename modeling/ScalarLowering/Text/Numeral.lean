/-!
Decimal numerals as lists of characters: how a number is written, and how a signed numeral is read
back. Only the ten ASCII digits count as digits. Written numerals have no leading zeros and no plus
sign; read ones may have both.
-/

namespace ScalarLowering.Numeral

/-- The decimal digits of `n`, most significant first. Zero is written as one digit. -/
def digits (n : Nat) : List Char := Nat.toDigits 10 n

def value (spelling : List Char) : Nat := Nat.ofDigitChars 10 spelling 0

def withSign (negative : Bool) (spelling : List Char) : List Char :=
  if negative then '-' :: spelling else spelling

def signed (negative : Bool) (magnitude : Nat) : Int :=
  if negative then -(magnitude : Int) else magnitude

def ofInt (i : Int) : List Char := withSign (i < 0) (digits i.natAbs)

def text (i : Int) : String := String.ofList (ofInt i)

def splitSign : List Char → Bool × List Char
  | '-' :: rest => (true, rest)
  | '+' :: rest => (false, rest)
  | text => (false, text)

def toNat? (text : List Char) : Option Nat :=
  if text ≠ [] ∧ text.all Char.isDigit then some (value text) else none

def toInt? (text : List Char) : Option Int :=
  (toNat? (splitSign text).2).map (signed (splitSign text).1)

theorem value_digits (n : Nat) : value (digits n) = n := Nat.ofDigitChars_ten_toDigits

theorem digits_ne_nil (n : Nat) : digits n ≠ [] := Nat.toDigits_ne_nil

theorem isDigit_of_mem_digits {n : Nat} {c : Char} (member : c ∈ digits n) : c.isDigit :=
  Nat.isDigit_of_mem_toDigits (by decide) (by decide) member

theorem toNat?_digits (n : Nat) : toNat? (digits n) = some n := by
  have allDigits : (digits n).all Char.isDigit :=
    List.all_eq_true.mpr fun _ => isDigit_of_mem_digits
  simp [toNat?, digits_ne_nil, allDigits, value_digits]

theorem splitSign_digits (n : Nat) : splitSign (digits n) = (false, digits n) := by
  unfold splitSign
  split
  next minus => exact absurd (isDigit_of_mem_digits (minus ▸ List.mem_cons_self)) (by decide)
  next plus => exact absurd (isDigit_of_mem_digits (plus ▸ List.mem_cons_self)) (by decide)
  next => rfl

theorem toInt?_ofInt (i : Int) : toInt? (ofInt i) = some i := by
  by_cases negative : i < 0
  · simp only [toInt?, ofInt, withSign, negative, decide_true, if_true, splitSign, toNat?_digits,
      Option.map_some, signed]
    congr 1
    omega
  · simp only [toInt?, ofInt, withSign, negative, decide_false, splitSign_digits, toNat?_digits,
      Option.map_some, signed, Bool.false_eq_true, if_false]
    congr 1
    omega

end ScalarLowering.Numeral
