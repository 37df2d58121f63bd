/-!
Byte strings in hexadecimal, two digits a byte, the high half first. Lower-case digits are written,
and digits of either case are read.
-/

namespace ScalarLowering.Hex

def ofByte (byte : UInt8) : List Char :=
  [Nat.digitChar (byte.toNat / 16), Nat.digitChar (byte.toNat % 16)]

def ofBytes (bytes : List UInt8) : List Char := bytes.flatMap ofByte

def digit? (c : Char) : Option Nat :=
  if '0' ≤ c ∧ c ≤ '9' then some (c.toNat - '0'.toNat)
  else if 'a' ≤ c ∧ c ≤ 'f' then some (c.toNat - 'a'.toNat + 10)
  else if 'A' ≤ c ∧ c ≤ 'F' then some (c.toNat - 'A'.toNat + 10)
  else none

def toBytes? : List Char → Option (List UInt8)
  | [] => some []
  | [_] => none
  | high :: low :: rest => do
      let h ← digit? high
      let l ← digit? low
      let bytes ← toBytes? rest
      some (UInt8.ofNat (16 * h + l) :: bytes)

end ScalarLowering.Hex
