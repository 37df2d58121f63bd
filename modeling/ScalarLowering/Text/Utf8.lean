/-!
The byte form of text. A character is written as one to four bytes, and reading accepts exactly what
writing produces: no overlong forms, no surrogates, nothing above the last code point. A fault names
the byte at which the unfinished character starts, which is also the length of the valid text before
it, and how many of its bytes could still have begun a character.
-/

namespace ScalarLowering.Utf8

inductive Fault where
  | invalid (index length : Nat)
  | incomplete (index : Nat)
  deriving DecidableEq

/-- A character of which at least one byte has been read and at least one is missing: the code point bits
and the bytes so far, the bytes behind the next one, and the range of the next one. -/
structure Pending where
  value : Nat
  seen : Nat
  after : Nat
  low : UInt8
  high : UInt8

/-- What the first byte of a character says about it. The range of the second byte shuts out
overlong forms, surrogates and numbers above the last code point. -/
inductive Lead where
  | complete (c : Char)
  | pending (p : Pending)
  | invalid

def lead (byte : UInt8) : Lead :=
  let n := byte.toNat
  if n < 0x80 then .complete (Char.ofNat n)
  else if n < 0xC2 then .invalid
  else if n < 0xE0 then .pending ⟨n - 0xC0, 1, 0, 0x80, 0xBF⟩
  else if n = 0xE0 then .pending ⟨0, 1, 1, 0xA0, 0xBF⟩
  else if n = 0xED then .pending ⟨0xD, 1, 1, 0x80, 0x9F⟩
  else if n < 0xF0 then .pending ⟨n - 0xE0, 1, 1, 0x80, 0xBF⟩
  else if n = 0xF0 then .pending ⟨0, 1, 2, 0x90, 0xBF⟩
  else if n < 0xF4 then .pending ⟨n - 0xF0, 1, 2, 0x80, 0xBF⟩
  else if n = 0xF4 then .pending ⟨4, 1, 2, 0x80, 0x8F⟩
  else .invalid

def Pending.extend (p : Pending) (byte : UInt8) : Nat := p.value * 64 + byte.toNat % 64

/-- Reads the characters that start at byte `index`, the first of which may be pending already. -/
def decodeFrom (index : Nat) : Option Pending → List UInt8 → Except Fault (List Char)
  | none, [] => .ok []
  | some _, [] => .error (.incomplete index)
  | none, byte :: rest =>
      match lead byte with
      | .complete c => (c :: ·) <$> decodeFrom (index + 1) none rest
      | .pending p => decodeFrom index (some p) rest
      | .invalid => .error (.invalid index 1)
  | some p, byte :: rest =>
      if p.low ≤ byte ∧ byte ≤ p.high then
        match p.after with
        | 0 => (Char.ofNat (p.extend byte) :: ·) <$> decodeFrom (index + p.seen + 1) none rest
        | after + 1 => decodeFrom index (some ⟨p.extend byte, p.seen + 1, after, 0x80, 0xBF⟩) rest
      else .error (.invalid index p.seen)

def decode (bytes : List UInt8) : Except Fault String := String.ofList <$> decodeFrom 0 none bytes

def encode (text : String) : List UInt8 := text.toList.flatMap String.utf8EncodeChar

end ScalarLowering.Utf8
