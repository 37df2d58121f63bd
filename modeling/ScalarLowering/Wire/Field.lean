import ScalarLowering.Wire.Reader

/-!
The fields of the byte form, each with its writer and its reader. Integers have a fixed width and
start with their least significant byte; a text follows its length in bytes, and a list its length
in items. An integer of any width is written as its sign and a list of 32-bit limbs.
-/

namespace ScalarLowering.Wire

variable {α : Type}

/-- The lowest `width` bytes of a number, least significant first. -/
def littleEndian : (width : Nat) → Nat → List UInt8
  | 0, _ => []
  | width + 1, n => UInt8.ofNat n :: littleEndian width (n / 256)

def ofLittleEndian : List UInt8 → Nat
  | [] => 0
  | byte :: rest => byte.toNat + 256 * ofLittleEndian rest

def writeBool (value : Bool) : List UInt8 := [if value then 1 else 0]

def writeLength (length : Nat) : List UInt8 := littleEndian 8 length

def writeText (text : String) : List UInt8 :=
  let bytes := Utf8.encode text
  writeLength bytes.length ++ bytes

def writeList (write : α → List UInt8) (items : List α) : List UInt8 :=
  writeLength items.length ++ items.flatMap write

def writeOption (write : α → List UInt8) : Option α → List UInt8
  | none => [0]
  | some value => 1 :: write value

/-- The number of 32-bit limbs of a number. Zero has none, and the highest limb is never zero. -/
def limbCount (n : Nat) : Nat := if n = 0 then 0 else n.log2 / 32 + 1

def limbs : (count : Nat) → Nat → List UInt32
  | 0, _ => []
  | count + 1, n => UInt32.ofNat n :: limbs count (n / 0x100000000)

def ofLimbs : List UInt32 → Nat
  | [] => 0
  | limb :: rest => limb.toNat + 0x100000000 * ofLimbs rest

/-- Writes an integer of any width: its sign as -1, 0 or 1, and the limbs of its magnitude. -/
def writeHugeInt (i : Int) : List UInt8 :=
  (Int8.ofInt i.sign).toUInt8 ::
    writeList (fun limb : UInt32 => littleEndian 4 limb.toNat) (limbs (limbCount i.natAbs) i.natAbs)

theorem length_littleEndian (width n : Nat) : (littleEndian width n).length = width := by
  induction width generalizing n with
  | zero => rfl
  | succ width induction => simp [littleEndian, induction]

theorem ofLittleEndian_littleEndian (width n : Nat) :
    ofLittleEndian (littleEndian width n) = n % Nat.pow 256 width := by
  induction width generalizing n with
  | zero => simp [littleEndian, ofLittleEndian, Nat.mod_one]
  | succ width induction =>
      have power : Nat.pow 256 (width + 1) = 256 * Nat.pow 256 width := Nat.mul_comm ..
      simp only [littleEndian, ofLittleEndian, induction]
      rw [power, Nat.mod_mul, UInt8.toNat_ofNat']

theorem ofLimbs_limbs (count n : Nat) : ofLimbs (limbs count n) = n % Nat.pow 0x100000000 count := by
  induction count generalizing n with
  | zero => simp [limbs, ofLimbs, Nat.mod_one]
  | succ count induction =>
      have power : Nat.pow 0x100000000 (count + 1) = 0x100000000 * Nat.pow 0x100000000 count :=
        Nat.mul_comm ..
      simp only [limbs, ofLimbs, induction]
      rw [power, Nat.mod_mul, UInt32.toNat_ofNat']

namespace Reader

def octet : Reader UInt8 := byte .endOfInput

def fixed (width : Nat) : Reader Nat := ofLittleEndian <$> take .endOfInput width

def word32 : Reader UInt32 := UInt32.ofNat <$> fixed 4

def length : Reader Nat := fixed 8

def bool : Reader Bool := do
  match ← octet with
  | 0 => return false
  | 1 => return true
  | found => fail (.badBool found)

/-- Reads a text. Its length is checked before its bytes are looked at. -/
def text : Reader String := do
  let bytes ← take .shortText (← length)
  match Utf8.decode bytes with
  | .ok text => return text
  | .error fault => fail (.badText fault)

def list (item : Reader α) : Reader (List α) := do
  many item (← length)

def option (item : Reader α) : Reader (Option α) := do
  match ← octet with
  | 0 => return none
  | 1 => some <$> item
  | found => fail (.badOption found)

def sign : Reader Int8 := do
  let sign := (← octet).toInt8
  if sign = -1 ∨ sign = 0 ∨ sign = 1 then return sign else fail (.badSign sign)

/-- Reads an integer of any width. All limbs are taken, and behind a zero sign none counts. -/
def hugeInt : Reader Int := do
  let sign ← sign
  let limbs ← list word32
  return sign.toInt * ofLimbs limbs

end Reader
end ScalarLowering.Wire
