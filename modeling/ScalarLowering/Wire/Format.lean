import ScalarLowering.Engine.EngineExpr
import ScalarLowering.Lowering.Refusal
import ScalarLowering.Wire.Field

/-!
The byte form of engine expressions. Every variant is written as its index, in 32 bits, and the
fields of the variant in order. Reading follows the same order. A nested type or expression takes
bytes of its own, so a budget of one level for each byte of the input is never used up before the
input is.
-/

namespace ScalarLowering
namespace Wire

def writeVariant (index : Nat) : List UInt8 := littleEndian 4 index

mutual

def writeType : EngineType → List UInt8
  | .boolean => writeVariant 0
  | .integer => writeVariant 1
  | .bigInt => writeVariant 2
  | .varChar => writeVariant 3
  | .timestamp => writeVariant 4
  | .decimal precision scale =>
      writeVariant 5 ++ littleEndian 4 precision.toNat ++ littleEndian 4 scale.toUInt32.toNat
  | .row names types =>
      writeVariant 6 ++ writeList writeText names ++ writeLength types.length ++ writeTypes types
termination_by structural type => type

def writeTypes : List EngineType → List UInt8
  | [] => []
  | type :: rest => writeType type ++ writeTypes rest
termination_by structural types => types

end

def writeDatum : Datum → List UInt8
  | .boolean value => writeVariant 0 ++ writeBool value
  | .tinyInt value => writeVariant 1 ++ littleEndian 1 value.toUInt8.toNat
  | .smallInt value => writeVariant 2 ++ littleEndian 2 value.toUInt16.toNat
  | .integer value => writeVariant 3 ++ littleEndian 4 value.toUInt32.toNat
  | .bigInt value => writeVariant 4 ++ littleEndian 8 value.toUInt64.toNat
  | .double value => writeVariant 5 ++ littleEndian 8 value.bits.toNat
  | .varChar value => writeVariant 6 ++ writeText value
  | .varBinary value => writeVariant 7 ++ writeText value
  | .hugeInt value => writeVariant 8 ++ writeHugeInt value

mutual

def writeExpr : EngineExpr → List UInt8
  | .constant type value vector =>
      writeVariant 0 ++ writeType type ++ writeDatum value ++
        writeOption (writeList fun byte => [byte]) vector
  | .call type inputs function =>
      writeVariant 1 ++ writeType type ++ writeLength inputs.length ++ writeExprs inputs ++
        writeText function
  | .fieldAccess type field => writeVariant 2 ++ writeType type ++ writeText field
termination_by structural expr => expr

def writeExprs : List EngineExpr → List UInt8
  | [] => []
  | expr :: rest => writeExpr expr ++ writeExprs rest
termination_by structural exprs => exprs

end

namespace Reader

/-- Reads a type that is nested no deeper than the budget. -/
def type : (budget : Nat) → Reader EngineType
  | 0 => fail .endOfInput
  | budget + 1 => do
      let variant ← word32
      match variant.toNat with
      | 0 => return .boolean
      | 1 => return .integer
      | 2 => return .bigInt
      | 3 => return .varChar
      | 4 => return .timestamp
      | 5 => do
          let precision ← word32
          let scale ← word32
          return .decimal precision scale.toInt32
      | 6 => do
          let names ← list text
          let types ← list (type budget)
          return .row names types
      | _ => fail (.badVariant variant 7)

def datum : Reader Datum := do
  let variant ← word32
  match variant.toNat with
  | 0 => .boolean <$> bool
  | 1 => (fun n => .tinyInt (UInt8.ofNat n).toInt8) <$> fixed 1
  | 2 => (fun n => .smallInt (UInt16.ofNat n).toInt16) <$> fixed 2
  | 3 => (fun n => .integer (UInt32.ofNat n).toInt32) <$> fixed 4
  | 4 => (fun n => .bigInt (UInt64.ofNat n).toInt64) <$> fixed 8
  | 5 => (fun n => .double ⟨UInt64.ofNat n⟩) <$> fixed 8
  | 6 => .varChar <$> text
  | 7 => .varBinary <$> text
  | 8 => .hugeInt <$> hugeInt
  | _ => fail (.badVariant variant 9)

def expr : (budget : Nat) → Reader EngineExpr
  | 0 => fail .endOfInput
  | budget + 1 => do
      let variant ← word32
      match variant.toNat with
      | 0 => do
          let type ← type budget
          let value ← datum
          let vector ← option (list octet)
          return .constant type value vector
      | 1 => do
          let type ← type budget
          let inputs ← list (expr budget)
          let function ← text
          return .call type inputs function
      | 2 => do
          let type ← type budget
          let field ← text
          return .fieldAccess type field
      | _ => fail (.badVariant variant 3)

end Reader

/-- Reads an expression from the front of some bytes. Bytes behind it are left over. -/
def readExpr : Reader EngineExpr := fun bytes => Reader.expr bytes.length bytes

end Wire

namespace EngineExpr

def toBytes (expr : EngineExpr) : List UInt8 := Wire.writeExpr expr

def ofBytes (bytes : List UInt8) : Except Refusal EngineExpr :=
  match Wire.readExpr bytes with
  | .ok (expr, _) => .ok expr
  | .error fault => .error (.unreadable fault)

end EngineExpr
end ScalarLowering
