import ScalarLowering.Engine.EngineExpr
import ScalarLowering.Text.Outline

/-!
Outlines of engine expressions, with their types and constant values.
-/

namespace ScalarLowering

namespace EngineType

mutual

def outline : EngineType → Outline
  | .boolean => .atom "Boolean"
  | .integer => .atom "Integer"
  | .bigInt => .atom "BigInt"
  | .varChar => .atom "VarChar"
  | .timestamp => .atom "Timestamp"
  | .decimal precision scale =>
      .record "Decimal" [("precision", .ofInt precision.toNat), ("scale", .ofInt scale.toInt)]
  | .row names types =>
      .record "Row"
        [("names", .sequence (names.map .ofText)), ("children", .sequence (outlines types))]
termination_by structural type => type

def outlines : List EngineType → List Outline
  | [] => []
  | type :: rest => outline type :: outlines rest
termination_by structural types => types

end

end EngineType

def Datum.outline : Datum → Outline
  | .boolean value => .tuple "Boolean" [.atom (if value then "true" else "false")]
  | .tinyInt value => .tuple "TinyInt" [.ofInt value.toInt]
  | .smallInt value => .tuple "SmallInt" [.ofInt value.toInt]
  | .integer value => .tuple "Integer" [.ofInt value.toInt]
  | .bigInt value => .tuple "BigInt" [.ofInt value.toInt]
  | .double value => .tuple "Double" [.atom (String.ofList value.outlineChars)]
  | .varChar value => .tuple "VarChar" [.ofText value]
  | .varBinary value => .tuple "VarBinary" [.ofText value]
  | .hugeInt value => .tuple "HugeInt" [.ofInt value]

namespace EngineExpr

mutual

def outline : EngineExpr → Outline
  | .constant type value vector =>
      .record "Constant"
        [ ("data_type", type.outline), ("value", value.outline),
          ("value_vector",
            .ofOption (fun bytes => .sequence (bytes.map fun byte => .ofInt byte.toNat)) vector) ]
  | .call type inputs function =>
      .record "Call"
        [ ("data_type", type.outline), ("inputs", .sequence (outlines inputs)),
          ("function_name", .ofText function) ]
  | .fieldAccess type field =>
      .record "FieldAccess" [("data_type", type.outline), ("field_name", .ofText field)]
termination_by structural expr => expr

def outlines : List EngineExpr → List Outline
  | [] => []
  | expr :: rest => outline expr :: outlines rest
termination_by structural exprs => exprs

end

end EngineExpr
end ScalarLowering
