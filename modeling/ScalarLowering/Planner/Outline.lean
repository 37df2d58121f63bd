import ScalarLowering.Planner.SqlType
import ScalarLowering.Text.Outline

/-!
Outlines of SQL types.
-/

namespace ScalarLowering.SqlType

def outlineLength (name : String) (length : Option UInt32) : Outline :=
  .tuple name [.ofOption (fun n => .ofInt n.toNat) length]

mutual

def outline : SqlType → Outline
  | .boolean => .atom "Boolean"
  | .tinyInt => .atom "TinyInt"
  | .smallInt => .atom "SmallInt"
  | .integer => .atom "Integer"
  | .bigInt => .atom "BigInt"
  | .decimal precision scale =>
      .record "Decimal"
        [("precision", .ofInt precision.toNat), ("scale", .ofInt scale.toInt)]
  | .float => .atom "Float"
  | .real => .atom "Real"
  | .double => .atom "Double"
  | .char length => outlineLength "Char" length
  | .varChar length => outlineLength "VarChar" length
  | .binary length => outlineLength "Binary" length
  | .varBinary length => outlineLength "VarBinary" length
  | .date => .atom "Date"
  | .time => .atom "Time"
  | .timestamp => .atom "Timestamp"
  | .array element => .tuple "Array" [outline element]
  | .map key value => .tuple "Map" [outline key, outline value]
  | .row fields => .tuple "Row" [.sequence (outlineFields fields)]
  | .null => .atom "Null"
termination_by structural type => type

def outlineFields : List (String × SqlType) → List Outline
  | [] => []
  | (name, type) :: rest =>
      .record "RowField" [("name", .ofText name), ("data_type", outline type)] ::
        outlineFields rest
termination_by structural fields => fields

end

end ScalarLowering.SqlType
