import ScalarLowering.Engine.EngineType
import ScalarLowering.Lowering.Refusal

/-!
SQL types as engine types. The engine has a counterpart for seven kinds of type; lengths of strings
are dropped, and all else is kept. A row is refused for its first unsupported field.
-/

namespace ScalarLowering.SqlType

mutual

/-- The engine type of an SQL type. Element types of arrays and maps are not looked at. -/
def lower : SqlType → Except Refusal EngineType
  | .boolean => .ok .boolean
  | .integer => .ok .integer
  | .bigInt => .ok .bigInt
  | .varChar _ => .ok .varChar
  | .timestamp => .ok .timestamp
  | .decimal precision scale => .ok (.decimal precision scale)
  | .row fields => .row (fields.map Prod.fst) <$> lowerFields fields
  | type => .error (.unsupportedType type.tag)
termination_by structural type => type

def lowerFields : List (String × SqlType) → Except Refusal (List EngineType)
  | [] => .ok []
  | (_, type) :: rest => do
      let first ← lower type
      let others ← lowerFields rest
      return first :: others
termination_by structural fields => fields

end

end ScalarLowering.SqlType
