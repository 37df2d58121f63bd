import ScalarLowering.Text.Numeral

/-!
The types that the execution engine knows, and their text. A row lists the names and the types of
its fields apart, so the two lists can differ in length when a row comes from outside; its text
stops at the shorter one.
-/

namespace ScalarLowering

inductive EngineType where
  | boolean
  | integer
  | bigInt
  | varChar
  | timestamp
  | decimal (precision : UInt32) (scale : Int32)
  | row (names : List String) (types : List EngineType)

namespace EngineType

mutual

def text : EngineType → String
  | .boolean => "BOOLEAN"
  | .integer => "INTEGER"
  | .bigInt => "BIGINT"
  | .varChar => "VARCHAR"
  | .timestamp => "TIMESTAMP"
  | .decimal precision scale =>
      "DECIMAL(" ++ Numeral.text precision.toNat ++ ", " ++ Numeral.text scale.toInt ++ ")"
  | .row names types => "ROW<" ++ ",".intercalate (fieldTexts types names) ++ ">"
termination_by structural type => type

/-- The texts of the fields that have both a type and a name. -/
def fieldTexts : List EngineType → List String → List String
  | type :: types, name :: names => (name ++ ":" ++ text type) :: fieldTexts types names
  | _, _ => []
termination_by structural types => types

end

end EngineType
end ScalarLowering
