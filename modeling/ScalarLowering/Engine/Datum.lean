import ScalarLowering.Binary64.Text

/-!
The constant values of the execution engine. The two narrow integer kinds exist in the engine's byte
form only: lowering answers the 32-bit kind for them. Byte strings are held in their text form.
-/

namespace ScalarLowering

inductive Datum where
  | boolean (value : Bool)
  | tinyInt (value : Int8)
  | smallInt (value : Int16)
  | integer (value : Int32)
  | bigInt (value : Int64)
  | double (value : Binary64)
  | varChar (value : String)
  | varBinary (value : String)
  | hugeInt (value : Int)
  deriving DecidableEq

namespace Datum

def tag : Datum → String
  | .boolean _ => "BOOLEAN"
  | .tinyInt _ => "TINYINT"
  | .smallInt _ => "SMALLINT"
  | .integer _ => "INTEGER"
  | .bigInt _ => "BIGINT"
  | .double _ => "DOUBLE"
  | .varChar _ => "VARCHAR"
  | .varBinary _ => "VARBINARY"
  | .hugeInt _ => "HUGEINT"

/-- The text of a value. Strings stand between single quotes, and quotes inside are not marked. -/
def text : Datum → String
  | .boolean value => if value then "true" else "false"
  | .tinyInt value => Numeral.text value.toInt
  | .smallInt value => Numeral.text value.toInt
  | .integer value => Numeral.text value.toInt
  | .bigInt value => Numeral.text value.toInt
  | .double value => value.text
  | .varChar value => "'" ++ value ++ "'"
  | .varBinary value => "X'" ++ value ++ "'"
  | .hugeInt value => Numeral.text value

end Datum
end ScalarLowering
