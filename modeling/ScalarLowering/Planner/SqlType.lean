/-!
The SQL types that a planner attaches to its expressions, and their tags. A tag is what remains of a
type when its parameters are dropped; diagnostics name types by the SQL spelling of their tag.
-/

namespace ScalarLowering

/-- An SQL type. A missing length means that the length is not bounded. -/
inductive SqlType where
  | boolean
  | tinyInt
  | smallInt
  | integer
  | bigInt
  | decimal (precision : UInt32) (scale : Int32)
  | float
  | real
  | double
  | char (length : Option UInt32)
  | varChar (length : Option UInt32)
  | binary (length : Option UInt32)
  | varBinary (length : Option UInt32)
  | date
  | time
  | timestamp
  | array (element : SqlType)
  | map (key value : SqlType)
  | row (fields : List (String × SqlType))
  | null

namespace SqlType

inductive Tag where
  | boolean
  | tinyInt
  | smallInt
  | integer
  | bigInt
  | decimal
  | float
  | real
  | double
  | char
  | varChar
  | binary
  | varBinary
  | date
  | time
  | timestamp
  | array
  | map
  | row
  | null
  deriving DecidableEq

def Tag.spelling : Tag → String
  | .boolean => "BOOLEAN"
  | .tinyInt => "TINYINT"
  | .smallInt => "SMALLINT"
  | .integer => "INTEGER"
  | .bigInt => "BIGINT"
  | .decimal => "DECIMAL"
  | .float => "FLOAT"
  | .real => "REAL"
  | .double => "DOUBLE"
  | .char => "CHAR"
  | .varChar => "VARCHAR"
  | .binary => "BINARY"
  | .varBinary => "VARBINARY"
  | .date => "DATE"
  | .time => "TIME"
  | .timestamp => "TIMESTAMP"
  | .array => "ARRAY"
  | .map => "MAP"
  | .row => "ROW"
  | .null => "NULL"

def tag : SqlType → Tag
  | .boolean => .boolean
  | .tinyInt => .tinyInt
  | .smallInt => .smallInt
  | .integer => .integer
  | .bigInt => .bigInt
  | .decimal _ _ => .decimal
  | .float => .float
  | .real => .real
  | .double => .double
  | .char _ => .char
  | .varChar _ => .varChar
  | .binary _ => .binary
  | .varBinary _ => .varBinary
  | .date => .date
  | .time => .time
  | .timestamp => .timestamp
  | .array _ => .array
  | .map _ _ => .map
  | .row _ => .row
  | .null => .null

end SqlType
end ScalarLowering
