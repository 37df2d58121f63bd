import ScalarLowering.Lowering.Log

/-!
The log of the program. It opens with the columns that were given and goes on with the log of the
lowering, of which nothing is shown but the debug records, and these on demand only.
-/

namespace ScalarLowering.CommandLine

inductive Record where
  | announcement (columns : List String) (operators : Nat)
  | lowering (record : LogRecord)

namespace Record

def level : Record → String
  | .announcement _ _ => "INFO"
  | .lowering record => record.level.name

def message : Record → String
  | .announcement columns operators =>
      "Lowering sample expressions over columns [" ++ ", ".intercalate columns ++ "] with " ++
        Numeral.text operators ++ " operator mappings"
  | .lowering record => record.message

def line (record : Record) : String := "[" ++ record.level ++ "] " ++ record.message

def isShown (debug : Bool) : Record → Bool
  | .announcement _ _ => true
  | .lowering record => debug && record.level = .debug

end Record
end ScalarLowering.CommandLine
