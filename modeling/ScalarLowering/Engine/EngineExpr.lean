import ScalarLowering.Engine.Datum
import ScalarLowering.Engine.EngineType

/-!
The typed expressions that the execution engine evaluates. A column and a field of a row are both
accessed by name. A constant can come with a prepared column of it, which lowering leaves out.
-/

namespace ScalarLowering

inductive EngineExpr where
  | constant (type : EngineType) (value : Datum) (vector : Option (List UInt8))
  | call (type : EngineType) (inputs : List EngineExpr) (function : String)
  | fieldAccess (type : EngineType) (field : String)

namespace EngineExpr

def type : EngineExpr → EngineType
  | .constant type _ _ => type
  | .call type _ _ => type
  | .fieldAccess type _ => type

mutual

def text : EngineExpr → String
  | .constant _ value _ => value.text
  | .call _ inputs function => function ++ "(" ++ ", ".intercalate (texts inputs) ++ ")"
  | .fieldAccess _ field => field
termination_by structural expr => expr

def texts : List EngineExpr → List String
  | [] => []
  | expr :: rest => text expr :: texts rest
termination_by structural exprs => exprs

end

mutual

def constants : EngineExpr → List Datum
  | .constant _ value _ => [value]
  | .call _ inputs _ => constantsOfAll inputs
  | .fieldAccess _ _ => []
termination_by structural expr => expr

def constantsOfAll : List EngineExpr → List Datum
  | [] => []
  | expr :: rest => constants expr ++ constantsOfAll rest
termination_by structural exprs => exprs

end

end EngineExpr
end ScalarLowering
