import ScalarLowering.Planner.Literal
import ScalarLowering.Planner.SqlType

/-!
The expression trees that a planner hands over. Every node carries the SQL type that the planner has
derived for it. The engine has no counterpart for parameters of the query, for shared expressions of the
enclosing program and for rows of enclosing queries.
-/

namespace ScalarLowering

inductive PlanExpr where
  | literal (value : Literal) (type : SqlType)
  | call (operator : String) (operands : List PlanExpr) (type : SqlType)
  | inputRef (index : Nat) (type : SqlType)
  | fieldAccess (parent : PlanExpr) (field : String) (type : SqlType)
  | dynamicParam (index : Nat) (type : SqlType)
  | localRef (index : Nat) (type : SqlType)
  | correlVariable (id : String) (type : SqlType)

namespace PlanExpr

inductive Kind where
  | literal
  | call
  | inputRef
  | fieldAccess
  | dynamicParam
  | localRef
  | correlVariable
  deriving DecidableEq

def Kind.name : Kind → String
  | .literal => "Literal"
  | .call => "Call"
  | .inputRef => "InputRef"
  | .fieldAccess => "FieldAccess"
  | .dynamicParam => "DynamicParam"
  | .localRef => "LocalRef"
  | .correlVariable => "CorrelVariable"

def kind : PlanExpr → Kind
  | .literal _ _ => .literal
  | .call _ _ _ => .call
  | .inputRef _ _ => .inputRef
  | .fieldAccess _ _ _ => .fieldAccess
  | .dynamicParam _ _ => .dynamicParam
  | .localRef _ _ => .localRef
  | .correlVariable _ _ => .correlVariable

def type : PlanExpr → SqlType
  | .literal _ type => type
  | .call _ _ type => type
  | .inputRef _ type => type
  | .fieldAccess _ _ type => type
  | .dynamicParam _ type => type
  | .localRef _ type => type
  | .correlVariable _ type => type

mutual

/-- The number of levels of a tree. The row of a field access counts, although it is not lowered. -/
def depth : PlanExpr → Nat
  | .call _ operands _ => 1 + depthOfAll operands
  | .fieldAccess parent _ _ => 1 + depth parent
  | _ => 1
termination_by structural node => node

def depthOfAll : List PlanExpr → Nat
  | [] => 0
  | node :: rest => max (depth node) (depthOfAll rest)
termination_by structural nodes => nodes

end

end PlanExpr
end ScalarLowering
