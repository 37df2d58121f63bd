import ScalarLowering.Engine.EngineExpr
import ScalarLowering.Lowering.Constants
import ScalarLowering.Lowering.Typing
import ScalarLowering.Operators.Table

/-!
Planner expressions as engine expressions. A call lowers its operands from left to right, then its
type, and then finds the function of its operator; the first refusal on this way ends the run. Input
columns become accesses by name. A field access keeps the name of its field only: the row it belongs
to is not lowered.
-/

namespace ScalarLowering

structure Environment where
  columns : List String
  resolve : Resolver

namespace Environment

def column (env : Environment) (index : Nat) : Except Refusal String :=
  match env.columns[index]? with
  | some name => .ok name
  | none => .error (.columnOutOfBounds index env.columns.length)

end Environment

namespace PlanExpr

mutual

def lowerLogged (env : Environment) : PlanExpr → Logged EngineExpr
  | .literal value type => do
      let engineType ← Logged.ofExcept type.lower
      let datum ← value.lowerAs type.tag
      return .constant engineType datum none
  | .call operator operands type => do
      let inputs ← lowerAllLogged env operands
      let engineType ← Logged.ofExcept type.lower
      let function ← Logged.ofExcept (env.resolve operator)
      return .call engineType inputs function
  | .inputRef index type => do
      let name ← Logged.ofExcept (env.column index)
      let engineType ← Logged.ofExcept type.lower
      return .fieldAccess engineType name
  | .fieldAccess _ field type => do
      let engineType ← Logged.ofExcept type.lower
      return .fieldAccess engineType field
  | node => .ofExcept (.error (.unsupportedNode node.kind))
termination_by structural node => node

def lowerAllLogged (env : Environment) : List PlanExpr → Logged (List EngineExpr)
  | [] => return []
  | node :: rest => do
      let first ← lowerLogged env node
      let others ← lowerAllLogged env rest
      return first :: others
termination_by structural nodes => nodes

end

def lower (env : Environment) (node : PlanExpr) : Except Refusal EngineExpr :=
  (lowerLogged env node).result

def lowerAll (env : Environment) (nodes : List PlanExpr) : Except Refusal (List EngineExpr) :=
  (lowerAllLogged env nodes).result

def lowerAnnounced (env : Environment) (node : PlanExpr) : Logged EngineExpr := do
  Logged.write (.loweringExpr node.kind node.depth env.columns.length)
  lowerLogged env node

def lowerAllAnnounced (env : Environment) (nodes : List PlanExpr) : Logged (List EngineExpr) := do
  Logged.write (.loweringExprs nodes.length env.columns.length)
  lowerAllLogged env nodes

end PlanExpr
end ScalarLowering
