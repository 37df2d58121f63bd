import ScalarLowering.Planner.Expr
import ScalarLowering.Wire.Fault

/-!
The causes for which an expression is refused. Each carries what its message names.
-/

namespace ScalarLowering

inductive Refusal where
  | unsupportedNode (kind : PlanExpr.Kind)
  | unsupportedType (tag : SqlType.Tag)
  | unsupportedLiteral (tag : SqlType.Tag)
  | decimalTooWide (unscaled : Int) (precision : UInt32)
  | unknownOperator (operator : String)
  | invalidLiteral (tag : SqlType.Tag) (text : String)
  | columnOutOfBounds (index columns : Nat)
  | unreadable (fault : Wire.Fault)
  deriving DecidableEq

namespace Refusal

def message : Refusal → String
  | .unsupportedNode kind => "Unsupported expression node: " ++ kind.name
  | .unsupportedType tag => "Unsupported type: " ++ tag.spelling
  | .unsupportedLiteral tag => "Unsupported literal type: " ++ tag.spelling
  | .decimalTooWide unscaled precision =>
      "Decimal unscaled value " ++ Numeral.text unscaled ++ " does not fit in BIGINT (precision " ++
        Numeral.text precision.toNat ++ ")"
  | .unknownOperator operator => "No engine function for operator '" ++ operator ++ "'"
  | .invalidLiteral tag text => "Invalid " ++ tag.spelling ++ " literal: '" ++ text ++ "'"
  | .columnOutOfBounds index columns =>
      "Input reference " ++ Numeral.text index ++ " out of bounds for " ++ Numeral.text columns ++
        " columns"
  | .unreadable fault => "Typed expression encoding error: " ++ fault.message

end Refusal
end ScalarLowering
