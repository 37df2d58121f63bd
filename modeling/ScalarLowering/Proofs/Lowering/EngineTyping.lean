import ScalarLowering.Proofs.Lowering.Constants
import ScalarLowering.Proofs.Lowering.Positions

/-!
Lowered trees are well typed for the engine. The type and the value of a constant are lowered apart
from each other, and each of the two is refused for tags that the other one accepts; what both accept
are six pairs. Rows have as many names as types, however deep they are nested.
-/

namespace ScalarLowering

namespace EngineType

def parts : EngineType → List EngineType
  | .row _ types => types
  | _ => []

def Balanced : EngineType → Prop
  | .row names types => names.length = types.length
  | _ => True

/-- The values that constants of a type are made with. -/
inductive Holds : EngineType → Datum → Prop
  | boolean (value : Bool) : Holds .boolean (.boolean value)
  | integer (value : Int32) : Holds .integer (.integer value)
  | bigInt (value : Int64) : Holds .bigInt (.bigInt value)
  | varChar (value : String) : Holds .varChar (.varChar value)
  | narrowDecimal (precision : UInt32) (scale : Int32) (value : Int64) :
      Holds (.decimal precision scale) (.bigInt value)
  | wideDecimal (precision : UInt32) (scale : Int32) (value : Int) :
      Holds (.decimal precision scale) (.hugeInt value)

end EngineType

namespace SqlType

def parts : SqlType → List SqlType
  | .row fields => fields.map Prod.snd
  | _ => []

theorem lower_row (fields : List (String × SqlType)) :
    lower (.row fields) = .row (fields.map Prod.fst) <$> lowerFields fields := rfl

theorem lowerFields_nil : lowerFields [] = .ok [] := rfl

theorem lowerFields_cons (field : String × SqlType) (rest : List (String × SqlType)) :
    lowerFields (field :: rest) = do
      let first ← field.2.lower
      let others ← lowerFields rest
      return first :: others := rfl

theorem lowerFields_eq_ok_iff {fields : List (String × SqlType)} {types : List EngineType} :
    lowerFields fields = .ok types ↔ fields.map (fun field => field.2.lower) = types.map .ok :=
  PlanExpr.traversal_eq_ok_iff lowerFields_nil lowerFields_cons

theorem length_of_lowerFields {fields : List (String × SqlType)} {types : List EngineType}
    (lowered : lowerFields fields = .ok types) : (fields.map Prod.fst).length = types.length := by
  have lengths := congrArg List.length (lowerFields_eq_ok_iff.mp lowered)
  rwa [List.length_map, List.length_map, ← List.length_map Prod.fst] at lengths

variable {type : SqlType} {engineType nested : EngineType}

theorem balanced_of_lower (lowered : type.lower = .ok engineType) : engineType.Balanced := by
  cases engineType with
  | boolean | integer | bigInt | varChar | timestamp | decimal => trivial
  | row names types =>
      cases type with
      | row fields =>
          rw [lower_row] at lowered
          obtain ⟨_, fieldsLowered, same⟩ := map_eq_ok.mp lowered
          cases same
          exact length_of_lowerFields fieldsLowered
      | _ => cases lowered

theorem parts_lowered (lowered : type.lower = .ok engineType) :
    List.Forall₂ (fun source target => source.lower = .ok target) type.parts engineType.parts := by
  cases type with
  | row fields =>
      rw [lower_row] at lowered
      obtain ⟨types, fieldsLowered, rfl⟩ := map_eq_ok.mp lowered
      refine forall₂_of_map_eq ?_
      rw [parts, List.map_map]
      exact lowerFields_eq_ok_iff.mp fieldsLowered
  | boolean | integer | bigInt | varChar | timestamp | decimal =>
      cases lowered
      exact .nil
  | _ => cases lowered

theorem exists_lower_of_descend (lowered : type.lower = .ok engineType) (path : List Nat)
    (found : descend EngineType.parts path engineType = some nested) :
    ∃ source : SqlType, source.lower = .ok nested := by
  have counterparts := descend_rel parts_lowered lowered path
  rw [found] at counterparts
  generalize descend parts path type = source at counterparts
  cases counterparts with
  | some sourceLowered => exact ⟨_, sourceLowered⟩

end SqlType

/-- What lowers a type and what lowers a literal of that type agree where both answer. -/
theorem Literal.holds_of_lower {value : Literal} {type : SqlType} {engineType : EngineType}
    {datum : Datum} (typed : type.lower = .ok engineType) (stored : value.lower type = .ok datum) :
    engineType.Holds datum := by
  cases type with
  | boolean =>
      cases typed
      rw [lower_boolean] at stored
      obtain ⟨held, _, rfl⟩ := map_eq_ok.mp stored
      exact .boolean held
  | integer =>
      cases typed
      rw [lower_integer] at stored
      obtain ⟨held, _, rfl⟩ := map_eq_ok.mp stored
      exact .integer held
  | bigInt =>
      cases typed
      rw [lower_bigInt] at stored
      obtain ⟨held, _, rfl⟩ := map_eq_ok.mp stored
      exact .bigInt held
  | varChar length =>
      cases typed
      rw [lower_varChar] at stored
      obtain ⟨held, _, rfl⟩ := map_eq_ok.mp stored
      exact .varChar held
  | decimal precision scale =>
      cases typed
      rw [lower_decimal] at stored
      obtain ⟨d, _, stored⟩ := PlanExpr.bind_eq_ok.mp stored
      rcases Decimal.stored_of_lower stored with ⟨held, _, rfl⟩ | rfl
      · exact .narrowDecimal precision scale held
      · exact .wideDecimal precision scale d.unscaled
  -- Types without constants, and then types without a counterpart in the engine.
  | timestamp | row => contradiction
  | _ => cases typed

namespace PlanExpr

variable {env : Environment} {node : PlanExpr} {expr : EngineExpr}

theorem counterpart_of_position (lowered : lower env node = .ok expr)
    (position : Position EngineExpr.inputs expr) :
    ∃ source, Counterpart env source position.subtree := by
  have subtree := lower_subtree lowered ((matched lowered).symm position)
  rw [Equiv.apply_symm_apply] at subtree
  exact ⟨_, (lower_step subtree).1⟩

/-- The last part says that no row is ever put together from lists of unequal length, not even in a
run that is refused later on. -/
theorem lower_wellTyped (lowered : node.lower env = .ok expr) :
    (∀ position : Position EngineExpr.inputs expr,
      (∀ type value vector, position.subtree = .constant type value vector →
        type.Holds value ∧ vector = none) ∧
      ∀ nested : Position EngineType.parts position.subtree.type, nested.subtree.Balanced) ∧
    ∀ fields types, SqlType.lowerFields fields = .ok types →
      (fields.map Prod.fst).length = types.length := by
  refine ⟨fun position => ?_, fun fields types => SqlType.length_of_lowerFields⟩
  obtain ⟨source, counterpart⟩ := counterpart_of_position lowered position
  constructor
  · intro type value vector constant
    rw [constant] at counterpart
    cases counterpart with
    | literal typed stored => exact ⟨Literal.holds_of_lower typed stored, rfl⟩
  · intro nested
    obtain ⟨nestedSource, nestedLowered⟩ :=
      SqlType.exists_lower_of_descend counterpart.type_lower nested.path nested.descend_eq
    exact SqlType.balanced_of_lower nestedLowered

def mixedOperands : PlanExpr :=
  .call "="
    [ .literal (.decimal ⟨-12345678901234567890, 20, 1⟩) (.decimal 20 1),
      .inputRef 0 (.row [("outer", .row [("inner", .varChar none)]), ("none", .row [])]) ]
    .boolean

theorem lower_wellTyped_mixedOperands :
    ∃ expr, mixedOperands.lower ⟨["pair"], OperatorTable.standard.resolve⟩ = .ok expr ∧
      (∀ position : Position EngineExpr.inputs expr,
        (∀ type value vector, position.subtree = .constant type value vector →
          type.Holds value ∧ vector = none) ∧
        ∀ nested : Position EngineType.parts position.subtree.type, nested.subtree.Balanced) := by
  have lowered : mixedOperands.lower ⟨["pair"], OperatorTable.standard.resolve⟩ =
      .ok (.call .boolean
        [ .constant (.decimal 20 1) (.hugeInt (-12345678901234567890)) none,
          .fieldAccess (.row ["outer", "none"] [.row ["inner"] [.varChar], .row [] []]) "pair" ]
        "equalto") := rfl
  exact ⟨_, lowered, (lower_wellTyped lowered).1⟩

end PlanExpr
end ScalarLowering
