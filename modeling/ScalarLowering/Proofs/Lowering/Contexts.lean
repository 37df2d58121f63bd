import ScalarLowering.Proofs.Lowering.Results

/-!
A tree inside a larger one. What the larger tree is lowered to depends on the smaller one through what
that is lowered to, and a refusal of the smaller one refuses the whole. Only the row of a field access
has no say in either.
-/

namespace ScalarLowering.PlanExpr

inductive Frame where
  | operand (operator : String) (before after : List PlanExpr) (type : SqlType)
  | row (field : String) (type : SqlType)

def Frame.plug : Frame → PlanExpr → PlanExpr
  | .operand operator before after type, node => .call operator (before ++ node :: after) type
  | .row field type, node => .fieldAccess node field type

/-- The way from the root of a tree down to the one place that is left open. -/
abbrev Context := List Frame

namespace Context

def fill (context : Context) (node : PlanExpr) : PlanExpr := context.foldr Frame.plug node

/-- The open place lies in the row of a field access, at whatever depth. -/
def WithinRow (context : Context) : Prop := ∃ field type, .row field type ∈ context

end Context

variable {env : Environment} {node other : PlanExpr}

theorem lowerAll_congr (same : lower env node = lower env other) (before after : List PlanExpr) :
    lowerAll env (before ++ node :: after) = lowerAll env (before ++ other :: after) := by
  induction before with
  | nil => rw [List.nil_append, List.nil_append, lowerAll_cons, lowerAll_cons, same]
  | cons earlier others induction =>
      rw [List.cons_append, List.cons_append, lowerAll_cons, lowerAll_cons, induction]

theorem exists_lower_of_lowerAll {nodes : List PlanExpr} {exprs : List EngineExpr}
    (lowered : lowerAll env nodes = .ok exprs) (member : node ∈ nodes) :
    ∃ expr, lower env node = .ok expr := by
  have answered : lower env node ∈ exprs.map .ok := by
    rw [← lowerAll_eq_ok_iff.mp lowered]
    exact List.mem_map_of_mem member
  obtain ⟨expr, _, same⟩ := List.mem_map.mp answered
  exact ⟨expr, same.symm⟩

theorem lower_plug_row (field : String) (type : SqlType) :
    lower env ((Frame.row field type).plug node) = lower env ((Frame.row field type).plug other) := by
  rw [Frame.plug, Frame.plug, lower_fieldAccess, lower_fieldAccess]

theorem lower_plug_congr (frame : Frame) (same : lower env node = lower env other) :
    lower env (frame.plug node) = lower env (frame.plug other) := by
  cases frame with
  | operand operator before after type =>
      rw [Frame.plug, Frame.plug, lower_call, lower_call, lowerAll_congr same]
  | row field type => exact lower_plug_row field type

theorem exists_lower_of_plug {frame : Frame} {expr : EngineExpr}
    (operand : ∀ field type, frame ≠ .row field type)
    (lowered : lower env (frame.plug node) = .ok expr) : ∃ inner, lower env node = .ok inner := by
  cases frame with
  | operand operator before after type =>
      rw [Frame.plug, lower_call] at lowered
      obtain ⟨inputs, inputsLowered, _⟩ := bind_eq_ok.mp lowered
      exact exists_lower_of_lowerAll inputsLowered (by simp)
  | row field type => exact absurd rfl (operand field type)

namespace Context

theorem lower_fill_congr (context : Context) (same : lower env node = lower env other) :
    lower env (context.fill node) = lower env (context.fill other) := by
  induction context with
  | nil => exact same
  | cons frame context induction => exact lower_plug_congr frame induction

theorem exists_lower_of_fill {context : Context} {expr : EngineExpr}
    (outside : ¬ context.WithinRow) (lowered : lower env (context.fill node) = .ok expr) :
    ∃ inner, lower env node = .ok inner := by
  induction context generalizing expr with
  | nil => exact ⟨expr, lowered⟩
  | cons frame context induction =>
      have operand : ∀ field type, frame ≠ .row field type := by
        rintro field type rfl
        exact outside ⟨field, type, List.mem_cons_self⟩
      obtain ⟨inner, innerLowered⟩ := exists_lower_of_plug operand lowered
      refine induction ?_ innerLowered
      rintro ⟨field, type, member⟩
      exact outside ⟨field, type, List.mem_cons_of_mem _ member⟩

/-- Below the row of a field access nothing matters, so neither does it above. -/
theorem lower_fill_of_withinRow {context : Context} (inside : context.WithinRow) :
    lower env (context.fill node) = lower env (context.fill other) := by
  obtain ⟨field, type, member⟩ := inside
  induction context with
  | nil => contradiction
  | cons frame context induction =>
      rcases List.mem_cons.mp member with rfl | member
      · exact lower_plug_row field type
      · exact lower_plug_congr frame (induction member)

end Context

theorem lower_fill (context : Context) (env : Environment) (node other : PlanExpr) :
    (¬ context.WithinRow →
      (lower env node = lower env other →
        lower env (context.fill node) = lower env (context.fill other)) ∧
      ∀ refusal, lower env node = .error refusal →
        ∃ cause, lower env (context.fill node) = .error cause) ∧
    (context.WithinRow → lower env (context.fill node) = lower env (context.fill other)) := by
  refine ⟨fun outside => ⟨context.lower_fill_congr, ?_⟩, Context.lower_fill_of_withinRow⟩
  intro refusal refused
  cases whole : lower env (context.fill node) with
  | error cause => exact ⟨cause, rfl⟩
  | ok expr =>
      obtain ⟨inner, lowered⟩ := Context.exists_lower_of_fill outside whole
      rw [lowered] at refused
      contradiction

/-- `NOT column = _`, with the right side open. -/
def differsFrom : Context :=
  [.operand "NOT" [] [] .boolean, .operand "=" [.inputRef 0 .integer] [] .boolean]

def differsFromZip : Context := differsFrom ++ [.row "zip" .integer]

theorem lower_fill_differsFrom :
    ¬ differsFrom.WithinRow ∧ differsFromZip.WithinRow ∧
    lower ⟨["age"], OperatorTable.standard.resolve⟩
        (differsFrom.fill (.literal (.exact 5) .integer)) =
      lower ⟨["age"], OperatorTable.standard.resolve⟩
        (differsFrom.fill (.literal (.text "+05") .integer)) ∧
    (∃ cause, lower ⟨["age"], OperatorTable.standard.resolve⟩
      (differsFrom.fill (.dynamicParam 0 .integer)) = .error cause) ∧
    lower ⟨["age"], OperatorTable.standard.resolve⟩ (differsFromZip.fill (.dynamicParam 0 .null)) =
      lower ⟨["age"], OperatorTable.standard.resolve⟩ (differsFromZip.fill (.inputRef 9 .date)) := by
  have outside : ¬ differsFrom.WithinRow := by
    rintro ⟨field, type, member⟩
    simp [differsFrom] at member
  have inside : differsFromZip.WithinRow := ⟨"zip", .integer, by simp [differsFromZip]⟩
  have alike : lower ⟨["age"], OperatorTable.standard.resolve⟩ (.literal (.exact 5) .integer) =
      lower ⟨["age"], OperatorTable.standard.resolve⟩ (.literal (.text "+05") .integer) := rfl
  refine ⟨outside, inside, ((lower_fill _ _ _ _).1 outside).1 alike, ?_, (lower_fill _ _ _ _).2 inside⟩
  exact ((lower_fill differsFrom _ (.dynamicParam 0 .integer) (.dynamicParam 0 .integer)).1
    outside).2 _ rfl

end ScalarLowering.PlanExpr
