import ScalarLowering.Proofs.Lowering.Results

/-!
Which refusal ends a lowering. All refusals that a tree deserves are collected in the order in which
lowering looks for them, without stopping at the first one; lowering is then refused exactly when
there are any, and for the first of them.
-/

namespace ScalarLowering

variable {α β : Type}

def refusalsOf : Except Refusal α → List Refusal
  | .ok _ => []
  | .error refusal => [refusal]

namespace PlanExpr

mutual

/-- The refusals of a tree. The row of a field access deserves none, nor does the type of a node that
has no counterpart. -/
def refusals (env : Environment) : PlanExpr → List Refusal
  | .literal value type => refusalsOf type.lower ++ refusalsOf (value.lower type)
  | .call operator operands type =>
      refusalsOfAll env operands ++ refusalsOf type.lower ++ refusalsOf (env.resolve operator)
  | .inputRef index type =>
      (if index < env.columns.length then []
        else [.columnOutOfBounds index env.columns.length]) ++ refusalsOf type.lower
  | .fieldAccess _ _ type => refusalsOf type.lower
  | .dynamicParam _ _ => [.unsupportedNode .dynamicParam]
  | .localRef _ _ => [.unsupportedNode .localRef]
  | .correlVariable _ _ => [.unsupportedNode .correlVariable]
termination_by structural node => node

def refusalsOfAll (env : Environment) : List PlanExpr → List Refusal
  | [] => []
  | node :: rest => refusals env node ++ refusalsOfAll env rest
termination_by structural nodes => nodes

end

end PlanExpr

/-- A result is the first of some refusals, or a value if there are none. -/
def HeadedBy (result : Except Refusal α) : List Refusal → Prop
  | [] => ∃ value, result = .ok value
  | refusal :: _ => result = .error refusal

namespace HeadedBy

variable {result : Except Refusal α} {next : α → Except Refusal β} {earlier later : List Refusal}

theorem ok (value : α) : HeadedBy (.ok value) [] := ⟨value, rfl⟩

theorem single (result : Except Refusal α) : HeadedBy result (refusalsOf result) := by
  cases result with
  | error refusal => rfl
  | ok value => exact ok value

theorem bind (first : HeadedBy result earlier) (second : ∀ value, HeadedBy (next value) later) :
    HeadedBy (result >>= next) (earlier ++ later) := by
  cases earlier with
  | nil =>
      rcases first with ⟨value, rfl⟩
      exact second value
  | cons refusal others =>
      change result = .error refusal at first
      rw [first]
      rfl

theorem last {f : α → β} (headed : HeadedBy result earlier) :
    HeadedBy (result >>= fun value => pure (f value)) earlier := by
  have both := headed.bind fun value => ok (f value)
  rwa [List.append_nil] at both

theorem ok_iff (headed : HeadedBy result earlier) :
    (∃ value, result = .ok value) ↔ earlier = [] := by
  cases earlier with
  | nil => exact iff_of_true headed rfl
  | cons refusal others =>
      change result = .error refusal at headed
      simp [headed]

theorem error_iff (headed : HeadedBy result earlier) {refusal : Refusal} :
    result = .error refusal ↔ earlier.head? = some refusal := by
  cases earlier with
  | nil =>
      rcases headed with ⟨value, rfl⟩
      simp
  | cons first others =>
      change result = .error first at headed
      simp [headed]

end HeadedBy

theorem Environment.column_headedBy (env : Environment) (index : Nat) :
    HeadedBy (env.column index)
      (if index < env.columns.length then []
        else [.columnOutOfBounds index env.columns.length]) := by
  unfold Environment.column
  by_cases inside : index < env.columns.length
  · rw [if_pos inside, List.getElem?_eq_getElem inside]
    exact HeadedBy.ok _
  · rw [if_neg inside, List.getElem?_eq_none (Nat.le_of_not_lt inside)]
    rfl

namespace PlanExpr

mutual

theorem lower_headedBy (env : Environment) (node : PlanExpr) :
    HeadedBy (lower env node) (refusals env node) := by
  cases node with
  | literal value type =>
      rw [lower_literal, refusals]
      exact (HeadedBy.single type.lower).bind fun engineType => (HeadedBy.single _).last
  | call operator operands type =>
      rw [lower_call, refusals, List.append_assoc]
      exact (lowerAll_headedBy env operands).bind fun inputs =>
        (HeadedBy.single type.lower).bind fun engineType => (HeadedBy.single _).last
  | inputRef index type =>
      rw [lower_inputRef, refusals]
      exact (env.column_headedBy index).bind fun name => (HeadedBy.single type.lower).last
  | fieldAccess parent field type =>
      rw [lower_fieldAccess, refusals]
      exact (HeadedBy.single type.lower).last
  | dynamicParam index type => rfl
  | localRef index type => rfl
  | correlVariable id type => rfl
termination_by structural node

theorem lowerAll_headedBy (env : Environment) (nodes : List PlanExpr) :
    HeadedBy (lowerAll env nodes) (refusalsOfAll env nodes) := by
  cases nodes with
  | nil => exact HeadedBy.ok []
  | cons node rest =>
      rw [lowerAll_cons, refusalsOfAll]
      exact (lower_headedBy env node).bind fun first => (lowerAll_headedBy env rest).last
termination_by structural nodes

end

theorem lower_eq_first_refusal (env : Environment) (node : PlanExpr) (nodes : List PlanExpr) :
    ((∃ expr, node.lower env = .ok expr) ↔ node.refusals env = []) ∧
    (∀ refusal, node.lower env = .error refusal ↔ (node.refusals env).head? = some refusal) ∧
    (∀ exprs, (lowerAllAnnounced env nodes).result = .ok exprs ↔
      nodes.map (fun node => (lowerAnnounced env node).result) = exprs.map .ok) ∧
    ∀ refusal, (lowerAllAnnounced env nodes).result = .error refusal ↔
      ∃ before failing after, nodes = before ++ failing :: after ∧
        (∀ earlier ∈ before, ∃ expr, (lowerAnnounced env earlier).result = .ok expr) ∧
        (lowerAnnounced env failing).result = .error refusal := by
  simp only [result_lowerAnnounced, result_lowerAllAnnounced]
  have headed := lower_headedBy env node
  exact ⟨headed.ok_iff, fun _ => headed.error_iff, fun _ => lowerAll_eq_ok_iff,
    fun _ => lowerAll_eq_error_iff⟩

end PlanExpr
end ScalarLowering
