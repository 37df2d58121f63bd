import ScalarLowering.Lowering.Trees

/-!
What a lowering comes to, apart from its log: one equation for each kind of node, and what follows
for lists.
-/

namespace ScalarLowering

variable {env : Environment}

theorem Environment.column_eq_ok_iff {index : Nat} {name : String} :
    env.column index = .ok name ↔ env.columns[index]? = some name := by
  unfold Environment.column
  cases env.columns[index]? with
  | none => simp
  | some found => simp

namespace PlanExpr

theorem bind_eq_ok {α β : Type} {result : Except Refusal α} {next : α → Except Refusal β}
    {answer : β} : result >>= next = .ok answer ↔ ∃ value, result = .ok value ∧ next value = .ok answer := by
  cases result with
  | error refusal => simp [bind, Except.bind]
  | ok value => simp [bind, Except.bind]

theorem bind_eq_error {α β : Type} {result : Except Refusal α} {next : α → Except Refusal β}
    {refusal : Refusal} : result >>= next = .error refusal ↔
      result = .error refusal ∨ ∃ value, result = .ok value ∧ next value = .error refusal := by
  cases result with
  | error refusal => simp [bind, Except.bind]
  | ok value => simp [bind, Except.bind]

theorem lower_literal (value : Literal) (type : SqlType) :
    lower env (.literal value type) = do
      let engineType ← type.lower
      let datum ← value.lower type
      return .constant engineType datum none := by
  rw [lower, lowerLogged]
  simp only [Logged.result_bind, Logged.result_ofExcept, Logged.result_pure]
  rfl

theorem lower_call (operator : String) (operands : List PlanExpr) (type : SqlType) :
    lower env (.call operator operands type) = do
      let inputs ← lowerAll env operands
      let engineType ← type.lower
      let function ← env.resolve operator
      return .call engineType inputs function := by
  rw [lower, lowerLogged]
  simp only [Logged.result_bind, Logged.result_ofExcept, Logged.result_pure]
  rfl

theorem lower_inputRef (index : Nat) (type : SqlType) :
    lower env (.inputRef index type) = do
      let name ← env.column index
      let engineType ← type.lower
      return .fieldAccess engineType name := by
  rw [lower, lowerLogged]
  simp only [Logged.result_bind, Logged.result_ofExcept, Logged.result_pure]
  rfl

theorem lower_fieldAccess (parent : PlanExpr) (field : String) (type : SqlType) :
    lower env (.fieldAccess parent field type) = do
      let engineType ← type.lower
      return .fieldAccess engineType field := by
  rw [lower, lowerLogged]
  simp only [Logged.result_bind, Logged.result_ofExcept, Logged.result_pure]
  rfl

theorem lowerAll_nil : lowerAll env [] = .ok [] := rfl

theorem lowerAll_cons (node : PlanExpr) (rest : List PlanExpr) :
    lowerAll env (node :: rest) = do
      let first ← lower env node
      let others ← lowerAll env rest
      return first :: others := by
  rw [lowerAll, lowerAllLogged]
  simp only [Logged.result_bind, Logged.result_pure]
  rfl

theorem result_lowerAnnounced (node : PlanExpr) :
    (lowerAnnounced env node).result = lower env node := by
  rw [lowerAnnounced, Logged.result_bind, Logged.result_write]
  rfl

theorem result_lowerAllAnnounced (nodes : List PlanExpr) :
    (lowerAllAnnounced env nodes).result = lowerAll env nodes := by
  rw [lowerAllAnnounced, Logged.result_bind, Logged.result_write]
  rfl

/-- A traversal that stops at the first refusal answers the results of its items, one by one. -/
theorem traversal_eq_ok_iff {α β : Type} {each : α → Except Refusal β}
    {traverse : List α → Except Refusal (List β)} (nil : traverse [] = .ok [])
    (cons : ∀ item rest, traverse (item :: rest) = do
      let first ← each item
      let others ← traverse rest
      return first :: others) {items : List α} {results : List β} :
    traverse items = .ok results ↔ items.map each = results.map .ok := by
  induction items generalizing results with
  | nil =>
      rw [nil]
      cases results <;> simp
  | cons item rest induction =>
      rw [cons, bind_eq_ok]
      constructor
      · intro answered
        rcases answered with ⟨first, firstAnswered, answered⟩
        obtain ⟨others, othersAnswered, same⟩ := bind_eq_ok.mp answered
        cases same
        rw [List.map_cons, List.map_cons, firstAnswered, induction.mp othersAnswered]
      · intro same
        cases results with
        | nil => contradiction
        | cons first others =>
            rw [List.map_cons, List.map_cons, List.cons.injEq] at same
            exact ⟨first, same.1, bind_eq_ok.mpr ⟨others, induction.mpr same.2, rfl⟩⟩

theorem lowerAll_eq_ok_iff {nodes : List PlanExpr} {exprs : List EngineExpr} :
    lowerAll env nodes = .ok exprs ↔ nodes.map (lower env) = exprs.map .ok :=
  traversal_eq_ok_iff lowerAll_nil lowerAll_cons

theorem length_of_lowerAll {nodes : List PlanExpr} {exprs : List EngineExpr}
    (lowered : lowerAll env nodes = .ok exprs) : nodes.length = exprs.length := by
  have lengths := congrArg List.length (lowerAll_eq_ok_iff.mp lowered)
  rwa [List.length_map, List.length_map] at lengths

/-- A list fails as its first failing member does. -/
theorem lowerAll_eq_error_iff {nodes : List PlanExpr} {refusal : Refusal} :
    lowerAll env nodes = .error refusal ↔
      ∃ before node after, nodes = before ++ node :: after ∧
        (∀ earlier ∈ before, ∃ expr, lower env earlier = .ok expr) ∧
        lower env node = .error refusal := by
  induction nodes with
  | nil => simp [lowerAll_nil]
  | cons node rest induction =>
      rw [lowerAll_cons]
      cases head : lower env node with
      | error found =>
          constructor
          · intro failed
            cases failed
            exact ⟨[], node, rest, rfl, by simp, head⟩
          · intro split
            rcases split with ⟨before, failing, after, same, passed, failed⟩
            cases before with
            | nil =>
                cases same
                rw [← head, failed]
                rfl
            | cons earlier others =>
                cases same
                obtain ⟨expr, lowered⟩ := passed node List.mem_cons_self
                rw [lowered] at head
                contradiction
      | ok first =>
          -- A first node that is lowered leaves the failure to the rest.
          have tail : (do
              let first ← Except.ok first
              let others ← lowerAll env rest
              return first :: others) = .error refusal ↔ lowerAll env rest = .error refusal := by
            cases lowerAll env rest <;> simp [bind, Except.bind, pure, Except.pure]
          rw [tail, induction]
          constructor
          · intro split
            rcases split with ⟨before, failing, after, same, passed, failed⟩
            refine ⟨node :: before, failing, after, congrArg (node :: ·) same, ?_, failed⟩
            intro earlier member
            rcases List.mem_cons.mp member with same | member
            · exact ⟨first, same ▸ head⟩
            · exact passed earlier member
          · intro split
            rcases split with ⟨before, failing, after, same, passed, failed⟩
            cases before with
            | nil =>
                cases same
                rw [head] at failed
                contradiction
            | cons earlier others =>
                cases same
                exact ⟨others, failing, after, rfl,
                  fun earlier member => passed earlier (List.mem_cons_of_mem _ member), failed⟩

end PlanExpr
end ScalarLowering
