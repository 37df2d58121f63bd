import ScalarLowering.Proofs.Lowering.EngineTyping
import ScalarLowering.Proofs.Operators.LetterCase

/-!
What a lowering takes from its environment: the names of the columns that a tree refers to and the
functions of its operators, and nothing else. Two trees that differ in the numbers of columns and the
names of operators only are lowered alike where these stand for the same names and functions.
-/

namespace ScalarLowering

namespace PlanExpr

/-- Trees that differ in the numbers of columns and the names of operators only. The rows of field
accesses may differ in everything. -/
inductive Renamed (column : Nat → Nat → Prop) (operator : String → String → Prop) :
    PlanExpr → PlanExpr → Prop
  | literal (value : Literal) (type : SqlType) :
      Renamed column operator (.literal value type) (.literal value type)
  | call {name other : String} {operands others : List PlanExpr} (type : SqlType)
      (named : operator name other) (renamed : List.Forall₂ (Renamed column operator) operands others) :
      Renamed column operator (.call name operands type) (.call other others type)
  | inputRef {index other : Nat} (type : SqlType) (numbered : column index other) :
      Renamed column operator (.inputRef index type) (.inputRef other type)
  | fieldAccess (parent other : PlanExpr) (field : String) (type : SqlType) :
      Renamed column operator (.fieldAccess parent field type) (.fieldAccess other field type)
  | dynamicParam (index : Nat) (type : SqlType) :
      Renamed column operator (.dynamicParam index type) (.dynamicParam index type)
  | localRef (index : Nat) (type : SqlType) :
      Renamed column operator (.localRef index type) (.localRef index type)
  | correlVariable (id : String) (type : SqlType) :
      Renamed column operator (.correlVariable id type) (.correlVariable id type)

/-- The parts of a tree, without the rows of its field accesses. -/
def Occurs (part node : PlanExpr) : Prop := ∃ path, descend kept path node = some part

theorem Occurs.refl (node : PlanExpr) : Occurs node node := ⟨[], rfl⟩

theorem Occurs.of_kept {part child node : PlanExpr} (member : child ∈ node.kept)
    (occurs : Occurs part child) : Occurs part node :=
  exists_descend_iff.mpr (.inr ⟨child, member, occurs⟩)

theorem occurs_leaf_iff {part node : PlanExpr} (leaf : node.kept = []) :
    Occurs part node ↔ part = node := by
  rw [Occurs, exists_descend_iff, leaf]
  simp

structure Agree (env other : Environment) (column : Nat → Nat → Prop)
    (operator : String → String → Prop) (node : PlanExpr) : Prop where
  columns : ∀ index type, Occurs (.inputRef index type) node → ∀ renumbered,
    column index renumbered → env.columns[index]? = other.columns[renumbered]?
  operators : ∀ name operands type, Occurs (.call name operands type) node → ∀ renamed,
    operator name renamed → ∀ function,
      env.resolve name = .ok function ↔ other.resolve renamed = .ok function

variable {env other : Environment} {column : Nat → Nat → Prop} {operator : String → String → Prop}

theorem Agree.of_kept {child node : PlanExpr} (agree : Agree env other column operator node)
    (member : child ∈ node.kept) : Agree env other column operator child where
  columns index type occurs := agree.columns index type (occurs.of_kept member)
  operators name operands type occurs := agree.operators name operands type (occurs.of_kept member)

/-- Results that are the same answer, or no answer at all. -/
def Alike {α : Type} (left right : Except Refusal α) : Prop :=
  ∀ answer, left = .ok answer ↔ right = .ok answer

theorem Alike.refl {α : Type} (result : Except Refusal α) : Alike result result := fun _ => Iff.rfl

theorem Alike.bind {α β : Type} {left right : Except Refusal α} {next after : α → Except Refusal β}
    (first : Alike left right) (second : ∀ value, Alike (next value) (after value)) :
    Alike (left >>= next) (right >>= after) := by
  intro answer
  rw [bind_eq_ok, bind_eq_ok]
  exact exists_congr fun value => and_congr (first value) (second value answer)

theorem column_alike {index renumbered : Nat}
    (same : env.columns[index]? = other.columns[renumbered]?) :
    Alike (env.column index) (other.column renumbered) := by
  intro name
  rw [Environment.column_eq_ok_iff, Environment.column_eq_ok_iff, same]

mutual

-- Along the induction, trees agree on their environments because they are kept in one that does.
theorem lower_alike (node renamed : PlanExpr) :
    Renamed column operator node renamed → Agree env other column operator node →
      Alike (lower env node) (lower other renamed) := by
  intro related agree
  cases node with
  | literal value type =>
      cases related
      rw [lower_literal, lower_literal]
      exact .refl _
  | call name operands type =>
      cases related with
      | call type named operandsRenamed =>
          rw [lower_call, lower_call]
          have operandsAlike := lowerAll_alike operands _ operandsRenamed
            fun child member => agree.of_kept member
          exact operandsAlike.bind fun inputs => (Alike.refl _).bind fun engineType =>
            Alike.bind (agree.operators name operands type (.refl _) _ named) fun function => .refl _
  | inputRef index type =>
      cases related with
      | inputRef type numbered =>
          rw [lower_inputRef, lower_inputRef]
          have columnsAlike := column_alike (agree.columns index type (.refl _) _ numbered)
          exact columnsAlike.bind fun name => .refl _
  | fieldAccess parent field type =>
      cases related
      rw [lower_fieldAccess, lower_fieldAccess]
      exact .refl _
  | dynamicParam index type =>
      cases related
      exact .refl _
  | localRef index type =>
      cases related
      exact .refl _
  | correlVariable id type =>
      cases related
      exact .refl _
termination_by structural node

theorem lowerAll_alike (nodes renamed : List PlanExpr) :
    List.Forall₂ (Renamed column operator) nodes renamed →
      (∀ node ∈ nodes, Agree env other column operator node) →
      Alike (lowerAll env nodes) (lowerAll other renamed) := by
  intro related agree
  cases nodes with
  | nil =>
      cases related
      exact .refl _
  | cons node rest =>
      cases related with
      | cons first others =>
          rw [lowerAll_cons, lowerAll_cons]
          rw [List.forall_mem_cons] at agree
          have restAlike := lowerAll_alike rest _ others agree.2
          exact (lower_alike node _ first agree.1).bind fun _ => restAlike.bind fun _ => .refl _
termination_by structural nodes

end

mutual

theorem Renamed.refl (sameColumn : ∀ index, column index index)
    (sameOperator : ∀ name, operator name name) (node : PlanExpr) :
    Renamed column operator node node := by
  cases node with
  | literal value type => exact .literal value type
  | call name operands type =>
      exact .call type (sameOperator name) (renamedAll_refl sameColumn sameOperator operands)
  | inputRef index type => exact .inputRef type (sameColumn index)
  | fieldAccess parent field type => exact .fieldAccess parent parent field type
  | dynamicParam index type => exact .dynamicParam index type
  | localRef index type => exact .localRef index type
  | correlVariable id type => exact .correlVariable id type
termination_by structural node

theorem renamedAll_refl (sameColumn : ∀ index, column index index)
    (sameOperator : ∀ name, operator name name) (nodes : List PlanExpr) :
    List.Forall₂ (Renamed column operator) nodes nodes := by
  cases nodes with
  | nil => exact .nil
  | cons node rest =>
      exact .cons (Renamed.refl sameColumn sameOperator node)
        (renamedAll_refl sameColumn sameOperator rest)
termination_by structural nodes

end

def RenamedBy (renumber : Nat → Nat) (rename : String → String) : PlanExpr → PlanExpr → Prop :=
  Renamed (fun index other => other = renumber index) fun name other => other = rename name

/-- The numbers of columns that are rearranged; there is no column beyond them to be rearranged. -/
def renumber {count : Nat} (order : Equiv.Perm (Fin count)) (index : Nat) : Nat :=
  if inside : index < count then order ⟨index, inside⟩ else index

def rearrange (columns : List String) (order : Equiv.Perm (Fin columns.length)) : List String :=
  List.ofFn fun position => columns[order.symm position]

theorem getElem?_rearrange (columns : List String) (order : Equiv.Perm (Fin columns.length))
    (index : Nat) : (rearrange columns order)[renumber order index]? = columns[index]? := by
  unfold rearrange renumber
  split
  next inside => simp [inside]
  next outside => simp [outside]

variable {node renamed : PlanExpr} {expr : EngineExpr}

theorem column_of_lower (lowered : lower env node = .ok expr) {index : Nat} {type : SqlType}
    (occurs : Occurs (.inputRef index type) node) : index < env.columns.length := by
  obtain ⟨path, found⟩ := occurs
  have counterparts := descend_lowered lowered path
  rw [found] at counterparts
  generalize descend EngineExpr.inputs path expr = target at counterparts
  cases counterparts with
  | some partLowered =>
      cases (lower_step partLowered).1 with
      | inputRef typed named => exact (List.getElem?_eq_some_iff.mp named).1

theorem lower_append_columns (lowered : lower env node = .ok expr) (more : List String) :
    lower ⟨env.columns ++ more, env.resolve⟩ node = .ok expr := by
  have agree : Agree env ⟨env.columns ++ more, env.resolve⟩ Eq Eq node := by
    constructor
    · rintro index type occurs _ rfl
      exact (List.getElem?_append_left (column_of_lower lowered occurs)).symm
    · rintro name operands type occurs _ rfl function
      exact Iff.rfl
  exact (lower_alike node node (.refl (fun _ => rfl) (fun _ => rfl) node) agree expr).mp lowered

theorem lower_rearrange (order : Equiv.Perm (Fin env.columns.length))
    (related : RenamedBy (renumber order) id node renamed) :
    Alike (lower env node) (lower ⟨rearrange env.columns order, env.resolve⟩ renamed) := by
  apply lower_alike node renamed related
  constructor
  · rintro index type occurs _ rfl
    exact (getElem?_rearrange env.columns order index).symm
  · rintro name operands type occurs _ rfl function
    exact Iff.rfl

theorem lower_insertAll (columns : List String) (table : OperatorTable)
    {added : List (String × String)} (unrelated : ∀ entry ∈ added, ∀ name operands type,
      Occurs (.call name operands type) node → ¬ SameButCase name entry.1) :
    Alike (lower ⟨columns, table.resolve⟩ node)
      (lower ⟨columns, (table.insertAll added).resolve⟩ node) := by
  have agree : Agree ⟨columns, table.resolve⟩ ⟨columns, (table.insertAll added).resolve⟩ Eq Eq
      node := by
    constructor
    · rintro index type occurs _ rfl
      rfl
    · rintro name operands type occurs _ rfl function
      have kept : (table.insertAll added).get? name = table.get? name :=
        OperatorTable.get?_insertAll fun entry member =>
          unrelated entry member name operands type occurs
      rw [OperatorTable.resolve_eq_ok_iff, OperatorTable.resolve_eq_ok_iff, kept]
  exact lower_alike node node (.refl (fun _ => rfl) (fun _ => rfl) node) agree

theorem lower_letterCase (columns : List String) (table : OperatorTable)
    (related : Renamed Eq SameButCase node renamed) :
    Alike (lower ⟨columns, table.resolve⟩ node) (lower ⟨columns, table.resolve⟩ renamed) := by
  apply lower_alike node renamed related
  constructor
  · rintro index type occurs _ rfl
    rfl
  · intro name operands type occurs other same function
    rw [OperatorTable.resolve_eq_ok_iff, OperatorTable.resolve_eq_ok_iff,
      OperatorTable.get?_congr same]

theorem lower_renaming_invariant (node renamed : PlanExpr) (env : Environment) (expr : EngineExpr) :
    (∀ (other : Environment) (renumber : Nat → Nat) (rename : String → String),
      (∀ index type, Occurs (.inputRef index type) node →
        env.columns[index]? = other.columns[renumber index]?) →
      (∀ name operands type, Occurs (.call name operands type) node → ∀ function,
        env.resolve name = .ok function ↔ other.resolve (rename name) = .ok function) →
      RenamedBy renumber rename node renamed →
      (node.lower env = .ok expr ↔ renamed.lower other = .ok expr)) ∧
    (∀ more, node.lower env = .ok expr →
      node.lower ⟨env.columns ++ more, env.resolve⟩ = .ok expr) ∧
    (∀ order : Equiv.Perm (Fin env.columns.length), RenamedBy (renumber order) id node renamed →
      (node.lower env = .ok expr ↔
        renamed.lower ⟨rearrange env.columns order, env.resolve⟩ = .ok expr)) ∧
    (∀ (table : OperatorTable) (added : List (String × String)),
      (∀ entry ∈ added, ∀ name operands type, Occurs (.call name operands type) node →
        ¬ SameButCase name entry.1) →
      (node.lower ⟨env.columns, table.resolve⟩ = .ok expr ↔
        node.lower ⟨env.columns, (table.insertAll added).resolve⟩ = .ok expr)) ∧
    ∀ table : OperatorTable, Renamed Eq SameButCase node renamed →
      (node.lower ⟨env.columns, table.resolve⟩ = .ok expr ↔
        renamed.lower ⟨env.columns, table.resolve⟩ = .ok expr) := by
  refine ⟨?_, fun more lowered => lower_append_columns lowered more,
    fun order related => lower_rearrange order related expr,
    fun table added unrelated => lower_insertAll env.columns table unrelated expr,
    fun table related => lower_letterCase env.columns table related expr⟩
  intro other renumber rename columns operators related
  apply lower_alike node renamed related
  constructor
  · rintro index type occurs _ rfl
    exact columns index type occurs
  · rintro name operands type occurs _ rfl
    exact operators name operands type occurs

def paidAndActive : PlanExpr :=
  .call "AND"
    [ .inputRef 1 .boolean,
      .fieldAccess (.inputRef 9 (.row [("active", .boolean)])) "active" .boolean ]
    .boolean

/-- What `paidAndActive` reads as under other function names, from other columns and another row. -/
def paidAndActiveRenamed : PlanExpr :=
  .call "fn_AND"
    [.inputRef 2 .boolean, .fieldAccess (.dynamicParam 0 .null) "active" .boolean]
    .boolean

/-- A column in front of the others, and functions that go by their own names. -/
theorem lower_renaming_invariant_paidAndActive :
    RenamedBy (· + 1) ("fn_" ++ ·) paidAndActive paidAndActiveRenamed ∧
    paidAndActive.lower ⟨["id", "paid"], fun name => .ok ("fn_" ++ name)⟩ =
      .ok (.call .boolean [.fieldAccess .boolean "paid", .fieldAccess .boolean "active"]
        "fn_AND") ∧
    paidAndActiveRenamed.lower ⟨["key", "id", "paid"], Except.ok⟩ =
      .ok (.call .boolean [.fieldAccess .boolean "paid", .fieldAccess .boolean "active"]
        "fn_AND") := by
  have related : RenamedBy (· + 1) ("fn_" ++ ·) paidAndActive paidAndActiveRenamed :=
    .call .boolean rfl (.cons (.inputRef .boolean rfl) (.cons (.fieldAccess _ _ _ _) .nil))
  have lowered : paidAndActive.lower ⟨["id", "paid"], fun name => .ok ("fn_" ++ name)⟩ =
      .ok (.call .boolean [.fieldAccess .boolean "paid", .fieldAccess .boolean "active"]
        "fn_AND") := rfl
  have invariant := (lower_renaming_invariant paidAndActive paidAndActiveRenamed
    ⟨["id", "paid"], fun name => .ok ("fn_" ++ name)⟩
    (.call .boolean [.fieldAccess .boolean "paid", .fieldAccess .boolean "active"] "fn_AND")).1
    ⟨["key", "id", "paid"], Except.ok⟩ (· + 1) ("fn_" ++ ·) (fun _ _ _ => rfl)
    (fun _ _ _ _ _ => Iff.rfl) related
  exact ⟨related, lowered, invariant.mp lowered⟩

end PlanExpr
end ScalarLowering
