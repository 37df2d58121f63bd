import Mathlib.Data.List.Forall2
import Mathlib.Logic.Equiv.Basic
import ScalarLowering.CommandLine.Samples
import ScalarLowering.Proofs.Lowering.Results

/-!
A lowered tree beside the tree it came from. The row of a field access is cut off, and what is left
has the shape of the lowered tree: every path of child numbers leads to a node in both trees or in
neither, and the two nodes are counterparts.
-/

namespace ScalarLowering

section Paths

variable {α : Type} (children : α → List α)

def descend : List Nat → α → Option α
  | [], root => some root
  | index :: path, root => (children root)[index]?.bind (descend path)

def Position (root : α) : Type := {path : List Nat // (descend children path root).isSome}

variable {children} {root : α}

def Position.path (position : Position children root) : List Nat := position.val

def Position.subtree (position : Position children root) : α :=
  (descend children position.val root).get position.property

theorem Position.descend_eq (position : Position children root) :
    descend children position.path root = some position.subtree :=
  (Option.some_get _).symm

/-- A path ends at the root or leads on from one of its children. -/
theorem exists_descend_iff {part : α} :
    (∃ path, descend children path root = some part) ↔
      part = root ∨ ∃ child ∈ children root, ∃ path, descend children path child = some part := by
  constructor
  · rintro ⟨path, found⟩
    cases path with
    | nil =>
        cases found
        exact .inl rfl
    | cons index path =>
        obtain ⟨child, present, found⟩ := Option.bind_eq_some_iff.mp found
        exact .inr ⟨child, List.mem_of_getElem? present, path, found⟩
  · rintro (rfl | ⟨child, member, path, found⟩)
    · exact ⟨[], rfl⟩
    · obtain ⟨index, present⟩ := List.mem_iff_getElem?.mp member
      exact ⟨index :: path, Option.bind_eq_some_iff.mpr ⟨child, present, found⟩⟩

theorem forall_position_iff (property : α → Prop) :
    (∀ position : Position children root, property position.subtree) ↔
      ∀ part, (∃ path, descend children path root = some part) → property part := by
  constructor
  · rintro all part ⟨path, found⟩
    let position : Position children root := ⟨path, Option.isSome_of_eq_some found⟩
    have same : part = position.subtree := Option.some.inj (found.symm.trans position.descend_eq)
    rw [same]
    exact all position
  · intro all position
    exact all _ ⟨position.path, position.descend_eq⟩

theorem forall_position_step (property : α → Prop) :
    (∀ position : Position children root, property position.subtree) ↔
      property root ∧ ∀ child ∈ children root, ∀ position : Position children child,
        property position.subtree := by
  rw [forall_position_iff property]
  constructor
  · intro all
    refine ⟨all root ⟨[], rfl⟩, fun child member => (forall_position_iff property).mpr fun part found => ?_⟩
    exact all part (exists_descend_iff.mpr (.inr ⟨child, member, found⟩))
  · rintro ⟨here, below⟩ part found
    rcases exists_descend_iff.mp found with rfl | ⟨child, member, found⟩
    · exact here
    · exact (forall_position_iff property).mp (below child member) part found

variable {β : Type} {relation : α → β → Prop}

theorem rel_getElem? {left : List α} {right : List β} (related : List.Forall₂ relation left right)
    (index : Nat) : Option.Rel relation left[index]? right[index]? := by
  induction related generalizing index with
  | nil => exact .none
  | cons first others induction =>
      cases index with
      | zero => exact .some first
      | succ index => exact induction index

theorem forall₂_of_map_eq {γ : Type} {f : α → γ} {g : β → γ} {left : List α} {right : List β}
    (same : left.map f = right.map g) :
    List.Forall₂ (fun first second => f first = g second) left right := by
  rwa [← List.forall₂_eq_eq_eq, List.forall₂_map_left_iff, List.forall₂_map_right_iff] at same

theorem rel_bind {γ δ : Type} {image : γ → δ → Prop} {left : Option α} {right : Option β}
    {next : α → Option γ} {after : β → Option δ} (related : Option.Rel relation left right)
    (continued : ∀ {first second}, relation first second → Option.Rel image (next first) (after second)) :
    Option.Rel image (left.bind next) (right.bind after) := by
  cases related with
  | some same => exact continued same
  | none => exact .none

theorem rel_imp {weaker : α → β → Prop} {left : Option α} {right : Option β}
    (implied : ∀ {first second}, relation first second → weaker first second)
    (related : Option.Rel relation left right) : Option.Rel weaker left right := by
  cases related with
  | some same => exact .some (implied same)
  | none => exact .none

/-- A relation that carries over to the children of related trees, one by one, carries over to whatever
a path leads to. -/
theorem descend_rel {others : β → List β}
    (step : ∀ {left right}, relation left right →
      List.Forall₂ relation (children left) (others right))
    {left : α} {right : β} (related : relation left right) (path : List Nat) :
    Option.Rel relation (descend children path left) (descend others path right) := by
  induction path generalizing left right with
  | nil => exact .some related
  | cons index path induction => exact rel_bind (rel_getElem? (step related) index) induction

end Paths

namespace EngineExpr

def inputs : EngineExpr → List EngineExpr
  | .call _ inputs _ => inputs
  | _ => []

mutual

def height : EngineExpr → Nat
  | .call _ inputs _ => 1 + heightOfAll inputs
  | _ => 1
termination_by structural expr => expr

def heightOfAll : List EngineExpr → Nat
  | [] => 0
  | expr :: rest => max (height expr) (heightOfAll rest)
termination_by structural exprs => exprs

end

theorem height_eq (expr : EngineExpr) : expr.height = 1 + heightOfAll expr.inputs := by
  cases expr with
  | constant | call | fieldAccess => rfl

end EngineExpr

namespace PlanExpr

/-- The children of a node that is cut off from the row it accesses. -/
def kept : PlanExpr → List PlanExpr
  | .call _ operands _ => operands
  | _ => []

mutual

/-- The number of levels of a tree that is cut off from the rows of its field accesses. -/
def keptDepth : PlanExpr → Nat
  | .call _ operands _ => 1 + keptDepthOfAll operands
  | _ => 1
termination_by structural node => node

def keptDepthOfAll : List PlanExpr → Nat
  | [] => 0
  | node :: rest => max (keptDepth node) (keptDepthOfAll rest)
termination_by structural nodes => nodes

end

theorem keptDepth_eq (node : PlanExpr) : node.keptDepth = 1 + keptDepthOfAll node.kept := by
  cases node <;> rfl

/-- What a node and its counterpart have in common, apart from their children. -/
inductive Counterpart (env : Environment) : PlanExpr → EngineExpr → Prop
  | literal {value : Literal} {type : SqlType} {engineType : EngineType} {datum : Datum}
      (typed : type.lower = .ok engineType) (stored : value.lower type = .ok datum) :
      Counterpart env (.literal value type) (.constant engineType datum none)
  | call {operator function : String} {operands : List PlanExpr} {inputs : List EngineExpr}
      {type : SqlType} {engineType : EngineType} (typed : type.lower = .ok engineType)
      (resolved : env.resolve operator = .ok function) :
      Counterpart env (.call operator operands type) (.call engineType inputs function)
  | inputRef {index : Nat} {name : String} {type : SqlType} {engineType : EngineType}
      (typed : type.lower = .ok engineType) (named : env.columns[index]? = some name) :
      Counterpart env (.inputRef index type) (.fieldAccess engineType name)
  | fieldAccess {parent : PlanExpr} {field : String} {type : SqlType} {engineType : EngineType}
      (typed : type.lower = .ok engineType) :
      Counterpart env (.fieldAccess parent field type) (.fieldAccess engineType field)

variable {env : Environment} {node : PlanExpr} {expr : EngineExpr} {nodes : List PlanExpr}
  {exprs : List EngineExpr}

theorem Counterpart.type_lower (counterpart : Counterpart env node expr) :
    node.type.lower = .ok expr.type := by
  cases counterpart with
  | literal typed stored => exact typed
  | call typed resolved => exact typed
  | inputRef typed named => exact typed
  | fieldAccess typed => exact typed

/-- One level of a lowering: the roots are counterparts, and the children of one are lowered to the
children of the other. -/
theorem lower_step (lowered : lower env node = .ok expr) :
    Counterpart env node expr ∧ lowerAll env node.kept = .ok expr.inputs := by
  cases node with
  | literal value type =>
      rw [lower_literal] at lowered
      obtain ⟨engineType, typed, lowered⟩ := bind_eq_ok.mp lowered
      obtain ⟨datum, stored, same⟩ := bind_eq_ok.mp lowered
      cases same
      exact ⟨.literal typed stored, lowerAll_nil⟩
  | call operator operands type =>
      rw [lower_call] at lowered
      obtain ⟨inputs, children, lowered⟩ := bind_eq_ok.mp lowered
      obtain ⟨engineType, typed, lowered⟩ := bind_eq_ok.mp lowered
      obtain ⟨function, resolved, same⟩ := bind_eq_ok.mp lowered
      cases same
      exact ⟨.call typed resolved, children⟩
  | inputRef index type =>
      rw [lower_inputRef] at lowered
      obtain ⟨name, found, lowered⟩ := bind_eq_ok.mp lowered
      obtain ⟨engineType, typed, same⟩ := bind_eq_ok.mp lowered
      cases same
      exact ⟨.inputRef typed (Environment.column_eq_ok_iff.mp found), lowerAll_nil⟩
  | fieldAccess parent field type =>
      rw [lower_fieldAccess] at lowered
      obtain ⟨engineType, typed, same⟩ := bind_eq_ok.mp lowered
      cases same
      exact ⟨.fieldAccess typed, lowerAll_nil⟩
  | dynamicParam index type => contradiction
  | localRef index type => contradiction
  | correlVariable id type => contradiction

theorem kept_lowered (lowered : lower env node = .ok expr) :
    List.Forall₂ (fun node expr => lower env node = .ok expr) node.kept expr.inputs :=
  forall₂_of_map_eq (lowerAll_eq_ok_iff.mp (lower_step lowered).2)

theorem descend_lowered (lowered : lower env node = .ok expr) (path : List Nat) :
    Option.Rel (fun node expr => lower env node = .ok expr)
      (descend kept path node) (descend EngineExpr.inputs path expr) :=
  descend_rel kept_lowered lowered path

theorem isSome_iff_of_rel {α β : Type} {relation : α → β → Prop} {left : Option α}
    {right : Option β} (related : Option.Rel relation left right) : left.isSome ↔ right.isSome := by
  cases related with
  | some _ => exact Iff.rfl
  | none => exact Iff.rfl

def matched (lowered : lower env node = .ok expr) :
    Position kept node ≃ Position EngineExpr.inputs expr :=
  Equiv.subtypeEquivRight fun path => isSome_iff_of_rel (descend_lowered lowered path)

theorem lower_subtree (lowered : lower env node = .ok expr) (position : Position kept node) :
    lower env position.subtree = .ok (matched lowered position).subtree := by
  have related := descend_lowered lowered position.path
  have right : descend EngineExpr.inputs position.path expr =
      some (matched lowered position).subtree := (matched lowered position).descend_eq
  rw [position.descend_eq, right] at related
  cases related with
  | some same => exact same

mutual

theorem height_of_lower (node : PlanExpr) (expr : EngineExpr) :
    lower env node = .ok expr → expr.height = node.keptDepth := by
  cases node with
  | call operator operands type =>
      intro lowered
      have children : lowerAll env operands = .ok expr.inputs := (lower_step lowered).2
      rw [EngineExpr.height_eq, keptDepth_eq, heightOfAll_of_lowerAll operands expr.inputs children]
      rfl
  | literal | inputRef | fieldAccess | dynamicParam | localRef | correlVariable =>
      intro lowered
      -- These nodes keep no children, so their counterparts have none.
      have leaf : [] = expr.inputs := Except.ok.inj (lower_step lowered).2
      rw [EngineExpr.height_eq, keptDepth_eq, ← leaf]
      rfl
termination_by structural node

theorem heightOfAll_of_lowerAll (nodes : List PlanExpr) (exprs : List EngineExpr) :
    lowerAll env nodes = .ok exprs → EngineExpr.heightOfAll exprs = keptDepthOfAll nodes := by
  cases nodes with
  | nil =>
      intro lowered
      cases lowered
      rfl
  | cons node rest =>
      intro lowered
      rw [lowerAll_cons] at lowered
      obtain ⟨first, firstLowered, lowered⟩ := bind_eq_ok.mp lowered
      obtain ⟨others, othersLowered, same⟩ := bind_eq_ok.mp lowered
      cases same
      rw [EngineExpr.heightOfAll, keptDepthOfAll, height_of_lower node first firstLowered,
        heightOfAll_of_lowerAll rest others othersLowered]
termination_by structural nodes

end

mutual

theorem keptDepth_le_depth (node : PlanExpr) : node.keptDepth ≤ node.depth := by
  cases node with
  | call operator operands type =>
      have operandsBound := keptDepthOfAll_le_depthOfAll operands
      rw [keptDepth, depth]
      omega
  | fieldAccess parent field type =>
      rw [keptDepth, depth]
      · omega
      · simp
  | literal | inputRef | dynamicParam | localRef | correlVariable => exact Nat.le_refl 1
termination_by structural node

theorem keptDepthOfAll_le_depthOfAll (nodes : List PlanExpr) :
    keptDepthOfAll nodes ≤ depthOfAll nodes := by
  cases nodes with
  | nil => exact Nat.le_refl 0
  | cons node rest =>
      have firstBound := keptDepth_le_depth node
      have restBound := keptDepthOfAll_le_depthOfAll rest
      rw [keptDepthOfAll, depthOfAll]
      omega
termination_by structural nodes

end

theorem lower_isomorphic (lowered : node.lower env = .ok expr) :
    (∃ onto : Position kept node ≃ Position EngineExpr.inputs expr, ∀ position,
      (onto position).path = position.path ∧
      position.subtree.kept.length = (onto position).subtree.inputs.length ∧
      Counterpart env position.subtree (onto position).subtree ∧
      position.subtree.type.lower = .ok (onto position).subtree.type) ∧
    expr.height = node.keptDepth ∧ expr.height ≤ node.depth := by
  have height := height_of_lower node expr lowered
  refine ⟨⟨matched lowered, ?_⟩, height, height ▸ keptDepth_le_depth node⟩
  intro position
  have step := lower_step (lower_subtree lowered position)
  exact ⟨rfl, length_of_lowerAll step.2, step.1, step.1.type_lower⟩

def inRome : PlanExpr :=
  .call "=" [CommandLine.city, .literal (.text "Rome") (.varChar none)] .boolean

theorem lower_isomorphic_inRome :
    ∃ expr, inRome.lower ⟨[], OperatorTable.standard.resolve⟩ = .ok expr ∧
      (∃ onto : Position kept inRome ≃ Position EngineExpr.inputs expr, ∀ position,
        (onto position).path = position.path ∧
        Counterpart ⟨[], OperatorTable.standard.resolve⟩ position.subtree
          (onto position).subtree) ∧
      expr.height = 2 ∧ inRome.depth = 3 := by
  have lowered : inRome.lower ⟨[], OperatorTable.standard.resolve⟩ =
      .ok (.call .boolean [.fieldAccess .varChar "city", .constant .varChar (.varChar "Rome") none]
        "equalto") := rfl
  obtain ⟨⟨onto, counterparts⟩, height, _⟩ := lower_isomorphic lowered
  refine ⟨_, lowered, ⟨onto, ?_⟩, height, rfl⟩
  intro position
  obtain ⟨path, _, counterpart, _⟩ := counterparts position
  exact ⟨path, counterpart⟩

end PlanExpr
end ScalarLowering
