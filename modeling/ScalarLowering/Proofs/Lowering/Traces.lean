import Mathlib.Data.List.Forall2
import Mathlib.Data.List.TakeWhile
import ScalarLowering.Proofs.Lowering.Constants
import ScalarLowering.Proofs.Lowering.Refusals

/-!
What a lowering writes into the log. A tree is taken apart into the steps of its lowering, in their
order. Apart from its announcement the log tells of those decimals that the steps before the first
refused one have stored, each by one record; when nothing is refused these are the decimal constants
of the result.
-/

namespace ScalarLowering

/-- What lowering looks at, one thing at a time. -/
inductive Step where
  | typing (type : SqlType)
  | constant (value : Literal) (type : SqlType)
  | column (index : Nat)
  | function (operator : String)
  | node (kind : PlanExpr.Kind)

namespace Step

def refusals (env : Environment) : Step → List Refusal
  | .typing type => refusalsOf type.lower
  | .constant value type => refusalsOf (value.lower type)
  | .column index => refusalsOf (env.column index)
  | .function operator => refusalsOf (env.resolve operator)
  | .node kind => [.unsupportedNode kind]

def passes (env : Environment) (step : Step) : Bool := (step.refusals env).isEmpty

def decimal? : Step → Option Literal
  | .constant value (.decimal _ _) => some value
  | _ => none

/-- The literals that are stored as decimals before the first refusal. -/
def decimalsReached (env : Environment) (steps : List Step) : List Literal :=
  (steps.takeWhile (passes env)).filterMap decimal?

end Step

namespace PlanExpr

mutual

/-- The steps of lowering a tree, in their order. The row of a field access takes none. -/
def steps : PlanExpr → List Step
  | .literal value type => [.typing type, .constant value type]
  | .call operator operands type => stepsOfAll operands ++ [.typing type, .function operator]
  | .inputRef index type => [.column index, .typing type]
  | .fieldAccess _ _ type => [.typing type]
  | .dynamicParam _ _ => [.node .dynamicParam]
  | .localRef _ _ => [.node .localRef]
  | .correlVariable _ _ => [.node .correlVariable]
termination_by structural node => node

def stepsOfAll : List PlanExpr → List Step
  | [] => []
  | node :: rest => steps node ++ stepsOfAll rest
termination_by structural nodes => nodes

end

end PlanExpr

namespace EngineExpr

mutual

def decimalConstants : EngineExpr → List Datum
  | .constant (.decimal _ _) value _ => [value]
  | .constant _ _ _ => []
  | .call _ inputs _ => decimalConstantsOfAll inputs
  | .fieldAccess _ _ => []
termination_by structural expr => expr

def decimalConstantsOfAll : List EngineExpr → List Datum
  | [] => []
  | expr :: rest => decimalConstants expr ++ decimalConstantsOfAll rest
termination_by structural exprs => exprs

end

end EngineExpr

namespace Logged

variable {α : Type}

def traces (run : Logged α) : List LogRecord := run.records.filter (·.level = .trace)

end Logged

inductive Decimal.Tells (d : Decimal) : Datum → LogRecord → Prop
  | bigInt {value : Int64} (whole : value.toInt = d.unscaled) :
      Tells d (.bigInt value) (.decimalStored d .bigInt)
  | hugeInt : Tells d (.hugeInt d.unscaled) (.decimalStored d .hugeInt)

def Literal.ToldBy (value : Literal) (record : LogRecord) : Prop :=
  ∃ d datum, value.asDecimal = .ok d ∧ d.lower.result = .ok datum ∧ d.Tells datum record

/-- The record of a constant, whose message names the constant's form. -/
def Datum.ToldBy (datum : Datum) (record : LogRecord) : Prop :=
  ∃ d : Decimal, d.Tells datum record ∧
    record.message = "Decimal literal " ++ d.text ++ " (precision " ++
      Numeral.text d.precision.toNat ++ ") stored as " ++ datum.tag

section Decimals

variable {d : Decimal} {datum : Datum} {record other : LogRecord} {value : Literal}

theorem Decimal.Tells.level (tells : d.Tells datum record) : record.level = .trace := by
  cases tells with
  | bigInt => rfl
  | hugeInt => rfl

theorem Decimal.Tells.toldBy (tells : d.Tells datum record) : datum.ToldBy record := by
  refine ⟨d, tells, ?_⟩
  cases tells with
  | bigInt => rfl
  | hugeInt => rfl

theorem Literal.ToldBy.unique (told : value.ToldBy record) (again : value.ToldBy other) :
    record = other := by
  obtain ⟨d, datum, read, stored, tells⟩ := told
  obtain ⟨same, constant, readAgain, storedAgain, tellsAgain⟩ := again
  cases read.symm.trans readAgain
  cases stored.symm.trans storedAgain
  cases tells with
  | bigInt => cases tellsAgain; rfl
  | hugeInt => cases tellsAgain; rfl

theorem Decimal.records_lower_of_ok (stored : d.lower.result = .ok datum) :
    ∃ record, d.lower.records = [record] ∧ d.Tells datum record := by
  unfold Decimal.lower at stored ⊢
  split at stored
  next narrow =>
    rw [if_pos narrow]
    cases fits : Word.int64? d.unscaled with
    | none =>
        rw [fits] at stored
        contradiction
    | some value =>
        rw [fits] at stored
        cases stored
        exact ⟨_, rfl, .bigInt (Word.int64?_eq_some_iff.mp fits)⟩
  next wide =>
    rw [if_neg wide]
    cases stored
    exact ⟨_, rfl, .hugeInt⟩

theorem Decimal.records_lower_of_error {refusal : Refusal}
    (refused : d.lower.result = .error refusal) : d.lower.records = [] := by
  unfold Decimal.lower at refused ⊢
  split at refused
  next narrow =>
    rw [if_pos narrow]
    cases fits : Word.int64? d.unscaled with
    | none => rfl
    | some value =>
        rw [fits] at refused
        contradiction
  next => contradiction

namespace Literal

theorem lowerAs_decimal (value : Literal) :
    value.lowerAs .decimal = Logged.ofExcept value.asDecimal >>= fun d => d.lower := rfl

theorem records_lowerAs_decimal (read : value.asDecimal = .ok d) :
    (value.lowerAs .decimal).records = d.lower.records := by
  have done : (Logged.ofExcept value.asDecimal).result = .ok d := read
  rw [lowerAs_decimal, Logged.records_bind_ok done, Logged.records_ofExcept, List.nil_append]

theorem records_lowerAs_decimal_of_ok (stored : (value.lowerAs .decimal).result = .ok datum) :
    ∃ record, (value.lowerAs .decimal).records = [record] ∧ value.ToldBy record ∧
      datum.ToldBy record := by
  rw [lowerAs_decimal, Logged.result_bind, Logged.result_ofExcept] at stored
  obtain ⟨d, read, stored⟩ := PlanExpr.bind_eq_ok.mp stored
  obtain ⟨record, written, tells⟩ := Decimal.records_lower_of_ok stored
  exact ⟨record, (records_lowerAs_decimal read).trans written, ⟨d, datum, read, stored, tells⟩,
    tells.toldBy⟩

theorem records_lowerAs_decimal_of_error {refusal : Refusal}
    (refused : (value.lowerAs .decimal).result = .error refusal) :
    (value.lowerAs .decimal).records = [] := by
  cases read : value.asDecimal with
  | error cause =>
      rw [lowerAs_decimal, read]
      rfl
  | ok d =>
      rw [lowerAs_decimal, read, Logged.result_bind] at refused
      exact (records_lowerAs_decimal read).trans (Decimal.records_lower_of_error refused)

theorem records_lowerAs_of_ne {tag : SqlType.Tag} (other : tag ≠ .decimal) :
    (value.lowerAs tag).records = [] := by
  cases tag with
  | decimal => contradiction
  | _ => rfl

end Literal

end Decimals

namespace Step

variable {env : Environment} {earlier later : List Step}

theorem passes_of_flatMap_eq_nil (passed : earlier.flatMap (refusals env) = []) :
    ∀ step ∈ earlier, step.passes env := by
  intro step member
  rw [passes, List.flatMap_eq_nil_iff.mp passed step member]
  rfl

theorem decimalsReached_of_passed (passed : earlier.flatMap (refusals env) = []) :
    decimalsReached env (earlier ++ later) =
      earlier.filterMap decimal? ++ decimalsReached env later := by
  rw [decimalsReached, List.takeWhile_append_of_pos (passes_of_flatMap_eq_nil passed),
    List.filterMap_append]
  rfl

theorem decimalsReached_eq_filterMap (passed : earlier.flatMap (refusals env) = []) :
    decimalsReached env earlier = earlier.filterMap decimal? := by
  rw [← List.append_nil earlier, decimalsReached_of_passed passed, List.filterMap_append]
  rfl

theorem decimalsReached_of_refused (refused : earlier.flatMap (refusals env) ≠ []) :
    decimalsReached env (earlier ++ later) = decimalsReached env earlier := by
  have stops : (earlier.takeWhile (passes env)).length ≠ earlier.length := by
    intro whole
    apply refused
    have front : earlier.takeWhile (passes env) <+: earlier := List.takeWhile_prefix _
    have all := front.eq_of_length whole
    rw [List.flatMap_eq_nil_iff]
    intro step member
    exact List.isEmpty_iff.mp (List.takeWhile_eq_self_iff.mp all step member)
  rw [decimalsReached, decimalsReached, List.takeWhile_append, if_neg stops]

end Step

/-- A run comes to what its steps come to, and tells of the decimals that they reach. -/
structure Follows {α : Type} (env : Environment) (run : Logged α) (steps : List Step) : Prop where
  headed : HeadedBy run.result (steps.flatMap (Step.refusals env))
  told : List.Forall₂ Literal.ToldBy (Step.decimalsReached env steps) run.records

namespace Follows

variable {α β : Type} {env : Environment} {earlier later : List Step}

theorem done (value : α) : Follows env (pure value) [] := ⟨HeadedBy.ok value, .nil⟩

theorem bind {first : Logged α} {next : α → Logged β} (begun : Follows env first earlier)
    (continued : ∀ value, Follows env (next value) later) :
    Follows env (first >>= next) (earlier ++ later) where
  headed := by
    rw [Logged.result_bind, List.flatMap_append]
    exact begun.headed.bind fun value => (continued value).headed
  told := by
    cases finished : first.result with
    | ok value =>
        have passed := begun.headed.ok_iff.mp ⟨value, finished⟩
        rw [Logged.records_bind_ok finished, Step.decimalsReached_of_passed passed,
          ← Step.decimalsReached_eq_filterMap passed]
        exact List.rel_append begun.told (continued value).told
    | error refusal =>
        have refused : earlier.flatMap (Step.refusals env) ≠ [] := by
          intro passed
          obtain ⟨value, same⟩ := begun.headed.ok_iff.mpr passed
          rw [finished] at same
          contradiction
        rw [Logged.records_bind_error finished, Step.decimalsReached_of_refused refused]
        exact begun.told

theorem last {run : Logged α} {f : α → β} (followed : Follows env run earlier) :
    Follows env (run >>= fun value => pure (f value)) earlier := by
  have both := followed.bind fun value => done (f value)
  rwa [List.append_nil] at both

theorem silent (result : Except Refusal α) {step : Step}
    (checked : step.refusals env = refusalsOf result) (plain : step.decimal? = none) :
    Follows env (.ofExcept result) [step] where
  headed := by
    rw [List.flatMap_singleton, checked]
    exact HeadedBy.single result
  told := by
    have none : Step.decimalsReached env [step] = [] := by
      rw [Step.decimalsReached, List.filterMap_eq_nil_iff]
      intro found member
      have reached := List.takeWhile_subset (Step.passes env) member
      rw [List.mem_singleton.mp reached]
      exact plain
    rw [none]
    exact .nil

theorem constant (value : Literal) (type : SqlType) :
    Follows env (value.lowerAs type.tag) [.constant value type] where
  headed := by
    rw [List.flatMap_singleton]
    exact HeadedBy.single _
  told := by
    cases stored : (value.lowerAs type.tag).result with
    | error refusal =>
        have stops : Step.passes env (.constant value type) = false := by
          rw [Step.passes, Step.refusals, Literal.lower, stored]
          rfl
        have silent : (value.lowerAs type.tag).records = [] := by
          by_cases decimal : type.tag = .decimal
          · rw [decimal] at stored ⊢
            exact Literal.records_lowerAs_decimal_of_error stored
          · exact Literal.records_lowerAs_of_ne decimal
        rw [Step.decimalsReached, List.takeWhile_cons_of_neg (by simp [stops]), silent]
        exact .nil
    | ok datum =>
        have passes : Step.passes env (.constant value type) = true := by
          rw [Step.passes, Step.refusals, Literal.lower, stored]
          rfl
        rw [Step.decimalsReached, List.takeWhile_cons_of_pos passes]
        cases type with
        | decimal precision scale =>
            obtain ⟨record, written, told, _⟩ := Literal.records_lowerAs_decimal_of_ok stored
            change List.Forall₂ Literal.ToldBy [value] (value.lowerAs .decimal).records
            rw [written]
            exact .cons told .nil
        | _ => exact .nil

end Follows

namespace PlanExpr

variable {env : Environment}

mutual

theorem lowerLogged_follows (node : PlanExpr) :
    Follows env (lowerLogged env node) node.steps := by
  cases node with
  | literal value type =>
      rw [lowerLogged, steps]
      exact (Follows.silent type.lower rfl rfl).bind fun engineType =>
        (Follows.constant value type).last
  | call operator operands type =>
      rw [lowerLogged, steps]
      exact (lowerAllLogged_follows operands).bind fun inputs =>
        (Follows.silent type.lower rfl rfl).bind fun engineType =>
          (Follows.silent (env.resolve operator) rfl rfl).last
  | inputRef index type =>
      rw [lowerLogged, steps]
      exact (Follows.silent (env.column index) rfl rfl).bind fun name =>
        (Follows.silent type.lower rfl rfl).last
  | fieldAccess parent field type =>
      rw [lowerLogged, steps]
      exact (Follows.silent type.lower rfl rfl).last
  | dynamicParam | localRef | correlVariable => exact Follows.silent _ rfl rfl
termination_by structural node

theorem lowerAllLogged_follows (nodes : List PlanExpr) :
    Follows env (lowerAllLogged env nodes) (stepsOfAll nodes) := by
  cases nodes with
  | nil => exact Follows.done []
  | cons node rest =>
      rw [lowerAllLogged, stepsOfAll]
      exact (lowerLogged_follows node).bind fun first => (lowerAllLogged_follows rest).last
termination_by structural nodes

end

theorem bind_answers {α β : Type} {first : Logged α} {next : α → Logged β} {answer : β}
    (answered : (first >>= next).result = .ok answer) :
    ∃ value, first.result = .ok value ∧ (next value).result = .ok answer ∧
      (first >>= next).records = first.records ++ (next value).records := by
  rw [Logged.result_bind] at answered
  obtain ⟨value, finished, answered⟩ := bind_eq_ok.mp answered
  exact ⟨value, finished, answered, Logged.records_bind_ok finished next⟩

theorem constant_told {value : Literal} {type : SqlType} {engineType : EngineType} {datum : Datum}
    (typed : type.lower = .ok engineType) (stored : (value.lowerAs type.tag).result = .ok datum) :
    List.Forall₂ Datum.ToldBy (EngineExpr.constant engineType datum none).decimalConstants
      (value.lowerAs type.tag).records := by
  cases type with
  | decimal precision scale =>
      cases typed
      obtain ⟨record, written, _, told⟩ := Literal.records_lowerAs_decimal_of_ok stored
      change List.Forall₂ Datum.ToldBy [datum] (value.lowerAs .decimal).records
      rw [written]
      exact .cons told .nil
  | row fields =>
      rw [Literal.lowerAs] at stored
      · contradiction
      all_goals nofun
  | boolean | integer | bigInt | varChar | timestamp =>
      cases typed
      exact .nil
  | _ => cases typed

mutual

/-- The records of a lowering that is not refused are those of the decimal constants. -/
theorem told_of_lowerLogged (node : PlanExpr) (expr : EngineExpr) :
    (lowerLogged env node).result = .ok expr →
      List.Forall₂ Datum.ToldBy expr.decimalConstants (lowerLogged env node).records := by
  cases node with
  | literal value type =>
      rw [lowerLogged]
      intro lowered
      obtain ⟨engineType, typed, lowered, written⟩ := bind_answers lowered
      obtain ⟨datum, stored, lowered, writtenBehind⟩ := bind_answers lowered
      cases lowered
      rw [written, writtenBehind, Logged.records_ofExcept, Logged.records_pure, List.nil_append,
        List.append_nil]
      exact constant_told typed stored
  | call operator operands type =>
      rw [lowerLogged]
      intro lowered
      obtain ⟨inputs, inputsLowered, lowered, written⟩ := bind_answers lowered
      obtain ⟨engineType, typed, lowered, writtenBehind⟩ := bind_answers lowered
      obtain ⟨function, resolved, lowered, writtenLast⟩ := bind_answers lowered
      cases lowered
      rw [written, writtenBehind, writtenLast, Logged.records_ofExcept, Logged.records_ofExcept,
        Logged.records_pure, List.nil_append, List.append_nil, List.append_nil]
      exact told_of_lowerAllLogged operands inputs inputsLowered
  | inputRef index type =>
      rw [lowerLogged]
      intro lowered
      obtain ⟨name, found, lowered, written⟩ := bind_answers lowered
      obtain ⟨engineType, typed, lowered, writtenBehind⟩ := bind_answers lowered
      cases lowered
      rw [written, writtenBehind]
      exact .nil
  | fieldAccess parent field type =>
      rw [lowerLogged]
      intro lowered
      obtain ⟨engineType, typed, lowered, written⟩ := bind_answers lowered
      cases lowered
      rw [written]
      exact .nil
  | dynamicParam | localRef | correlVariable => nofun
termination_by structural node

theorem told_of_lowerAllLogged (nodes : List PlanExpr) (exprs : List EngineExpr) :
    (lowerAllLogged env nodes).result = .ok exprs →
      List.Forall₂ Datum.ToldBy (EngineExpr.decimalConstantsOfAll exprs)
        (lowerAllLogged env nodes).records := by
  cases nodes with
  | nil =>
      intro lowered
      cases lowered
      exact .nil
  | cons node rest =>
      rw [lowerAllLogged]
      intro lowered
      obtain ⟨first, firstLowered, lowered, written⟩ := bind_answers lowered
      obtain ⟨others, othersLowered, lowered, writtenBehind⟩ := bind_answers lowered
      cases lowered
      rw [written, writtenBehind, Logged.records_pure, List.append_nil,
        EngineExpr.decimalConstantsOfAll]
      exact List.rel_append (told_of_lowerLogged node first firstLowered)
        (told_of_lowerAllLogged rest others othersLowered)
termination_by structural nodes

end

end PlanExpr

/-- A run that writes its announcement and then one record for each decimal it stores: for those that
its steps reach, and if it answers, for those in its answer. -/
structure Faithful {α : Type} (env : Environment) (announcement : LogRecord) (steps : List Step)
    (constants : α → List Datum) (run : Logged α) : Prop where
  announced : run.records = announcement :: run.traces ∧ announcement.level = .debug
  headed : HeadedBy run.result (steps.flatMap (Step.refusals env))
  reached : List.Forall₂ Literal.ToldBy (Step.decimalsReached env steps) run.traces
  stored : ∀ answer, run.result = .ok answer →
    List.Forall₂ Datum.ToldBy (constants answer) run.traces

theorem level_of_forall₂ {values : List Literal} {records : List LogRecord}
    (told : List.Forall₂ Literal.ToldBy values records) : ∀ record ∈ records, record.level = .trace := by
  induction told with
  | nil => simp
  | cons first _ induction =>
      obtain ⟨_, _, _, _, tells⟩ := first
      intro record member
      rcases List.mem_cons.mp member with rfl | member
      · exact tells.level
      · exact induction record member

theorem Follows.faithful {α : Type} {env : Environment} {run : Logged α} {steps : List Step}
    {constants : α → List Datum} {announcement : LogRecord} (followed : Follows env run steps)
    (stored : ∀ answer, run.result = .ok answer →
      List.Forall₂ Datum.ToldBy (constants answer) run.records)
    (debug : announcement.level = .debug) :
    Faithful env announcement steps constants (Logged.write announcement >>= fun _ => run) := by
  have records : (Logged.write announcement >>= fun _ => run).records =
      announcement :: run.records := Logged.records_bind_ok rfl _
  have result : (Logged.write announcement >>= fun _ => run).result = run.result := by
    rw [Logged.result_bind]
    rfl
  have traces : (Logged.write announcement >>= fun _ => run).traces = run.records := by
    rw [Logged.traces, records, List.filter_cons_of_neg (by simp [debug]), List.filter_eq_self]
    intro record member
    exact decide_eq_true (level_of_forall₂ followed.told record member)
  refine ⟨⟨?_, debug⟩, ?_, ?_, ?_⟩
  · rw [traces, records]
  · rw [result]
    exact followed.headed
  · rw [traces]
    exact followed.told
  · rw [traces, result]
    exact stored

theorem isPrefix_of_forall₂ {values others : List Literal} {records rest : List LogRecord}
    (fewer : values <+: others) (told : List.Forall₂ Literal.ToldBy values records)
    (toldAll : List.Forall₂ Literal.ToldBy others rest) : records <+: rest := by
  obtain ⟨later, rfl⟩ := fewer
  have toldFirst := List.forall₂_take values.length toldAll
  rw [List.take_left] at toldFirst
  have unique : Relator.RightUnique Literal.ToldBy := fun _ _ _ => Literal.ToldBy.unique
  rw [unique.forall₂ told toldFirst]
  exact List.take_prefix _ rest

/-- Where one environment refuses nothing, another one reaches no other decimals. -/
theorem Faithful.traces_isPrefix {α : Type} {env other : Environment} {announcement another : LogRecord}
    {steps : List Step} {constants : α → List Datum} {run rival : Logged α} {answer : α}
    (faithful : Faithful env announcement steps constants run)
    (rivalFaithful : Faithful other another steps constants rival)
    (answered : run.result = .ok answer) : rival.traces <+: run.traces := by
  have passed := faithful.headed.ok_iff.mp ⟨answer, answered⟩
  have reached := faithful.reached
  rw [Step.decimalsReached_eq_filterMap passed] at reached
  have front : steps.takeWhile (Step.passes other) <+: steps := List.takeWhile_prefix _
  exact isPrefix_of_forall₂ (front.filterMap Step.decimal?) rivalFaithful.reached reached

namespace PlanExpr

theorem lowerAnnounced_faithful (env : Environment) (node : PlanExpr) :
    Faithful env (.loweringExpr node.kind node.depth env.columns.length) node.steps
      EngineExpr.decimalConstants (lowerAnnounced env node) :=
  (lowerLogged_follows node).faithful (told_of_lowerLogged node) rfl

theorem lowerAllAnnounced_faithful (env : Environment) (nodes : List PlanExpr) :
    Faithful env (.loweringExprs nodes.length env.columns.length) (stepsOfAll nodes)
      EngineExpr.decimalConstantsOfAll (lowerAllAnnounced env nodes) :=
  (lowerAllLogged_follows nodes).faithful (told_of_lowerAllLogged nodes) rfl

/-- The log tells of the decimals that have been stored, and of nothing else. A lowering that is
refused in one environment tells of the first of those that it tells of in another. -/
theorem traces_of_lowering (env other : Environment) (node : PlanExpr) (nodes : List PlanExpr) :
    Faithful env (.loweringExpr node.kind node.depth env.columns.length) node.steps
      EngineExpr.decimalConstants (lowerAnnounced env node) ∧
    Faithful env (.loweringExprs nodes.length env.columns.length) (stepsOfAll nodes)
      EngineExpr.decimalConstantsOfAll (lowerAllAnnounced env nodes) ∧
    (∀ expr, (lowerAnnounced env node).result = .ok expr →
      (lowerAnnounced other node).traces <+: (lowerAnnounced env node).traces) ∧
    ∀ exprs, (lowerAllAnnounced env nodes).result = .ok exprs →
      (lowerAllAnnounced other nodes).traces <+: (lowerAllAnnounced env nodes).traces := by
  have tree := lowerAnnounced_faithful env node
  have trees := lowerAllAnnounced_faithful env nodes
  exact ⟨tree, trees, fun _ => tree.traces_isPrefix (lowerAnnounced_faithful other node),
    fun _ => trees.traces_isPrefix (lowerAllAnnounced_faithful other nodes)⟩

def aroundColumn : List PlanExpr :=
  [ .literal (.text "1.5") (.decimal 10 2), .inputRef 0 .integer,
    .literal (.decimal ⟨-12345678901234567890, 20, 1⟩) (.decimal 20 1) ]

/-- Without the column the wide decimal is not reached. -/
theorem traces_of_lowering_aroundColumn :
    (lowerAllAnnounced ⟨["id"], Except.ok⟩ aroundColumn).result =
        .ok [ .constant (.decimal 10 2) (.bigInt 15) none, .fieldAccess .integer "id",
          .constant (.decimal 20 1) (.hugeInt (-12345678901234567890)) none ] ∧
      (lowerAllAnnounced ⟨[], Except.ok⟩ aroundColumn).traces.map LogRecord.message =
        ["Decimal literal 1.5 (precision 2) stored as BIGINT"] ∧
      (lowerAllAnnounced ⟨[], Except.ok⟩ aroundColumn).traces <+:
        (lowerAllAnnounced ⟨["id"], Except.ok⟩ aroundColumn).traces := by
  have lowered : (lowerAllAnnounced ⟨["id"], Except.ok⟩ aroundColumn).result =
      .ok [ .constant (.decimal 10 2) (.bigInt 15) none, .fieldAccess .integer "id",
        .constant (.decimal 20 1) (.hugeInt (-12345678901234567890)) none ] := rfl
  have told := (traces_of_lowering ⟨["id"], Except.ok⟩ ⟨[], Except.ok⟩ (.inputRef 0 .integer)
    aroundColumn).2.2.2
  exact ⟨lowered, by decide, told _ lowered⟩

end PlanExpr
end ScalarLowering
