import ScalarLowering.CommandLine.Log
import ScalarLowering.CommandLine.Options
import ScalarLowering.CommandLine.Samples
import ScalarLowering.Engine.Outline
import ScalarLowering.Lowering.Trees
import ScalarLowering.Planner.Outline
import ScalarLowering.Text.Hex
import ScalarLowering.Wire.Format

/-!
What the program prints. The samples are lowered over the given columns with the standard operators,
all or none, and each of them is printed in the asked format. The log is kept apart from this: it goes
to the error output as well, ahead of the errors.
-/

namespace ScalarLowering.CommandLine

/-- The exit code and the texts for the two outputs. The code is zero for success, one for a refusal and
two for a wrong argument. -/
structure Report where
  code : UInt8
  output : String
  errors : String

structure Outcome extends Report where
  log : List Record

def record (format : Format) (node : PlanExpr) (expr : EngineExpr) : String :=
  match format with
  | .text => expr.text ++ " : " ++ expr.type.text ++ "\n"
  | .outline =>
      "// " ++ node.kind.name ++ " of " ++ node.type.outline.compact ++ ", constants [" ++
        ", ".intercalate (expr.constants.map Datum.tag) ++ "]\n" ++ expr.outline.indented 0 ++ "\n"
  | .bytes => String.ofList (Hex.ofBytes expr.toBytes) ++ "\n"

def records (format : Format) (exprs : List EngineExpr) : String :=
  String.join (List.zipWith (record format) samples exprs)

def lowerSamples (columns : List String) : Logged (List EngineExpr) :=
  PlanExpr.lowerAllAnnounced ⟨columns, OperatorTable.standard.resolve⟩ samples

def report (format : Format) : Except Refusal (List EngineExpr) → Report
  | .ok exprs => ⟨0, records format exprs, ""⟩
  | .error refusal =>
      ⟨1, "", "Error: Failed to lower expressions\n\nCaused by:\n    " ++ refusal.message ++ "\n"⟩

def run (options : Options) : Outcome where
  toReport := report options.format (lowerSamples options.columns).result
  log :=
    (.announcement options.columns OperatorTable.standard.size ::
      (lowerSamples options.columns).records.map .lowering).filter (·.isShown options.debug)

def versionLine : String := "rexlower 0.1.0\n"

def usageLine : String :=
  "usage: [--columns NAMES] [--format text|debug|bincode] [--debug] [--help] [--version]\n"

def Stop.report : Stop → Report
  | .help => ⟨0, usageLine, ""⟩
  | .version => ⟨0, versionLine, ""⟩
  | .usage => ⟨2, "", usageLine⟩

/-- Wrong arguments and questions end a run before anything is logged. -/
def outcome (arguments : List String) : Outcome :=
  match parse arguments with
  | .ok options => run options
  | .error stop => ⟨stop.report, []⟩

end ScalarLowering.CommandLine
