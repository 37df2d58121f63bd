import ScalarLowering.CommandLine.Report

/-!
The command line program: prints the log and the report of its arguments. A line of the log has no time
and no origin.
-/

def main (arguments : List String) : IO UInt32 := do
  let outcome := ScalarLowering.CommandLine.outcome arguments
  outcome.log.forM fun record => IO.eprintln record.line
  IO.print outcome.output
  IO.eprint outcome.errors
  return outcome.code.toUInt32
