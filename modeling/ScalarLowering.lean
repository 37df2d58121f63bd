import ScalarLowering.Binary64.Basic
import ScalarLowering.Binary64.Nearest
import ScalarLowering.Binary64.Text
import ScalarLowering.CommandLine.Options
import ScalarLowering.CommandLine.Report
import ScalarLowering.CommandLine.Samples
import ScalarLowering.Decimal.Basic
import ScalarLowering.Decimal.Text
import ScalarLowering.Engine.Datum
import ScalarLowering.Engine.EngineExpr
import ScalarLowering.Engine.EngineType
import ScalarLowering.Engine.Outline
import ScalarLowering.Lowering.Constants
import ScalarLowering.Lowering.Log
import ScalarLowering.Lowering.Refusal
import ScalarLowering.Lowering.Trees
import ScalarLowering.Lowering.Typing
import ScalarLowering.Main
import ScalarLowering.Operators.Table
import ScalarLowering.Planner.Expr
import ScalarLowering.Planner.Literal
import ScalarLowering.Planner.Outline
import ScalarLowering.Planner.SqlType
import ScalarLowering.Proofs.Text.Utf8
import ScalarLowering.Proofs.Wire.Acceptance
import ScalarLowering.Proofs.Wire.Grammar
import ScalarLowering.Text.Hex
import ScalarLowering.Text.Numeral
import ScalarLowering.Text.Outline
import ScalarLowering.Text.Positional
import ScalarLowering.Text.Quoted
import ScalarLowering.Text.Utf8
import ScalarLowering.Text.Visible
import ScalarLowering.Wire.Fault
import ScalarLowering.Wire.Field
import ScalarLowering.Wire.Format
import ScalarLowering.Wire.Reader
import ScalarLowering.Word
import ScalarLowering.Proofs.Wire.Fields
import ScalarLowering.Proofs.Wire.Trees
import ScalarLowering.Proofs.Wire.Budget
import ScalarLowering.Proofs.Wire.RoundTrip
import ScalarLowering.Proofs.Lowering.Refusals
import ScalarLowering.Proofs.Wire.Exactness
import ScalarLowering.Proofs.Lowering.Positions
import ScalarLowering.Proofs.Wire.Limbs
import ScalarLowering.Proofs.Wire.Lengths
import ScalarLowering.Proofs.Wire.Reencoding
import ScalarLowering.Proofs.Lowering.Constants
import ScalarLowering.Proofs.Lowering.EngineTyping
import ScalarLowering.Proofs.Operators.LetterCase
import ScalarLowering.Proofs.Lowering.Renaming
import ScalarLowering.Proofs.Lowering.DecimalScale
import ScalarLowering.Proofs.Wire.Continuation
import ScalarLowering.Proofs.Wire.Layout
import ScalarLowering.Proofs.Wire.Truncation
import ScalarLowering.Proofs.Lowering.Contexts
import ScalarLowering.Proofs.Operators.History
import ScalarLowering.Proofs.Wire.Overwriting
import ScalarLowering.Proofs.CommandLine.Formats
import ScalarLowering.Proofs.Binary64.Rounding
import ScalarLowering.Proofs.Binary64.Text
import ScalarLowering.Proofs.Lowering.TextForms
import ScalarLowering.Proofs.Lowering.Traces
import ScalarLowering.Proofs.Decimal.Spelling
import ScalarLowering.Proofs.Binary64.Nearest
import ScalarLowering.Proofs.Binary64.Numbers
import ScalarLowering.Proofs.Lowering.NearestDoubles
import ScalarLowering.Proofs.Binary64.Shortest
import ScalarLowering.Proofs.Lowering.ApproximateIntegers
import ScalarLowering.Proofs.Decimal.Parsing
import ScalarLowering.Proofs.Lowering.ExactIntegers
import ScalarLowering.Proofs.Lowering.DecimalWidth
import ScalarLowering.Proofs.Lowering.TypeErasure
import ScalarLowering.Proofs.Lowering.DigitCounts
import ScalarLowering.Proofs.Lowering.Diagnostics
