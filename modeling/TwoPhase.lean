import TwoPhase.Scalar
import TwoPhase.Constraint
import TwoPhase.Program
import TwoPhase.Program.Text
import TwoPhase.Program.Written
import TwoPhase.Program.Read
import TwoPhase.Column
import TwoPhase.Tableau.Basic
import TwoPhase.Tableau.Choice
import TwoPhase.Tableau.Pivot
import TwoPhase.Tableau.Walk
import TwoPhase.Tableau.Text
import TwoPhase.StandardForm
import TwoPhase.Report
import TwoPhase.Report.Text
import TwoPhase.Report.Written
import TwoPhase.Event
import TwoPhase.Solve
import TwoPhase.Decimal.Binary
import TwoPhase.Decimal.Shortest
import TwoPhase.Decimal.Notation
import TwoPhase.Decimal.Reading
import TwoPhase.Text.Combining
import TwoPhase.Text.Unprinted
import TwoPhase.Text.Weightless
import TwoPhase.Text.Emoji
import TwoPhase.Text.Ligature
import TwoPhase.Text.Wide
import TwoPhase.Text.Width
import TwoPhase.Text.Style
import TwoPhase.Text.Table
import TwoPhase.Json.Value
import TwoPhase.Json.Number
import TwoPhase.Json.Token
import TwoPhase.Json.Document
import TwoPhase.Json.Refusal
import TwoPhase.Json.Record
import TwoPhase.CommandLine
import TwoPhase.Main
import TwoPhase.Proofs.Exact
import TwoPhase.Proofs.Row
import TwoPhase.Proofs.Choice
import TwoPhase.Proofs.Selection
import TwoPhase.Proofs.Shape
import TwoPhase.Proofs.Stage
import TwoPhase.Proofs.Course
import TwoPhase.Proofs.Replay
import TwoPhase.Proofs.Equations
import TwoPhase.Proofs.Layout
import TwoPhase.Proofs.Basis
import TwoPhase.Proofs.BasicPoint
import TwoPhase.Proofs.Aim
import TwoPhase.Proofs.Reduced
import TwoPhase.Proofs.Phases
import TwoPhase.Proofs.Ascent
import TwoPhase.Proofs.Solution
import TwoPhase.Proofs.Verdict
import TwoPhase.Proofs.Budget
import TwoPhase.Proofs.Completion
import TwoPhase.Proofs.Forms
import TwoPhase.Proofs.Pivots
import TwoPhase.Proofs.Pricing
import TwoPhase.Proofs.Minors
import TwoPhase.Proofs.Integral
import TwoPhase.Proofs.Coarse
import TwoPhase.Proofs.Clear
import TwoPhase.Proofs.Accounting
import TwoPhase.Proofs.Cycling
import TwoPhase.Proofs.Places
import TwoPhase.Proofs.Dual
import TwoPhase.Proofs.Outcome
import TwoPhase.Proofs.Sweep
import TwoPhase.Proofs.Rank
import TwoPhase.Proofs.Double
import TwoPhase.Proofs.Unlogged
import TwoPhase.Proofs.Signs
import TwoPhase.Proofs.Tokens
import TwoPhase.Proofs.Documents
import TwoPhase.Proofs.Compact
import TwoPhase.Proofs.RoundTrip
import TwoPhase.Proofs.Start
import TwoPhase.Proofs.Projection
import TwoPhase.Proofs.Grammar
import TwoPhase.Proofs.Presentation
import TwoPhase.Proofs.Display
import TwoPhase.Proofs.Readout
