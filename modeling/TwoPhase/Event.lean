/-
# `Event` — what the solver says while it works

The solver notes each decision as an event.  An event is data; its wording
and its level are functions of it.  The wording of the tableau after a
pivot is left to whoever renders tableaux.
-/
import TwoPhase.Report

namespace TwoPhase

inductive Level where
  | error
  | warn
  | info
  | debug
  | trace
deriving DecidableEq, Repr

namespace Level

def name : Level → String
  | .error => "ERROR"
  | .warn => "WARN"
  | .info => "INFO"
  | .debug => "DEBUG"
  | .trace => "TRACE"

/-- Levels by decreasing urgency. -/
def rank : Level → Nat
  | .error => 1
  | .warn => 2
  | .info => 3
  | .debug => 4
  | .trace => 5

end Level

inductive Event (α : Type) where
  | started (numVars constraints : Nat)
  | rejected (objection : Objection)
  | rowNegated (index : Nat)
  | laidOut (rows columns artificial : Nat)
  | phaseOneStarted (artificial : Nat)
  | phaseOneInfeasible (residual : α)
  | pivoting (phase pivots : Nat) (enters leaves : Column) (cell : Cell)
  | pivoted (tableau : Tableau α)
  | phaseOptimal (phase pivots : Nat) (objective : α)
  | redundantRow (index : Nat)
  | phaseTwoStarted (rows columns : Nat)
  | optimal (pivots : Nat) (objective : α)
  | stopped (error : SolveError α)
deriving Repr

namespace Event

variable {α : Type}

def level : Event α → Level
  | .rowNegated .. | .laidOut .. | .pivoting .. | .phaseOptimal .. => .debug
  | .pivoted .. => .trace
  | .redundantRow .. => .warn
  | _ => .info

/-- The wording of an event, with `render` for a tableau. -/
def message [Numeral α] (render : Tableau α → String) : Event α → String
  | .started numVars constraints =>
      s!"solving {numVars} variables, {constraints} constraints"
  | .rejected o => s!"rejected problem: {(SolveError.invalid (α := α) o).message}"
  | .rowNegated index => s!"constraint {index + 1} has negative rhs, row negated"
  | .laidOut rows columns artificial =>
      s!"standard form: {rows} rows, {columns} columns, {artificial} artificial"
  | .phaseOneStarted artificial => s!"phase 1: {artificial} artificial variables"
  | .phaseOneInfeasible residual =>
      s!"phase 1 ended with artificial sum {Numeral.text residual}, infeasible"
  | .pivoting phase pivots enters leaves cell =>
      s!"phase {phase} pivot {pivots}: {enters.label} enters, {leaves.label} leaves " ++
        s!"(row {cell.row}, col {cell.column})"
  | .pivoted tableau => "\n" ++ render tableau
  | .phaseOptimal phase pivots objective =>
      s!"phase {phase} optimal after {pivots} pivots, objective {Numeral.text objective}"
  | .redundantRow index => s!"constraint row {index} is redundant, removing it"
  | .phaseTwoStarted rows columns => s!"phase 2: {rows} rows, {columns} columns"
  | .optimal pivots objective =>
      s!"optimal after {pivots} pivots, objective {Numeral.text objective}"
  | .stopped error => s!"solve stopped: {error.message}"

end Event

end TwoPhase
