/-
# `Report.Written` — reports as documents

Steps are numbered from zero in their order.  The solution and the optimal
value are members of the report of an optimum only, the message of every
other.
-/
import TwoPhase.Report
import TwoPhase.Json.Value

namespace TwoPhase

open Json (Value)

def Grid.document (g : Grid Float) : Value := .array (g.map fun row => .array (row.map .real))

def Step.document (number : Nat) (s : Step (Grid Float)) : Value :=
  let index := fun (i : Option Nat) => i.elim Value.null Value.natural
  .object [("step", .natural number), ("phase", .natural s.phase),
    ("tableau", Grid.document s.picture),
    ("pivotRowIndex", index (s.pivot.map (·.row))),
    ("pivotColIndex", index (s.pivot.map (·.column)))]

def stepsDocument (steps : List (Step (Grid Float))) : Value :=
  .array (steps.mapIdx Step.document)

/-- The objective in the lower right corner, where a step has numbers. -/
def Step.objective? (s : Step (Grid Float)) : Option Float := do (← s.picture.getLast?).getLast?

/-- The solution as a document: one member for each variable. -/
def Assignment.document (a : Assignment Float) : Value :=
  .object (a.map fun (i, v) => (Column.variableName i, .real v))

def Report.document (r : Report (Grid Float) Float) : Value :=
  .object <|
    [("status", .text r.status.name)] ++
    (r.solution?.map fun a => ("solutionValues", a.document)).toList ++
    (r.optimalValue?.map fun v => ("optimalValue", .real v)).toList ++
    [("pivotSteps", stepsDocument r.steps),
      ("finalTableau", Grid.document (r.final.getD []))] ++
    (r.message?.map fun m => ("message", .text m)).toList ++
    [("iterations", .natural r.pivots)]

end TwoPhase
