/-
# `Report` — what a solve hands back

A solve ends in an optimum or stops with an error.  Either way the report
holds the steps taken, each with the tableau it was decided on, the final
tableau and the number of pivots.  A step carries no number: its place among
the steps is its number, and is what a written report shows.  A report does
not fix how tableaux are pictured: the solver keeps them whole, a written
report shows bare numbers.
-/
import TwoPhase.Program
import TwoPhase.Tableau.Basic

namespace TwoPhase

/-- Why a solve stopped without an optimum. -/
inductive SolveError (α : Type) where
  | invalid (objection : Objection)
  | infeasible (residual : α)
  | unbounded (column : Nat)
  | iterationLimit (pivots : Nat)
deriving Repr

/-- How a solve ended, in one word. -/
inductive Status where
  | optimal
  | infeasible
  | unbounded
  | error
deriving DecidableEq, Repr

def Status.name : Status → String
  | .optimal => "optimal"
  | .infeasible => "infeasible"
  | .unbounded => "unbounded"
  | .error => "error"

/-- Numbers that have a text of their own. -/
class Numeral (α : Type) where
  /-- The text of a number in running text. -/
  text : α → String

namespace SolveError

variable {α : Type}

def status : SolveError α → Status
  | .infeasible _ => .infeasible
  | .unbounded _ => .unbounded
  | .invalid _ => .error
  | .iterationLimit _ => .error

def message [Numeral α] : SolveError α → String
  | .invalid o => s!"invalid problem: {o.message}"
  | .infeasible residual => s!"problem is infeasible (artificial sum {Numeral.text residual})"
  | .unbounded column =>
      s!"problem is unbounded (column {column} can grow without limit)"
  | .iterationLimit pivots => s!"iteration limit exceeded after {pivots} pivots"

end SolveError

/-- One decision of the solver: the tableau as it was then, and the cell it was
about to pivot on, or none where the tableau was found optimal or unbounded. -/
structure Step (π : Type) where
  phase : Nat
  picture : π
  pivot : Option Cell
deriving Repr

/-- Values of decision variables, each variable once and in ascending order. -/
abbrev Assignment (α : Type) := List (Nat × α)

namespace Assignment

variable {α : Type}

/-- Gives a variable a value, in place of the one it may have. -/
def assign (i : Nat) (v : α) : Assignment α → Assignment α
  | [] => [(i, v)]
  | (k, w) :: rest =>
      if i < k then (i, v) :: (k, w) :: rest
      else if i = k then (i, v) :: rest
      else (k, w) :: assign i v rest

def values (a : Assignment α) : List α := a.map (·.2)

/-- The value of the variable with the given name. -/
def valueOf? (a : Assignment α) (name : String) : Option α :=
  (a.find? fun (i, _) => Column.variableName i == name).map (·.2)

end Assignment

inductive Outcome (α : Type) where
  | optimal (solution : Assignment α) (value : α)
  | stopped (error : SolveError α)
deriving Repr

/-- What a solve hands back.  There is no final tableau where the program was
refused. -/
structure Report (π α : Type) where
  outcome : Outcome α
  steps : List (Step π)
  final : Option π
  pivots : Nat
deriving Repr

namespace Report

variable {π ρ α : Type}

/-- The same report with its tableaux pictured otherwise. -/
def map (f : π → ρ) (r : Report π α) : Report ρ α where
  outcome := r.outcome
  steps := r.steps.map fun s => ⟨s.phase, f s.picture, s.pivot⟩
  final := r.final.map f
  pivots := r.pivots

def error? (r : Report π α) : Option (SolveError α) :=
  match r.outcome with
  | .optimal _ _ => none
  | .stopped e => some e

def status (r : Report π α) : Status :=
  match r.outcome with
  | .optimal _ _ => .optimal
  | .stopped e => e.status

def isOptimal (r : Report π α) : Bool := r.status = .optimal

def solution? (r : Report π α) : Option (Assignment α) :=
  match r.outcome with
  | .optimal solution _ => some solution
  | .stopped _ => none

def optimalValue? (r : Report π α) : Option α :=
  match r.outcome with
  | .optimal _ value => some value
  | .stopped _ => none

def message? [Numeral α] (r : Report π α) : Option String := r.error?.map (·.message)

/-- The values of the decision variables in order, none where there is no
optimum. -/
def values (r : Report π α) : List α := (r.solution?.map (·.values)).getD []

/-- The value of the variable with the given name. -/
def valueOf? (r : Report π α) (name : String) : Option α := do (← r.solution?).valueOf? name

/-- The report itself where it holds an optimum, and else the error. -/
def toExcept (r : Report π α) : Except (SolveError α) (Report π α) :=
  match r.error? with
  | some e => .error e
  | none => .ok r

def ofError (e : SolveError α) (steps : List (Step π)) (final : Option π) (pivots : Nat) :
    Report π α :=
  ⟨.stopped e, steps, final, pivots⟩

end Report

section

variable {α : Type} [Scalar α]

/-- The value of a column in the current basic solution, read off the first row
in which it is basic; a column that is not basic is at zero. -/
def Tableau.valueOfColumn (t : Tableau α) (j : Nat) : α :=
  match t.rows.find? (·.basic == j) with
  | some r => r.rhs
  | none => 0

/-- The values of the decision variables in the current basic solution. -/
def Tableau.solution (t : Tableau α) : Assignment α :=
  t.columns.zipIdx.foldl (fun a (c, j) =>
    match c with
    | .decision i => a.assign i (t.valueOfColumn j)
    | _ => a) []

/-- The objective of the program, given that of its standard form, which is the
negated one where the program was to be minimised.  Zero is never reported with
a minus sign. -/
def reportedValue (negated : Bool) (z : α) : α :=
  let v := if negated then z * (-1) else z
  if v == 0 then 0 else v

/-- The report of a solve that ended with an optimal tableau. -/
def Report.ofOptimal (t : Tableau α) (negated : Bool) (steps : List (Step (Tableau α)))
    (pivots : Nat) : Report (Tableau α) α :=
  ⟨.optimal t.solution (reportedValue negated t.objectiveValue), steps, some t, pivots⟩

end

end TwoPhase
