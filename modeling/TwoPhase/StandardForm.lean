/-
# `StandardForm` — the program as equations with a starting basis

Every constraint is normalised and made an equation by a slack or surplus
column; each row whose slack cannot start as its basic column gets an
artificial one.  The columns are the decision variables, then the slack and
surplus columns in the order of the constraints, then the artificial ones
in that order.  The objective is always one to be maximised.
-/
import TwoPhase.Program
import TwoPhase.Tableau.Basic

namespace TwoPhase

/-- Equations with non-negative right-hand sides, a basic column for each, and
costs to be maximised, one for each column. -/
structure StandardForm (α : Type) where
  columns : List Column
  rows : List (BasicRow α)
  costs : List α
  negatedObjective : Bool
deriving Repr

namespace NormalConstraint

variable {α : Type}

/-- The slack or surplus column of the `i`-th row, if it has one. -/
def slackColumn (c : NormalConstraint α) (i : Nat) : Option Column :=
  match c.relation with
  | .atMost => some (.slack i)
  | .atLeast => some (.surplus i)
  | .equal => none

/-- The artificial column of the `i`-th row, if it needs one. -/
def artificialColumn (c : NormalConstraint α) (i : Nat) : Option Column :=
  if c.relation.StartsArtificial then some (.artificial i) else none

/-- The column that is basic in the `i`-th row at the start. -/
def startColumn (c : NormalConstraint α) (i : Nat) : Column :=
  match c.relation with
  | .atMost => .slack i
  | _ => .artificial i

end NormalConstraint

/-- The entry of the `i`-th row in a column that is no decision variable's. -/
def unitEntry {α : Type} [Scalar α] (i : Nat) : Column → α
  | .slack r => if r = i then 1 else 0
  | .surplus r => if r = i then -1 else 0
  | .artificial r => if r = i then 1 else 0
  | .decision _ => 0

namespace StandardForm

variable {α : Type} [Scalar α]

/-- The columns that are added to those of the decision variables. -/
def addedColumns (constraints : List (NormalConstraint α)) : List Column :=
  (constraints.zipIdx.filterMap fun (c, i) => c.slackColumn i) ++
    constraints.zipIdx.filterMap fun (c, i) => c.artificialColumn i

/-- One row of the equations: the coefficients of the constraint and then its own
entries in the added columns. -/
def basicRow (columns added : List Column) (c : NormalConstraint α) (i : Nat) :
    Except Objection (BasicRow α) :=
  match columns.idxOf? (c.startColumn i) with
  | some j => .ok ⟨⟨c.coeffs ++ added.map (unitEntry i), c.rhs⟩, j⟩
  | none => .error (.noBasicColumn i)

/-- Lays out a program to which there is no objection. -/
def ofProgram (p : Program α) : Except Objection (StandardForm α) := do
  p.check
  let constraints := p.constraints.map (·.normalize)
  let added := addedColumns constraints
  let columns := (List.range p.numVars).map .decision ++ added
  let rows ← constraints.zipIdx.mapM fun (c, i) => basicRow columns added c i
  let costs := match p.direction with
    | .maximize => p.objective
    | .minimize => p.objective.map (- ·)
  return {
    columns, rows
    costs := costs ++ added.map fun _ => 0
    negatedObjective := p.direction = .minimize }

def artificialColumns (f : StandardForm α) : List Nat :=
  (f.columns.zipIdx.filter fun (c, _) => c.IsArtificial).map (·.2)

/-- A form with artificial columns has to be solved for their sum first. -/
def HasArtificials (f : StandardForm α) : Prop := ∃ c ∈ f.columns, c.IsArtificial

instance (f : StandardForm α) : Decidable f.HasArtificials :=
  inferInstanceAs (Decidable (∃ c ∈ f.columns, c.IsArtificial))

/-- The equations above an objective row of zeros. -/
def tableau (f : StandardForm α) : Tableau α where
  columns := f.columns
  rows := f.rows
  objective := ⟨f.columns.map fun _ => 0, 0⟩

/-- The cost of a column, zero for one that is not in the form. -/
def costOf (f : StandardForm α) (c : Column) : α :=
  ((f.columns.zip f.costs).lookup c).getD 0

end StandardForm

end TwoPhase
