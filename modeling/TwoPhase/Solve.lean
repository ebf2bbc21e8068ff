/-
# `Solve` — the two-phase simplex method

Phase 1 maximises the negated sum of the artificial variables.  If that
reaches zero, the artificial columns still basic are driven out, rows in
which nothing can replace them are dropped, and the artificial columns go.
Phase 2 then maximises the program's own costs.  Every decision is recorded
as a step, and the pivots of both phases share one budget.

A stage of the solve takes a run and gives the run it ends in, together
with the error that stops the solve, if one does.

No run is checked on its way.  In particular nothing is asked of the tableau
that a pivot leads to: under a tolerance it need not be canonical, and where
it is, that is a theorem and not a condition for going on.
-/
import TwoPhase.StandardForm
import TwoPhase.Tableau.Choice
import TwoPhase.Tableau.Pivot
import TwoPhase.Event

namespace TwoPhase

/-- How a solve is to be carried out. -/
structure Settings (α : Type) where
  /-- Entries within `tol` of zero count as zero when a pivot is chosen. -/
  tol : α
  /-- The largest artificial sum that still counts as feasible after phase 1. -/
  feasibilityTol : α
  /-- The pivot budget of both phases, if it is not left to the size of the
  program. -/
  maxPivots : Option Nat
deriving Repr

/-- The settings used where nothing else is asked for. -/
def Settings.standard {α : Type} [OfScientific α] : Settings α := ⟨1e-9, 1e-7, none⟩

/-- The state of a solve under way. -/
structure Run (α : Type) where
  tableau : Tableau α
  steps : Array (Step (Tableau α))
  pivots : Nat
  log : Array (Event α)

/-- The run that a stage ends in, and the error that stops the solve there. -/
abbrev Stage (α : Type) := Run α × Option (SolveError α)

variable {α : Type} [Scalar α]

/-- Goes on from where a stage ended, unless the solve stopped there. -/
def Stage.next (stage : Stage α) (rest : Run α → Except Fault (Stage α)) :
    Except Fault (Stage α) :=
  match stage with
  | (run, none) => rest run
  | (run, some e) => .ok (run, some e)

namespace Run

def note (run : Run α) (e : Event α) : Run α := { run with log := run.log.push e }

def record (run : Run α) (phase : Nat) (pivot : Option Cell) : Run α :=
  { run with steps := run.steps.push ⟨phase, run.tableau, pivot⟩ }

def announcement (run : Run α) (phase : Nat) (cell : Cell) : Except Fault (Event α) :=
  match run.tableau.columns[cell.column]?, run.tableau.rows[cell.row]? with
  | some enters, some row =>
      match run.tableau.columns[row.basic]? with
      | some leaves => .ok (.pivoting phase run.pivots enters leaves cell)
      | none => .error .basicColumnAbsent
  | none, _ => .error (.noColumn cell.column)
  | _, none => .error (.noRow cell.row)

def pivot (run : Run α) (tol : α) (phase : Nat) (cell : Cell) : Except Fault (Run α) := do
  let announced := run.note (← run.announcement phase cell)
  let tableau ← run.tableau.pivot cell tol
  return { announced.record phase (some cell) with tableau, pivots := run.pivots + 1 }.note
    (.pivoted tableau)

end Run

/-- Pivots until the objective is optimal or unbounded, at most `allowance`
times. -/
def pivotLoop (tol : α) (phase : Nat) : (allowance : Nat) → Run α → Except Fault (Stage α)
  | allowance, run => do
      match ← run.tableau.choose tol with
      | .optimal =>
          return ((run.record phase none).note
            (.phaseOptimal phase run.pivots run.tableau.objectiveValue), none)
      | .unbounded column => return (run.record phase none, some (.unbounded column))
      | .pivot cell =>
          match allowance with
          | 0 => return (run, some (.iterationLimit run.pivots))
          | rest + 1 => pivotLoop tol phase rest (← run.pivot tol phase cell)

/-- The costs of phase 1: each artificial variable counts against the objective
with its full value. -/
def phaseOneCosts (columns : List Column) : List α :=
  columns.map fun c => if c.IsArtificial then -1 else 0

/-- Makes the artificial sum as small as it gets, and stops if that is not small
enough. -/
def phaseOne (settings : Settings α) (form : StandardForm α) (limit : Nat) (run : Run α) :
    Except Fault (Stage α) := do
  let run := run.note (.phaseOneStarted form.artificialColumns.length)
  let priced ← run.tableau.price (phaseOneCosts form.columns)
  let stage ← pivotLoop settings.tol 1 (limit - run.pivots) { run with tableau := priced }
  stage.next fun run =>
    let residual := -run.tableau.objectiveValue
    if settings.feasibilityTol < residual then
      .ok (run.note (.phaseOneInfeasible residual), some (.infeasible residual))
    else
      .ok (run, none)

/-- Looks at the rows from the `i`-th on, of which there are `remaining`.  An
artificial basic column is replaced by the largest entry of its row; where
there is none the row says nothing and is dropped. -/
def driveOut (tol : α) (limit : Nat) : (remaining i : Nat) → Run α → Except Fault (Stage α)
  | 0, _, run => .ok (run, none)
  | remaining + 1, i, run =>
      match run.tableau.rows[i]? with
      | none => .error (.noRow i)
      | some row =>
          match run.tableau.columns[row.basic]? with
          | none => .error .basicColumnAbsent
          | some (.artificial _) => do
              match ← run.tableau.replacement i tol with
              | some j =>
                  if limit ≤ run.pivots then
                    return (run, some (.iterationLimit run.pivots))
                  driveOut tol limit remaining (i + 1) (← run.pivot tol 1 ⟨i, j⟩)
              | none =>
                  let run := run.note (.redundantRow i)
                  driveOut tol limit remaining i
                    { run with tableau := ← run.tableau.dropRow i }
          | some _ => driveOut tol limit remaining (i + 1) run

def dropArtificials (tol : α) (limit : Nat) (run : Run α) :
    Except Fault (Stage α) := do
  let stage ← driveOut tol limit run.tableau.rows.length 0 run
  stage.next fun run => do
    let mask := run.tableau.columns.map fun c => decide (¬ c.IsArtificial)
    return ({ run with tableau := ← run.tableau.restrict mask }, none)

/-- Maximises the program's own costs. -/
def phaseTwo (settings : Settings α) (form : StandardForm α) (limit : Nat) (run : Run α) :
    Except Fault (Stage α) := do
  let run := run.note
    (.phaseTwoStarted run.tableau.rows.length run.tableau.columns.length)
  let priced ← run.tableau.price (run.tableau.columns.map form.costOf)
  pivotLoop settings.tol 2 (limit - run.pivots) { run with tableau := priced }

/-- Both phases, the first only where there are artificial columns. -/
def bothPhases (settings : Settings α) (form : StandardForm α) (limit : Nat) (run : Run α) :
    Except Fault (Stage α) :=
  if form.HasArtificials then do
    let stage ← phaseOne settings form limit run
    stage.next fun run => do
      let stage ← dropArtificials settings.tol limit run
      stage.next (phaseTwo settings form limit)
  else
    phaseTwo settings form limit run

/-- The number of pivots allowed for a standard form. -/
def Settings.budget (settings : Settings α) (form : StandardForm α) : Nat :=
  settings.maxPivots.getD (10 * (form.rows.length + form.columns.length))

def layoutEvents (p : Program α) (form : StandardForm α) : List (Event α) :=
  ((p.constraints.zipIdx.filter fun (c, _) => c.normalize.negated).map fun (_, i) =>
      .rowNegated i) ++
    [.laidOut form.rows.length form.columns.length form.artificialColumns.length]

/-- The report and the log of a run that has come to its end. -/
def Run.conclude (run : Run α) (negated : Bool) :
    Option (SolveError α) → Report (Tableau α) α × List (Event α)
  | none =>
      (.ofOptimal run.tableau negated run.steps.toList run.pivots,
        (run.log.push (.optimal run.pivots run.tableau.objectiveValue)).toList)
  | some e =>
      (.ofError e run.steps.toList (some run.tableau) run.pivots,
        (run.log.push (.stopped e)).toList)

def solveLogged (settings : Settings α) (p : Program α) :
    Except Fault (Report (Tableau α) α × List (Event α)) :=
  match StandardForm.ofProgram p with
  | .error o => .ok (.ofError (.invalid o) [] none 0, [.rejected o])
  | .ok form => do
      let start : Run α := ⟨form.tableau, #[], 0, (layoutEvents p form).toArray⟩
      let (run, stop) ← bothPhases settings form (settings.budget form) start
      return run.conclude form.negatedObjective stop

def solve (settings : Settings α) (p : Program α) : Except Fault (Report (Tableau α) α) :=
  (·.1) <$> solveLogged settings p

/-- Solves a program, for a caller to whom anything but an optimum is an
error. -/
def solveToOptimum (settings : Settings α) (p : Program α) :
    Except Fault (Except (SolveError α) (Report (Tableau α) α)) :=
  (·.toExcept) <$> solve settings p

end TwoPhase
