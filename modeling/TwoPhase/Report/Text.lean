/-
# `Report.Text` — a report on a terminal

The program, the steps where they are wanted, and how the solve ended.  A
report is printed piece by piece.  A number that cannot be written with the
places asked for ends the printing there, and what was printed before stays.
-/
import TwoPhase.Report
import TwoPhase.Program.Text
import TwoPhase.Tableau.Text

namespace TwoPhase

/-- What the settings of a terminal report say. -/
structure Rendering where
  steps : Bool
  places : Nat
  color : Bool
deriving Repr

/-- What has been printed, and the fault that ended the printing early. -/
structure Printout where
  text : String
  fault : Option Fault
deriving DecidableEq, Repr

/-- The pieces in front of the first that cannot be written, and why it cannot. -/
def splitAtFault : List (Except Fault String) → List String × Option Fault
  | [] => ([], none)
  | .error fault :: _ => ([], some fault)
  | .ok text :: rest =>
      let (texts, fault) := splitAtFault rest
      (text :: texts, fault)

/-- Prints pieces one after the other, up to the first that cannot be written. -/
def Printout.ofPieces (pieces : List (Except Fault String)) : Printout :=
  let (texts, fault) := splitAtFault pieces
  ⟨String.join texts, fault⟩

/-- A line of a report that ends in a number. -/
def Rendering.numberLine (r : Rendering) (heading : String) (v : Float) : Except Fault String := do
  require (r.places ≤ maxPlaces) (.tooManyPlaces r.places)
  return s!"  {heading} = {fixedText r.places v}\n"

def Step.title {π : Type} (number : Nat) (s : Step π) : String :=
  match s.pivot with
  | some cell =>
      s!"step {number} (phase {s.phase}): pivot on row {cell.row}, column {cell.column}"
  | none => s!"step {number} (phase {s.phase}): terminal"

/-- The labels of the rows of bare numbers: the constraint rows are counted. -/
def gridRowLabels (rows : Nat) : List String :=
  ((List.range (rows - 1)).map fun i => s!"r{i + 1}") ++ ["z"]

def Step.pieces (r : Rendering) (number : Nat) (s : Step (Grid Float)) :
    List (Except Fault String) :=
  [.ok (Style.bold.paint r.color (s.title number) ++ "\n"),
    (· ++ "\n") <$>
      renderGrid s.picture [] (gridRowLabels s.picture.length) s.pivot r.places r.color]

def Outcome.pieces (r : Rendering) : Outcome Float → List (Except Fault String)
  | .optimal solution value =>
      [.ok (Style.boldGreen.paint r.color "optimal" ++ "\n")] ++
        solution.map (fun (i, v) => r.numberLine (Column.variableName i) v) ++
        [r.numberLine "objective" value]
  | .stopped e =>
      [.ok (Style.boldRed.paint r.color e.status.name ++ "\n"), .ok s!"  {e.message}\n"]

/-- A report on a terminal, with the program in front. -/
def Report.printout (r : Rendering) (p : Program Float) (report : Report (Grid Float) Float) :
    Printout :=
  .ofPieces <|
    [.ok ("model:\n" ++ p.text ++ "\n")] ++
    (if r.steps then (report.steps.mapIdx (Step.pieces r)).flatten else []) ++
    report.outcome.pieces r ++ [.ok s!"{report.pivots} pivots\n"]

end TwoPhase
