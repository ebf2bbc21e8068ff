/-
# `Tableau.Text` — tableaux on a terminal

A tableau is a table with a heading line and one line per row, its numbers
at a set number of places.  The pivot cell and its row and column can be
shown in colour.
-/
import TwoPhase.Tableau.Basic
import TwoPhase.Decimal.Notation
import TwoPhase.Text.Style
import TwoPhase.Text.Table

namespace TwoPhase

/-- How a number at row `i` and column `j` is styled when the pivot is known. -/
def cellStyle (pivot : Option Cell) (i j : Nat) : Option Style :=
  match pivot with
  | none => none
  | some cell =>
      if cell.row = i ∧ cell.column = j then some .boldYellow
      else if cell.row = i ∨ cell.column = j then some .cyan
      else none

/-- The heading of the `j`-th of `width` columns.  Without a label the last column
is the right-hand side and the others are numbered. -/
def columnHeading (labels : List String) (width j : Nat) : String :=
  match labels[j]? with
  | some label => label
  | none => if j + 1 = width then "rhs" else toString j

def gridText (grid : Grid Float) (columnLabels rowLabels : List String)
    (pivot : Option Cell) (places : Nat) (color : Bool) : String :=
  let width := (grid.headD []).length
  let heading := "basis" :: (List.range width).map (columnHeading columnLabels width)
  let number := fun (i j : Nat) (v : Float) =>
    match cellStyle pivot i j with
    | some style => style.paint color (fixedText places v)
    | none => fixedText places v
  let row := fun (i : Nat) (entries : List Float) =>
    rowLabels.getD i (toString i) :: entries.mapIdx (number i)
  Table.render {
    layout := .column .left ::
      (List.replicate width [.gap "  ", .column .right]).flatten
    rows := heading :: grid.mapIdx row }

/-- Bare numbers as a table, for as many places as they can be written with. -/
def renderGrid (grid : Grid Float) (columnLabels rowLabels : List String)
    (pivot : Option Cell) (places : Nat) (color : Bool) : Except Fault String := do
  require (places ≤ maxPlaces ∨ ∀ row ∈ grid, row.isEmpty) (.tooManyPlaces places)
  return gridText grid columnLabels rowLabels pivot places color

namespace Tableau

/-- The headings of the rows: the label of the basic column, and `z` for the
objective. -/
def rowLabels {α : Type} (t : Tableau α) : List String :=
  (t.rows.map fun r => ((t.columns[r.basic]?).map (·.label)).getD "") ++ ["z"]

/-- A tableau in running text: three places and no colours. -/
def plain (t : Tableau Float) : String := gridText t.grid t.labels t.rowLabels none 3 false

/-- A tableau as a table under the labels of its columns. -/
def render (t : Tableau Float) (pivot : Option Cell) (places : Nat) (color : Bool) :
    Except Fault String := do
  require (∀ r ∈ t.rows, r.basic < t.columns.length) .basicColumnAbsent
  renderGrid t.grid t.labels t.rowLabels pivot places color

end Tableau

end TwoPhase
