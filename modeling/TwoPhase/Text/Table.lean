/-
# `Table` — text set in columns

A column is as wide as its widest cell.  Every line ends with a line feed,
and a line never ends in padding: the last element of a line is not padded
on its right.
-/
import TwoPhase.Text.Width

namespace TwoPhase

/-- Where a cell stands in its column. -/
inductive Align where
  | left
  | center
  | right
deriving DecidableEq, Repr

/-- An element of every line: a column, or a text between columns. -/
inductive TablePart where
  | column (align : Align)
  | gap (text : String)
deriving DecidableEq, Repr

structure Table where
  layout : List TablePart
  rows : List (List String)
deriving Repr

def spaces (n : Nat) : String := String.ofList (List.replicate n ' ')

namespace Table

def columnCount (t : Table) : Nat :=
  (t.layout.filter fun | .column _ => true | .gap _ => false).length

def widths (t : Table) : List Nat :=
  (List.range t.columnCount).map fun j =>
    (t.rows.map fun row => textWidth (row.getD j "")).foldl max 0

def setCell (align : Align) (width : Nat) (isLast : Bool) (cell : String) : String :=
  let room := width - textWidth cell
  let before := match align with
    | .left => 0
    | .center => room / 2
    | .right => room
  spaces before ++ cell ++ if isLast then "" else spaces (room - before)

/-- One line: the parts of the layout in order, each column taking the next cell. -/
def line : List TablePart → List Nat → List String → String
  | [], _, _ => "\n"
  | .gap text :: rest, widths, cells => text ++ line rest widths cells
  | .column align :: rest, widths, cells =>
      setCell align (widths.headD 0) rest.isEmpty (cells.headD "") ++
        line rest widths.tail cells.tail

def render (t : Table) : String := String.join (t.rows.map (line t.layout t.widths))

end Table

end TwoPhase
