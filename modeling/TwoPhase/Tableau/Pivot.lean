/-
# `Pivot` — the operations that change a tableau

Pivoting on a cell divides its row by the entry there and subtracts
multiples of it from every other row, so that the column becomes the unit
vector of the row and basic in it.  Pricing installs an objective row with
zero reduced cost in every basic column.  Columns that are not basic, and
any row, can be dropped.
-/
import TwoPhase.Tableau.Basic

namespace TwoPhase

variable {α : Type} [Scalar α]

/-- What is left of a number when anything smaller than `tol` counts as
nothing. -/
def snap (tol v : α) : α := if Scalar.abs v < tol then 0 else v

/-- The elements that the mask marks. -/
def keepMarked {β : Type} (mask : List Bool) (xs : List β) : List β :=
  ((mask.zip xs).filter (·.1)).map (·.2)

namespace Row

/-- The row after pivoting elsewhere or in it: noise is snapped to zero and the
pivot column gets its exact entry. -/
def settle (r : Row α) (tol : α) (j : Nat) (unit : α) : Row α :=
  (r.map (snap tol)).setCoeff j unit

end Row

namespace Tableau

/-- The tableau after pivoting on a cell whose row is `r`. -/
def pivotOn (t : Tableau α) (r : Row α) (cell : Cell) (tol : α) : Tableau α :=
  let scaled := r.map (· / r.entry cell.column)
  let cleared := fun (s : Row α) => (s.eliminate cell.column scaled).settle tol cell.column 0
  { t with
    rows := t.rows.mapIdx fun i s =>
      if i = cell.row then ⟨scaled.settle tol cell.column 1, cell.column⟩
      else ⟨cleared s.toRow, s.basic⟩
    objective := cleared t.objective }

def pivot (t : Tableau α) (cell : Cell) (tol : α) : Except Fault (Tableau α) := do
  require t.IsRectangular .ragged
  require (cell.column < t.columns.length) (.noColumn cell.column)
  match t.rows[cell.row]? with
  | some r => return t.pivotOn r.toRow cell tol
  | none => throw (.noRow cell.row)

/-- The objective row for costs that are to be maximised: the negated costs, and
then row after row what removes the reduced cost of its basic column. -/
def pricedRow (t : Tableau α) (costs : List α) : Row α :=
  t.rows.foldl (fun z r => z.eliminate r.basic r.toRow) ⟨costs.map (- ·), 0⟩

/-- Installs an objective row for costs that are to be maximised, one for each
column. -/
def price (t : Tableau α) (costs : List α) : Except Fault (Tableau α) := do
  require t.IsRectangular .ragged
  require (costs.length = t.columns.length) (.costCount costs.length t.columns.length)
  require (∀ r ∈ t.rows, r.basic ≤ t.columns.length) .basicColumnAbsent
  return { t with objective := t.pricedRow costs }

/-- The place of a column among those that the mask marks. -/
def rank (mask : List Bool) (j : Nat) : Nat := (mask.take j).count true

/-- The tableau with the marked columns only; the right-hand sides stay. -/
def marked (t : Tableau α) (mask : List Bool) : Tableau α where
  columns := keepMarked mask t.columns
  rows := t.rows.map fun r => ⟨⟨keepMarked mask r.coeffs, r.rhs⟩, rank mask r.basic⟩
  objective := ⟨keepMarked mask t.objective.coeffs, t.objective.rhs⟩

/-- Drops the columns that the mask does not mark.  No basic column may be
dropped. -/
def restrict (t : Tableau α) (mask : List Bool) : Except Fault (Tableau α) := do
  require t.IsRectangular .ragged
  require (mask.length = t.columns.length) (.maskCount mask.length t.columns.length)
  require (∀ r ∈ t.rows, mask[r.basic]? = some true) .basicColumnDropped
  return t.marked mask

def dropRow (t : Tableau α) (i : Nat) : Except Fault (Tableau α) := do
  require (i < t.rows.length) (.noRow i)
  return { t with rows := t.rows.eraseIdx i }

end Tableau

end TwoPhase
