/-
# `Tableau` — rows, their basic columns and the objective row

A tableau is a list of columns, a list of constraint rows and an objective
row.  A row reads as the equation "the sum of coefficient times variable is
the right-hand side".  Each constraint row carries its basic column with
it, so there are always as many basic columns as constraint rows.

Positions come from outside and may be wrong.  An operation that reads by
position is checked and ends in a `Fault` where the position names nothing
or the tableau is not rectangular; what it computes otherwise is a total
function of its own, so that laws can be stated without the checks.  Nothing
is checked where a tableau is put together, unless it is from bare numbers.
-/
import TwoPhase.Scalar
import TwoPhase.Column

namespace TwoPhase

/-- Why an operation on a tableau cannot be carried out, be it a change or a picture
of it. -/
inductive Fault where
  | ragged
  | noRow (index : Nat)
  | noColumn (index : Nat)
  | costCount (found expected : Nat)
  | maskCount (found expected : Nat)
  | basicColumnAbsent
  | basicColumnDropped
  | tooManyPlaces (places : Nat)
deriving DecidableEq, Repr

/-- Goes on only where the condition holds. -/
def require (condition : Prop) [Decidable condition] (fault : Fault) : Except Fault Unit :=
  if condition then .ok () else .error fault

/-- One linear equation: a coefficient for each column, and the right-hand
side. -/
structure Row (α : Type) where
  coeffs : List α
  rhs : α
deriving BEq, Repr

/-- A constraint row with the column that is basic in it. -/
structure BasicRow (α : Type) extends Row α where
  basic : Nat
deriving BEq, Repr

/-- Constraint rows and an objective row over common columns. -/
structure Tableau (α : Type) where
  columns : List Column
  rows : List (BasicRow α)
  objective : Row α
deriving Repr

/-- The bare numbers of a tableau, row by row. -/
abbrev Grid (α : Type) := List (List α)

namespace Row

variable {α : Type}

/-- All numbers of a row; the right-hand side is the last. -/
def entries (r : Row α) : List α := r.coeffs ++ [r.rhs]

/-- The entry in a column.  The place after the last coefficient is that of the
right-hand side, and beyond it a row is zero. -/
def entry [Scalar α] (r : Row α) (j : Nat) : α := r.entries.getD j 0

def map (f : α → α) (r : Row α) : Row α := ⟨r.coeffs.map f, f r.rhs⟩

def zipWith (f : α → α → α) (r s : Row α) : Row α :=
  ⟨List.zipWith f r.coeffs s.coeffs, f r.rhs s.rhs⟩

def setCoeff (r : Row α) (j : Nat) (v : α) : Row α := { r with coeffs := r.coeffs.set j v }

def subtract [Scalar α] (r : Row α) (ratio : α) (s : Row α) : Row α :=
  r.zipWith (fun v w => v - w * ratio) s

/-- Takes as much of `s`, whose entry in column `j` is one, from the row as
leaves nothing in that column.  A row with nothing there stays as it is. -/
def eliminate [Scalar α] (r : Row α) (j : Nat) (s : Row α) : Row α :=
  if r.entry j == 0 then r else r.subtract (r.entry j) s

end Row

namespace Tableau

variable {α : Type}

/-- Every row has a coefficient for each column and no more. -/
def IsRectangular (t : Tableau α) : Prop :=
  (∀ r ∈ t.rows, r.coeffs.length = t.columns.length) ∧
    t.objective.coeffs.length = t.columns.length

instance (t : Tableau α) : Decidable t.IsRectangular := inferInstanceAs (Decidable (_ ∧ _))

/-- All rows in order, the objective row last. -/
def allRows (t : Tableau α) : List (Row α) := t.rows.map (·.toRow) ++ [t.objective]

def grid (t : Tableau α) : Grid α := t.allRows.map (·.entries)

def basis (t : Tableau α) : List Nat := t.rows.map (·.basic)

/-- Puts a tableau together from its numbers, the last row being the objective
row.  There must be one row more than basic columns and one entry more in
each row than columns. -/
def ofGrid? (grid : Grid α) (basis : List Nat) (columns : List Column) :
    Option (Tableau α) := do
  let rows ← grid.mapM fun entries => do return (⟨entries.dropLast, ← entries.getLast?⟩ : Row α)
  let objective ← rows.getLast?
  guard (rows.length = basis.length + 1)
  guard (rows.all (·.coeffs.length = columns.length))
  return { columns, objective, rows := List.zipWith BasicRow.mk rows.dropLast basis }

/-- Two tableaux are alike when the columns, the basic columns and all numbers
agree; zeros of either sign do. -/
def alike [BEq α] (t u : Tableau α) : Bool :=
  t.columns == u.columns && t.basis == u.basis && t.grid == u.grid

/-- The right-hand side of a row; the objective row follows the last constraint
row. -/
def rhsAt (t : Tableau α) (i : Nat) : Except Fault α :=
  match t.allRows[i]? with
  | some r => .ok r.rhs
  | none => .error (.noRow i)

/-- The value of the objective in the current basic solution. -/
def objectiveValue (t : Tableau α) : α := t.objective.rhs

def labels (t : Tableau α) : List String := t.columns.map (·.label)

/-- Every variable's value when the variables that are not basic are zero.  Where
two rows share a basic column the later row counts. -/
def basicSolution [Scalar α] (t : Tableau α) : Except Fault (List α) := do
  require (∀ r ∈ t.rows, r.basic < t.columns.length) .basicColumnAbsent
  return t.rows.foldl (fun values r => values.set r.basic r.rhs)
    (List.replicate t.columns.length 0)

/-- Each basic column is a column of its own and, up to `tol`, the unit vector
of its row, and no right-hand side lies below `-tol`. -/
def IsCanonical [Scalar α] (t : Tableau α) (tol : α) : Prop :=
  t.basis.Nodup ∧ ∀ p ∈ t.rows.zipIdx,
    p.1.basic < t.columns.length ∧ ¬ p.1.rhs < -tol ∧
      ∀ q ∈ t.allRows.zipIdx,
        ¬ tol < Scalar.abs (q.1.entry p.1.basic - if q.2 = p.2 then 1 else 0)

instance [Scalar α] (t : Tableau α) (tol : α) : Decidable (t.IsCanonical tol) :=
  inferInstanceAs (Decidable (_ ∧ _))

end Tableau

end TwoPhase
