/-
# `Choice` — where to pivot next

The entering column has the most negative reduced cost, the leaving row
the least ratio of right-hand side to entry, the replacement of an
artificial column the entry of largest magnitude.  All three are found by
one scan from the left: it holds a candidate and moves on to a later one
only if that is better by more than the tolerance, so the earliest of tied
candidates is kept.  Near ties do not form an equivalence, and which
candidate a chain of them ends in depends on the one held.
-/
import TwoPhase.Tableau.Basic

namespace TwoPhase

/-- What a look at the tableau says about going on. -/
inductive Choice where
  | optimal
  | unbounded (column : Nat)
  | pivot (cell : Cell)
deriving DecidableEq, Repr

/-- The index of the candidate that a scan from the left ends with.  Each
candidate stands before its index; `yields held next` says that the one held
gives way to the next. -/
def scan {α : Type} (yields : α → α → Bool) : List (α × Nat) → Option Nat
  | [] => none
  | first :: rest =>
      some (rest.foldl (fun held next => if yields held.1 next.1 then next else held) first).2

/-- The place among `n` that a position stands for, if there is one.  Positions are words of
64 bits and read as signed ones: the greatest is the last place, and those below it count on
from there towards the first. -/
def place? (n position : Nat) : Option Nat :=
  if position < n then some position
  else if position < UInt64.size ∧ UInt64.size ≤ position + n then
    some (position + n - UInt64.size)
  else none

namespace Tableau

variable {α : Type} [Scalar α]

/-- The columns with a negative reduced cost, as candidates for entering. -/
def enteringCandidates (t : Tableau α) (tol : α) : List (α × Nat) :=
  t.objective.coeffs.zipIdx.filter fun (v, _) => v < -tol

/-- The column with the most negative reduced cost, if one is negative. -/
def entering (t : Tableau α) (tol : α) : Option Nat :=
  scan (fun held next => Exceeds tol held next) (t.enteringCandidates tol)

/-- The rows with a positive entry in column `j`, each with its ratio. -/
def leavingCandidates (t : Tableau α) (j : Nat) (tol : α) : List (α × Nat) :=
  (t.rows.zipIdx.filter fun (r, _) => tol < r.entry j).map fun (r, i) => (r.rhs / r.entry j, i)

/-- The row with the least ratio among those with a positive entry in column
`j`. -/
def leastRatioRow (t : Tableau α) (j : Nat) (tol : α) : Option Nat :=
  scan (fun held next => Exceeds tol held next) (t.leavingCandidates j tol)

/-- The leaving row, for the position of a column; the right-hand side follows the last. -/
def leaving (t : Tableau α) (j : Nat) (tol : α) : Except Fault (Option Nat) := do
  require t.IsRectangular .ragged
  match place? (t.columns.length + 1) j with
  | some j => return t.leastRatioRow j tol
  | none => throw (.noColumn j)

/-- The next pivot by the rules of entering and leaving. -/
def choose (t : Tableau α) (tol : α) : Except Fault Choice :=
  match t.entering tol with
  | none => .ok .optimal
  | some j => do
      match ← t.leaving j tol with
      | some i => return .pivot ⟨i, j⟩
      | none => return .unbounded j

/-- The entries of a row in columns that are not artificial, each with its
column, as far as they are not negligible. -/
def replacementCandidates (t : Tableau α) (r : Row α) (tol : α) : List (α × Nat) :=
  ((r.coeffs.zip t.columns).zipIdx.filter fun ((v, c), _) =>
    ¬ c.IsArtificial ∧ tol < Scalar.abs v).map fun ((v, _), j) => (v, j)

/-- The column that is not artificial and has the largest magnitude in a row. -/
def largestColumn (t : Tableau α) (r : Row α) (tol : α) : Option Nat :=
  scan (fun held next => Exceeds tol (Scalar.abs next) (Scalar.abs held))
    (t.replacementCandidates r tol)

/-- The replacement column for the position of a row; the objective row follows the last
constraint row. -/
def replacement (t : Tableau α) (i : Nat) (tol : α) : Except Fault (Option Nat) := do
  require t.IsRectangular .ragged
  match (place? t.allRows.length i).bind (t.allRows[·]?) with
  | some r => return t.largestColumn r tol
  | none => throw (.noRow i)

end Tableau

end TwoPhase
