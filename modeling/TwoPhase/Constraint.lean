/-
# `Constraint` — one row of a linear program

A constraint relates a weighted sum of the variables to a right-hand
side.  Two things are said of it here: when a list of values satisfies it
up to a tolerance, and what its normalised form is — the same demand,
negated where needed so that the right-hand side is not below zero.
-/
import TwoPhase.Scalar

namespace TwoPhase

/-- How the two sides of a constraint compare. -/
inductive Relation where
  | atMost
  | atLeast
  | equal
deriving DecidableEq, Repr

namespace Relation

/-- The relation between the negated sides. -/
def flip : Relation → Relation
  | .atMost => .atLeast
  | .atLeast => .atMost
  | .equal => .equal

/-- An inequality is made an equation by a column of its own: a slack that is
added or a surplus that is taken away. -/
def IsInequality (r : Relation) : Prop := r ≠ .equal

/-- Only the slack of an `atMost` row can start as the row's basic column;
every other row starts with an artificial one. -/
def StartsArtificial (r : Relation) : Prop := r ≠ .atMost

instance (r : Relation) : Decidable r.IsInequality := inferInstanceAs (Decidable (_ ≠ _))

instance (r : Relation) : Decidable r.StartsArtificial := inferInstanceAs (Decidable (_ ≠ _))

end Relation

/-- The demand that the weighted sum of the variables stands in `relation` to
`rhs`. -/
structure Constraint (α : Type) where
  coeffs : List α
  relation : Relation
  rhs : α
deriving Repr

/-- A constraint in normalised form, with the note whether both sides were
negated to reach it. -/
structure NormalConstraint (α : Type) extends Constraint α where
  negated : Bool
deriving Repr

namespace Constraint

variable {α : Type} [Scalar α]

def lhs (c : Constraint α) (values : List α) : α := dot c.coeffs values

/-- Do the values meet the constraint, up to `tol`? -/
def IsMetBy (c : Constraint α) (values : List α) (tol : α) : Prop :=
  match c.relation with
  | .atMost => c.lhs values ≤ c.rhs + tol
  | .atLeast => c.rhs - tol ≤ c.lhs values
  | .equal => Scalar.abs (c.lhs values - c.rhs) ≤ tol

instance (c : Constraint α) (values : List α) (tol : α) : Decidable (c.IsMetBy values tol) := by
  unfold IsMetBy; split <;> infer_instance

/-- Both sides negated, and the relation turned round accordingly. -/
def negate (c : Constraint α) : Constraint α where
  coeffs := c.coeffs.map (- ·)
  relation := c.relation.flip
  rhs := -c.rhs

/-- The same demand with a right-hand side that is not below zero. -/
def normalize (c : Constraint α) : NormalConstraint α :=
  if c.rhs < 0 then { c.negate with negated := true } else { c with negated := false }

end Constraint

end TwoPhase
