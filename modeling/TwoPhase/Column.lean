/-
# `Column` — what the columns of a tableau stand for

Every column belongs to a decision variable of the program or to one of
its constraints, whose slack, surplus or artificial variable it is.
-/

namespace TwoPhase

/-- The role of a column.  Variables and constraints are counted from zero. -/
inductive Column where
  | decision (index : Nat)
  | slack (row : Nat)
  | surplus (row : Nat)
  | artificial (row : Nat)
deriving DecidableEq, Repr

namespace Column

/-- An artificial column belongs to phase 1 only. -/
def IsArtificial : Column → Prop
  | .artificial _ => True
  | _ => False

instance : DecidablePred IsArtificial := fun c => by
  cases c <;> unfold IsArtificial <;> infer_instance

/-- The name of the `i`-th decision variable: `x1` is the first. -/
def variableName (i : Nat) : String := s!"x{i + 1}"

/-- The heading of a column.  A constraint has a slack or a surplus and never
both, so they share the letter `s`. -/
def label : Column → String
  | .decision i => variableName i
  | .slack r => s!"s{r + 1}"
  | .surplus r => s!"s{r + 1}"
  | .artificial r => s!"a{r + 1}"

end Column

/-- The place where a row and a column of a tableau meet. -/
structure Cell where
  row : Nat
  column : Nat
deriving DecidableEq, Repr

end TwoPhase
