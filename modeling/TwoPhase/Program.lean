/-
# `Program` — a linear program and what can be wrong with it

A program asks for the largest or smallest value of a linear objective
over non-negative variables that meet a list of constraints.  Nothing is
checked when a program is put together; `Program.check` finds the first
objection to it, and `Objection.message` holds the wording.
-/
import TwoPhase.Constraint

namespace TwoPhase

/-- Is the objective to be made large or small? -/
inductive Direction where
  | maximize
  | minimize
deriving DecidableEq, Repr

/-- A linear program over the non-negative variables `x1` to `xN`. -/
structure Program (α : Type) where
  numVars : Nat
  objective : List α
  constraints : List (Constraint α)
  direction : Direction
deriving Repr

/-- Why a program cannot be solved as it stands.  Constraints are counted from
zero here and from one in the wording. -/
inductive Objection where
  | noVariables
  | objectiveLength (found expected : Nat)
  | objectiveNotFinite
  | noConstraints
  | constraintLength (index found expected : Nat)
  | constraintNotFinite (index : Nat)
  | noBasicColumn (index : Nat)
  | stated (text : String)
deriving DecidableEq, Repr

def Objection.message : Objection → String
  | .noVariables => "numVars must be at least 1"
  | .objectiveLength found expected =>
      s!"objective has {found} coefficients, expected {expected}"
  | .objectiveNotFinite => "objective contains a non-finite coefficient"
  | .noConstraints => "at least one constraint is required"
  | .constraintLength index found expected =>
      s!"constraint {index + 1} has {found} coefficients, expected {expected}"
  | .constraintNotFinite index => s!"constraint {index + 1} contains a non-finite value"
  | .noBasicColumn index => s!"constraint {index + 1} has no basic column"
  | .stated text => text

namespace Program

variable {α : Type} [Scalar α]

/-- The most numbers that fit a list: each takes eight of the less than `2 ^ 63` bytes
that a list can have. -/
def mostCoefficients : Nat := 1152921504606846975

/-- The program with a zero objective and no constraint. -/
def blank (numVars : Nat) : Program α where
  numVars := numVars
  objective := List.replicate numVars 0
  constraints := []
  direction := .maximize

/-- The program with a zero objective and no constraint, if there can be an objective
that long. -/
def blank? (numVars : Nat) : Option (Program α) :=
  if numVars ≤ mostCoefficients then some (blank numVars) else none

def withObjective (p : Program α) (direction : Direction) (coeffs : List α) : Program α :=
  { p with objective := coeffs, direction := direction }

def withConstraint (p : Program α) (c : Constraint α) : Program α :=
  { p with constraints := p.constraints ++ [c] }

/-- The objection to one constraint, the `index`-th, if there is one. -/
def objectionTo (numVars : Nat) (c : Constraint α) (index : Nat) : Option Objection :=
  if c.coeffs.length ≠ numVars then
    some (.constraintLength index c.coeffs.length numVars)
  else if !Scalar.isFinite c.rhs || c.coeffs.any (!Scalar.isFinite ·) then
    some (.constraintNotFinite index)
  else
    none

/-- The first objection to a program.  The objective is looked at before the
constraints, and those in their order. -/
def objection (p : Program α) : Option Objection :=
  if p.numVars < 1 then
    some .noVariables
  else if p.objective.length ≠ p.numVars then
    some (.objectiveLength p.objective.length p.numVars)
  else if p.objective.any (!Scalar.isFinite ·) then
    some .objectiveNotFinite
  else if p.constraints.isEmpty then
    some .noConstraints
  else
    p.constraints.zipIdx.findSome? fun (c, i) => objectionTo p.numVars c i

/-- A program to which there is no objection passes. -/
def check (p : Program α) : Except Objection Unit :=
  match p.objection with
  | some o => .error o
  | none => .ok ()

end Program

end TwoPhase
