/-
# `Program.Written` — programs as documents

The members of a program and of a constraint, in the order in which they
are written, and the words for relations and directions.
-/
import TwoPhase.Program
import TwoPhase.Json.Value

namespace TwoPhase

open Json (Value)

def Relation.letter : Relation → String
  | .atMost => "L"
  | .atLeast => "G"
  | .equal => "E"

def Direction.word : Direction → String
  | .maximize => "max"
  | .minimize => "min"

def numbers (xs : List Float) : Value := .array (xs.map .real)

def Constraint.document (c : Constraint Float) : Value :=
  .object [("coeffs", numbers c.coeffs), ("rhs", .real c.rhs),
    ("inequality", .text c.relation.letter)]

def Program.document (p : Program Float) : Value :=
  .object [("numVars", .natural p.numVars), ("objective", numbers p.objective),
    ("constraints", .array (p.constraints.map (·.document))),
    ("optimization", .text p.direction.word)]

end TwoPhase
