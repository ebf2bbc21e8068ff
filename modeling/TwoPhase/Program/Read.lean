/-
# `Program.Read` — programs read from documents

The relation of a constraint and the direction of a program may be left
out; a constraint is then an upper bound, and the objective is to be made
large.
-/
import TwoPhase.Program
import TwoPhase.Program.Written
import TwoPhase.Json.Record

namespace TwoPhase

open Json

def Relation.letters : List (String × Relation) :=
  [Relation.atMost, .atLeast, .equal].map fun r => (r.letter, r)

def Direction.words : List (String × Direction) :=
  [Direction.maximize, .minimize].map fun d => (d.word, d)

/-- The members of a constraint that have been read. -/
structure ConstraintParts where
  coeffs : Option (List Float)
  rhs : Option Float
  relation : Option Relation

def ConstraintParts.fields : List (FieldReader ConstraintParts) :=
  [{ name := "coeffs", optional := false, isSet := (·.coeffs.isSome),
     read := fun d s => do return { s with coeffs := some (← d.list Doc.float) } },
   { name := "rhs", optional := false, isSet := (·.rhs.isSome),
     read := fun d s => do return { s with rhs := some (← d.float) } },
   { name := "inequality", optional := true, isSet := (·.relation.isSome),
     read := fun d s => do return { s with relation := some (← d.word Relation.letters) } }]

def Constraint.ofDoc (d : Doc) : Except Refusal (Constraint Float) := do
  let s ← d.record "Constraint" ConstraintParts.fields ⟨none, none, none⟩
  let coeffs ← needed "coeffs" s.coeffs
  let rhs ← needed "rhs" s.rhs
  return ⟨coeffs, s.relation.getD .atMost, rhs⟩

/-- The members of a program that have been read. -/
structure ProgramParts where
  numVars : Option Nat
  objective : Option (List Float)
  constraints : Option (List (Constraint Float))
  direction : Option Direction

def ProgramParts.fields : List (FieldReader ProgramParts) :=
  [{ name := "numVars", optional := false, isSet := (·.numVars.isSome),
     read := fun d s => do return { s with numVars := some (← d.count) } },
   { name := "objective", optional := false, isSet := (·.objective.isSome),
     read := fun d s => do return { s with objective := some (← d.list Doc.float) } },
   { name := "constraints", optional := false, isSet := (·.constraints.isSome),
     read := fun d s => do return { s with constraints := some (← d.list Constraint.ofDoc) } },
   { name := "optimization", optional := true, isSet := (·.direction.isSome),
     read := fun d s => do return { s with direction := some (← d.word Direction.words) } }]

def Program.ofDoc (d : Doc) : Except Refusal (Program Float) := do
  let s ← d.record "LinearProgram" ProgramParts.fields ⟨none, none, none, none⟩
  let numVars ← needed "numVars" s.numVars
  let objective ← needed "objective" s.objective
  let constraints ← needed "constraints" s.constraints
  return ⟨numVars, objective, constraints, s.direction.getD .maximize⟩

def Program.ofText (text : String) : Except Refusal (Program Float) :=
  readText Program.ofDoc text

def Constraint.ofText (text : String) : Except Refusal (Constraint Float) :=
  readText Constraint.ofDoc text

end TwoPhase
