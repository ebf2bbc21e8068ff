/-
# `Program.Text` — programs in running text

A linear form is written term by term without the zero ones: the first with
its sign attached, every other after a sign that stands by itself.  A
program is a small table of its objective and its constraints.
-/
import TwoPhase.Program
import TwoPhase.Report
import TwoPhase.Text.Table

namespace TwoPhase

def Relation.symbol : Relation → String
  | .atMost => "≤"
  | .atLeast => "≥"
  | .equal => "="

def Direction.heading : Direction → String
  | .maximize => "Max"
  | .minimize => "Min"

section

variable {α : Type} [Scalar α] [Numeral α]

/-- The magnitude of a coefficient and the variable it stands with. -/
def termText (v : α) (i : Nat) : String :=
  Numeral.text (Scalar.abs v) ++ "*" ++ Column.variableName i

/-- The terms from the `i`-th variable on; `first` says that none was written
before. -/
def termsText (first : Bool) (i : Nat) : List α → String
  | [] => ""
  | v :: rest =>
      if v == 0 then termsText first (i + 1) rest
      else
        let term :=
          if first then (if v < 0 then "-" else "") ++ termText v i
          else (if v < 0 then " - " else " + ") ++ termText v i
        term ++ termsText false (i + 1) rest

/-- A linear form in the variables.  One without terms is `0`. -/
def linearText (coeffs : List α) : String :=
  if coeffs.all (· == 0) then "0" else termsText true 0 coeffs

def Constraint.text (c : Constraint α) : String :=
  linearText c.coeffs ++ " " ++ c.relation.symbol ++ " " ++ Numeral.text c.rhs

def Program.text (p : Program α) : String :=
  let head := [[p.direction.heading, " : ", linearText p.objective], ["Subject to", " : ", ""]]
  Table.render {
    layout := [.column .left, .column .center, .column .left]
    rows := head ++ p.constraints.map fun c => ["", "", c.text] }

end

end TwoPhase
