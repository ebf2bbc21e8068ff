/-
# `Shortest` — the fewest digits that read back

The reals that round to a given double form an interval around it, whose
ends belong to it when the significand is even.  Among the decimals in that
interval those on the coarsest power-of-ten grid have the fewest digits, and
if a grid has a point in the interval then one of the double's two
neighbours on that grid is one.  So the grids are tried from coarse to fine,
and on the first with a hit the nearer neighbour is taken.
-/
import TwoPhase.Decimal.Binary

namespace TwoPhase

/-- The number `digits * 10 ^ exponent`. -/
structure Decimal where
  digits : Nat
  exponent : Int
deriving DecidableEq, Repr

/-- Which neighbour is taken when both are equally near. -/
inductive Tie where
  | toEven
  | upward
deriving DecidableEq, Repr

namespace Binary

/-- Factors that bring quarters of the last binary place and units of the grid
`10 ^ e` to a common unit: `k * 2 ^ (exponent - 2)` and `d * 10 ^ e` compare as
`k * common.1` and `d * common.2`. -/
def common (x : Binary) (e : Int) : Nat × Nat :=
  let q := x.exponent - 2
  (power 2 q.toNat * power 10 (-e).toNat, power 2 (-q).toNat * power 10 e.toNat)

/-- Does `d * 10 ^ e` round to `x`, to nearest with ties to even?  The ends of the
interval lie half a place above and, where the doubles below are closer, a
quarter of a place below. -/
def readsBack (x : Binary) (d : Nat) (e : Int) : Bool :=
  let (a, b) := x.common e
  let low := (4 * x.significand - if x.narrowBelow then 1 else 2) * a
  let high := (4 * x.significand + 2) * a
  if x.significand % 2 = 0 then low ≤ d * b ∧ d * b ≤ high else low < d * b ∧ d * b < high

/-- The neighbour of `x` on the grid `10 ^ e` that reads back, the nearer one if
both do. -/
def onGrid? (tie : Tie) (x : Binary) (e : Int) : Option Nat :=
  let (a, b) := x.common e
  let value := 4 * x.significand * a
  let d := value / b
  match x.readsBack d e, x.readsBack (d + 1) e with
  | false, false => none
  | true, false => some d
  | false, true => some (d + 1)
  | true, true =>
      match compare (2 * value) ((2 * d + 1) * b), tie with
      | .lt, _ => some d
      | .gt, _ => some (d + 1)
      | .eq, .upward => some (d + 1)
      | .eq, .toEven => some (if d % 2 = 0 then d else d + 1)

/-- An exponent with `x < 10 ^ e`, at most two above the least one: five digits of
the logarithm of two are enough over the range of doubles. -/
def coarsest (x : Binary) : Int :=
  ((x.significand.log2 : Int) + 1 + x.exponent) * 30103 / 100000 + 1

/-- All digits of `x`, when nothing shorter is wanted. -/
def exactDecimal (x : Binary) : Decimal :=
  ⟨x.significand * power 2 x.exponent.toNat * power 5 (-x.exponent).toNat, min x.exponent 0⟩

/-- The decimal with the fewest digits that reads back as `x`.  Seventeen digits
are enough for any double, so twenty grids are. -/
def shortest (tie : Tie) (x : Binary) : Decimal :=
  let grids := (List.range 20).map fun (k : Nat) => x.coarsest - (k : Int)
  (grids.findSome? fun e => (x.onGrid? tie e).map fun d => ⟨d, e⟩).getD x.exactDecimal

end Binary

end TwoPhase
