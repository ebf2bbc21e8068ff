/-
# `Scalar` — the arithmetic of a tableau

The simplex method adds, multiplies, divides and compares numbers, and it
does so in a fixed order.  `Scalar` lists those operations and assumes no
law of them, so one and the same solver runs on machine doubles, where
the laws fail, and on exact rationals, where they hold.  What is true of
every run whatever the operations return is stated for an arbitrary
scalar; what needs arithmetic is stated for `Rat`.
-/

namespace TwoPhase

/-- The operations on numbers that the solver performs, with no law
assumed of them. -/
class Scalar (α : Type) extends
    Zero α, One α, Add α, Sub α, Mul α, Div α, Neg α, LT α, LE α, BEq α where
  /-- The magnitude of a number. -/
  abs : α → α
  /-- Is this a number that a problem may be stated with? -/
  isFinite : α → Bool
  /-- Strict comparison is decided. -/
  decidableLT : DecidableLT α
  /-- Weak comparison is decided. -/
  decidableLE : DecidableLE α

attribute [reducible, instance] Scalar.decidableLT Scalar.decidableLE

instance : Scalar Float where
  zero := 0
  one := 1
  toAdd := instAddFloat
  toSub := instSubFloat
  toMul := instMulFloat
  toDiv := instDivFloat
  toNeg := instNegFloat
  toLT := instLTFloat
  toLE := instLEFloat
  toBEq := instBEqFloat
  abs := Float.abs
  isFinite := Float.isFinite
  decidableLT := fun a b => Float.decLt a b
  decidableLE := fun a b => Float.decLe a b

instance : Scalar Rat where
  zero := 0
  one := 1
  toAdd := Rat.instAdd
  toSub := Rat.instSub
  toMul := Rat.instMul
  toDiv := Rat.instDiv
  toNeg := Rat.instNeg
  toLT := Rat.instLT
  toLE := Rat.instLE
  toBEq := instBEqOfDecidableEq
  abs := fun x => if x < 0 then -x else x
  isFinite := fun _ => true
  decidableLT := fun a b => Rat.instDecidableLt a b
  decidableLE := fun a b => Rat.instDecidableLe a b

section

variable {α : Type} [Scalar α]

/-- `a` lies more than `tol` above `b`.  Numbers within `tol` of each other
count as tied, and so do numbers that cannot be compared. -/
def Exceeds (tol a b : α) : Prop := ¬ Scalar.abs (a - b) ≤ tol ∧ b < a

instance (tol a b : α) : Decidable (Exceeds tol a b) :=
  inferInstanceAs (Decidable (_ ∧ _))

/-- The sum of the products of two lists, added from the left up to the end
of the shorter one.  It starts from minus zero, the number that leaves
every sum as it is. -/
def dot (xs ys : List α) : α := (List.zipWith (· * ·) xs ys).foldl (· + ·) (-0)

end

end TwoPhase
