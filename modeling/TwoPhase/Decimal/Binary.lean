/-
# `Binary` — the exact value of a double

A finite double is a whole number times a power of two, and so is every
question of how to write it a question about whole numbers.
-/

namespace TwoPhase

def power (base e : Nat) : Nat := Nat.pow base e

/-- The number of values of a machine word of sixty-four bits. -/
def wordValues : Nat := power 2 64

/-- The non-negative number `significand * 2 ^ exponent`.  Just above a power of
two the doubles lie twice as close below as above: `narrowBelow` says so. -/
structure Binary where
  significand : Nat
  exponent : Int
  narrowBelow : Bool
deriving DecidableEq, Repr

inductive Magnitude where
  | finite (value : Binary)
  | infinite
  | notANumber
deriving DecidableEq, Repr

namespace Magnitude

/-- Takes the magnitude from the fields of the bit pattern: eleven bits of
exponent above fifty-two of fraction. -/
def ofBits (bits : Nat) : Magnitude :=
  let fraction : Nat := bits % power 2 52
  let biased : Nat := bits / power 2 52 % power 2 11
  if biased = 2047 then
    if fraction = 0 then .infinite else .notANumber
  else if biased = 0 then
    .finite ⟨fraction, -1074, false⟩
  else
    .finite ⟨power 2 52 + fraction, (biased : Int) - 1075, fraction = 0 ∧ 1 < biased⟩

def ofFloat (x : Float) : Magnitude := ofBits x.toBits.toNat

end Magnitude

/-- Is the sign bit set?  Minus zero has it too. -/
def hasMinusSign (x : Float) : Bool := power 2 63 ≤ x.toBits.toNat

end TwoPhase
