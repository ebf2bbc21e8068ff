/-
# `Number` — numbers as they are written and as they are read

A number is written as digits with an optional fraction and exponent.  One
without either is a whole number as long as it fits a machine word;
everything else is a double.  Its digits are collected into a word, those
that no longer fit only count towards the exponent or are dropped, and the
word is scaled by a power of ten.
-/
import TwoPhase.Decimal.Binary

namespace TwoPhase.Json

/-- A number as it is written: the digits of each part, without the signs and
marks between them. -/
structure Number where
  negative : Bool
  whole : List Nat
  fraction : Option (List Nat)
  exponent : Option (Bool × List Nat)
deriving DecidableEq, Repr

/-- A number as it is understood.  `negative n` is the number below zero with
magnitude `n`. -/
inductive Quantity where
  | natural (n : Nat)
  | negative (n : Nat)
  | real (x : Float)
deriving Repr

def powerOfTen (n : Nat) : Float := Float.ofScientific 1 false n

/-- Adds digits to a word as long as it can hold them; also gives the number of
digits left over. -/
def collect (word : Nat) : List Nat → Nat × Nat
  | [] => (word, 0)
  | d :: rest =>
      if word * 10 + d < wordValues then collect (word * 10 + d) rest
      else (word, rest.length + 1)

/-- A word times a power of ten, if that is a double.  Powers of ten end at 308;
below minus 616 nothing is left of any word. -/
def scaled (word : Nat) (e : Int) : Option Float :=
  let x := Float.ofNat word
  if 308 < e then
    if word = 0 then some x else none
  else if 0 ≤ e then
    let y := x * powerOfTen e.toNat
    if y.isInf then none else some y
  else if -308 ≤ e then
    some (x / powerOfTen (-e).toNat)
  else if -616 ≤ e then
    some (x / powerOfTen 308 / powerOfTen (-e - 308).toNat)
  else
    some 0

def ofDigits (digits : List Nat) : Nat := digits.foldl (fun n d => n * 10 + d) 0

namespace Number

/-- The word that the digits make up, and the power of ten it is to be scaled by
before the exponent counts. -/
def word (n : Number) : Nat × Int :=
  let (w, surplus) := collect 0 n.whole
  let places := n.fraction.getD []
  let (w, unused) := collect w places
  (w, (surplus : Int) + unused - places.length)

/-- The magnitude as a double, if there is one that large.  An exponent beyond
thirty-two bits is too large for any word but zero, or leaves nothing. -/
def magnitude (n : Number) : Option Float :=
  let (w, scale) := n.word
  match n.exponent with
  | none => scaled w scale
  | some (minus, digits) =>
      let e := ofDigits digits
      if power 2 31 ≤ e then
        if w ≠ 0 ∧ !minus then none else some 0
      else scaled w (if minus then scale - e else scale + e)

/-- What a number stands for; nothing if it is too large for a double.  Minus zero
is a double, and so is a whole number that does not fit a word. -/
def quantity (n : Number) : Option Quantity :=
  let value := ofDigits n.whole
  let real := n.magnitude.map fun x => Quantity.real (if n.negative then -x else x)
  if n.fraction.isSome ∨ n.exponent.isSome then real
  else if n.negative then
    if 1 ≤ value ∧ value ≤ power 2 63 then some (.negative value) else real
  else
    if value < wordValues then some (.natural value) else real

end Number

def Quantity.toFloat : Quantity → Float
  | .natural n => Float.ofNat n
  | .negative n => -Float.ofNat n
  | .real x => x

end TwoPhase.Json
