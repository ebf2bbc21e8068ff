/-
# `Reading` — numbers on a command line
-/
import TwoPhase.Decimal.Binary

namespace TwoPhase

/-- The digits at the front of a text and the rest. -/
def leadingDigits (s : List Char) : List Char × List Char :=
  (s.takeWhile Char.isDigit, s.dropWhile Char.isDigit)

def digitsValue (s : List Char) : Nat := s.foldl (fun n c => n * 10 + (c.toNat - '0'.toNat)) 0

/-- A natural number that fits a machine word; a plus sign may stand in front. -/
def readCount (s : String) : Option Nat :=
  let digits := match s.toList with
    | '+' :: rest => rest
    | all => all
  if digits.isEmpty || !digits.all Char.isDigit then none
  else
    let n := digitsValue digits
    if n < wordValues then some n else none

/-- The double nearest to `m * 10 ^ e`.  A magnitude far outside the range of doubles
is settled without computing the power. -/
def nearestDouble (m : Nat) (digits : Nat) (e : Int) : Float :=
  if m = 0 ∨ digits + e < -400 then 0
  else if 400 < e then Float.ofScientific 1 false 400
  else Float.ofScientific m (e < 0) e.natAbs

/-- Takes a sign off the front of a text. -/
def splitSign : List Char → Bool × List Char
  | '-' :: rest => (true, rest)
  | '+' :: rest => (false, rest)
  | all => (false, all)

/-- The exponent that makes up a text, zero where there is none. -/
def readExponent (s : List Char) : Option Int :=
  match s with
  | [] => some 0
  | c :: rest =>
      let (minus, digits) := splitSign rest
      if (c = 'e' ∨ c = 'E') ∧ !digits.isEmpty ∧ digits.all Char.isDigit then
        some (if minus then -(digitsValue digits : Int) else digitsValue digits)
      else none

/-- An unsigned decimal number: digits with a point in front of, among or behind
them, and an exponent. -/
def readUnsigned (s : List Char) : Option Float := do
  let (whole, rest) := leadingDigits s
  let (fraction, rest) := match rest with
    | '.' :: rest => leadingDigits rest
    | rest => ([], rest)
  guard (!(whole ++ fraction).isEmpty)
  let e ← readExponent rest
  let digits := whole ++ fraction
  return nearestDouble (digitsValue digits) digits.length (e - fraction.length)

/-- A double with an optional sign: a decimal number, infinity or no number, the
words for these in letters of either case. -/
def readDouble (s : String) : Option Float :=
  let (minus, body) := splitSign s.toList
  let magnitude := match String.ofList (body.map Char.toLower) with
    | "inf" => some (1.0 / 0.0)
    | "infinity" => some (1.0 / 0.0)
    | "nan" => some (0.0 / 0.0)
    | _ => readUnsigned body
  magnitude.map fun x => if minus then -x else x

end TwoPhase
