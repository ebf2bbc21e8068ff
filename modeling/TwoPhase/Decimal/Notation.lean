/-
# `Notation` — how numbers are written

Running text writes numbers positionally, however long they get.  Tableaux
and summaries write them with a set number of places.  Documents write the
fewest digits too, with an exponent for very large and very small numbers.
-/
import TwoPhase.Decimal.Shortest
import TwoPhase.Report

namespace TwoPhase

def repeated (n : Nat) (c : Char) : String := String.ofList (List.replicate n c)

/-- A minus sign in front where it is called for. -/
def signed (minus : Bool) (text : String) : String := if minus then "-" ++ text else text

/-- Sets the point `places` digits from the right, with at least one digit in
front of it.  No point is set where there are no places. -/
def setPoint (digits : String) (places : Nat) : String :=
  let padded := (repeated (places + 1 - digits.length) '0' ++ digits).toList
  if places = 0 then String.ofList padded
  else
    String.ofList (padded.take (padded.length - places)) ++ "." ++
      String.ofList (padded.drop (padded.length - places))

namespace Decimal

/-- Positional notation: zeros fill up to the point, and there is no point after
a whole number. -/
def positional (d : Decimal) : String :=
  setPoint (toString (d.digits * power 10 d.exponent.toNat)) (-d.exponent).toNat

/-- The power of ten of the leading digit. -/
def leading (d : Decimal) : Int := (toString d.digits).length + d.exponent - 1

/-- One digit before the point, the others after it, and an exponent that always
has a sign. -/
def scientific (d : Decimal) : String :=
  let mantissa := setPoint (toString d.digits) ((toString d.digits).length - 1)
  let e := d.leading
  mantissa ++ (if e < 0 then "e-" else "e+") ++ toString e.natAbs

end Decimal

/-- The text of a number in running text: the fewest digits that read back,
positional, a tie between two of them going upward. -/
def plainText (x : Float) : String :=
  match Magnitude.ofFloat x with
  | .notANumber => "NaN"
  | .infinite => signed (hasMinusSign x) "inf"
  | .finite b =>
      signed (hasMinusSign x) <|
        if b.significand = 0 then "0" else (b.shortest .upward).positional

instance : Numeral Float := ⟨plainText⟩

/-- The quotient rounded to the nearest whole number, a half to the even one. -/
def roundedQuotient (num den : Nat) : Nat :=
  let q := num / den
  match compare (2 * (num % den)) den with
  | .lt => q
  | .gt => q + 1
  | .eq => if q % 2 = 0 then q else q + 1

/-- The most places that a number can be written with. -/
def maxPlaces : Nat := 65535

/-- The text of a number with a set number of places: its exact value is rounded,
and the sign stays on a zero.  The exact value has no more places than it has
binary ones, so the digits after those are zeros. -/
def fixedText (places : Nat) (x : Float) : String :=
  match Magnitude.ofFloat x with
  | .notANumber => "NaN"
  | .infinite => signed (hasMinusSign x) "inf"
  | .finite b =>
      let exactPlaces := min places (-b.exponent).toNat
      let scaled := b.significand * power 2 b.exponent.toNat * power 10 exactPlaces
      let digits := toString (roundedQuotient scaled (power 2 (-b.exponent).toNat))
      signed (hasMinusSign x) (setPoint (digits ++ repeated (places - exactPlaces) '0') places)

/-- The text of a finite number in a document: positional from a hundred-thousandth
up to sixteen digits before the point, always with a decimal, and otherwise with
an exponent; a tie goes to even digits.  There is no text for other numbers. -/
def documentText? (x : Float) : Option String :=
  match Magnitude.ofFloat x with
  | .notANumber => none
  | .infinite => none
  | .finite b =>
      some <| signed (hasMinusSign x) <|
        if b.significand = 0 then "0.0"
        else
          let d := b.shortest .toEven
          if -5 ≤ d.leading ∧ d.leading ≤ 15 then
            if d.exponent < 0 then d.positional else d.positional ++ ".0"
          else d.scientific

end TwoPhase
