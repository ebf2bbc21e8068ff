/-
# `Token` — the words of a JSON text

A text is cut into brackets, separators and atoms up to its end or to the
first place where no token can be made out.  What is wrong there depends
on what the text is wanted for: a value that is only skipped is held to
less than one that is read.  So a broken atom remembers both verdicts, and
a quoted text keeps its pieces until it is known whether they matter.
-/
import TwoPhase.Json.Number

namespace TwoPhase.Json

/-- What a reader was looking for. -/
inductive Wanted where
  | record (name : String) (size : Nat)
  | sequence
  | count
  | number
  | unit
deriving DecidableEq, Repr

/-- What a reader found instead. -/
inductive Found where
  | null
  | bool (b : Bool)
  | quantity (q : Quantity)
  | text (s : String)
  | sequence
  | map
deriving Repr

/-- A document that is well formed and yet not the one wanted. -/
inductive Mismatch where
  | invalidType (found : Found) (wanted : Wanted)
  | invalidValue (found : Found) (wanted : Wanted)
  | invalidLength (found : Nat) (wanted : Wanted)
  | missingField (name : String)
  | duplicateField (name : String)
  | unknownVariant (found : String) (known : List String)
deriving Repr

/-- Why a text is refused. -/
inductive Refusal where
  | malformed
  | truncated
  | unsuitable (why : Mismatch)
deriving Repr

/-- A piece of a quoted text: a character, or a sixteen-bit unit given by its
number, which may be half of a character. -/
inductive Piece where
  | char (c : Char)
  | unit (n : Nat)
deriving DecidableEq, Repr

/-- A quoted text as far as it goes, and what breaks it off before its closing
quote. -/
structure Quoted where
  pieces : List Piece
  broken : Option Refusal
deriving Repr

/-- A value that holds no other. -/
inductive Atom where
  | null
  | bool (b : Bool)
  | number (n : Number)
  | text (q : Quoted)
  /-- No value can be made out here: why, to one who reads it and to one who
  skips it. -/
  | broken (toReader toSkipper : Refusal)
  /-- The text ends where a value must stand. -/
  | absent
deriving Repr

inductive Bracket where
  | square
  | curly
deriving DecidableEq, Repr

inductive Token where
  | opening (b : Bracket)
  | closing (b : Bracket)
  | comma
  | colon
  | atom (a : Atom)
deriving Repr

def Atom.misfit : Atom := .broken .malformed .malformed

/-! ## Numbers -/

/-- The digits at the front of a text, and the rest. -/
def splitDigits (s : List Char) : List Nat × List Char :=
  ((s.takeWhile Char.isDigit).map fun c => c.toNat - '0'.toNat, s.dropWhile Char.isDigit)

/-- A number that breaks off in front of `rest`.  Reading it could go on at the
end of the text; skipping it cannot. -/
def unfinishedNumber (rest : List Char) : Atom :=
  .broken (if rest.isEmpty then .truncated else .malformed) .malformed

/-- The fraction at the front of a text, if there is one. -/
def scanFraction : List Char → Except Atom (Option (List Nat) × List Char)
  | '.' :: s =>
      match splitDigits s with
      | ([], rest) => .error (unfinishedNumber rest)
      | (digits, rest) => .ok (some digits, rest)
  | s => .ok (none, s)

def scanExponentDigits (minus : Bool) (s : List Char) :
    Except Atom (Option (Bool × List Nat) × List Char) :=
  match splitDigits s with
  | ([], rest) => .error (unfinishedNumber rest)
  | (digits, rest) => .ok (some (minus, digits), rest)

def scanSignedExponent : List Char → Except Atom (Option (Bool × List Nat) × List Char)
  | '+' :: s => scanExponentDigits false s
  | '-' :: s => scanExponentDigits true s
  | s => scanExponentDigits false s

/-- The exponent at the front of a text, if there is one. -/
def scanExponent : List Char → Except Atom (Option (Bool × List Nat) × List Char)
  | 'e' :: s => scanSignedExponent s
  | 'E' :: s => scanSignedExponent s
  | s => .ok (none, s)

def scanUnsigned (negative : Bool) (s : List Char) : Except Atom (Number × List Char) :=
  match splitDigits s with
  | ([], rest) => .error (unfinishedNumber rest)
  | (0 :: _ :: _, _) => .error .misfit
  | (whole, rest) => do
      let (fraction, rest) ← scanFraction rest
      let (exponent, rest) ← scanExponent rest
      return (⟨negative, whole, fraction, exponent⟩, rest)

def scanNumber : List Char → Except Atom (Number × List Char)
  | '-' :: s => scanUnsigned true s
  | s => scanUnsigned false s

/-! ## Quoted texts -/

def hexValue? (c : Char) : Option Nat :=
  if c.isDigit then some (c.toNat - '0'.toNat)
  else if 'a' ≤ c ∧ c ≤ 'f' then some (c.toNat - 'a'.toNat + 10)
  else if 'A' ≤ c ∧ c ≤ 'F' then some (c.toNat - 'A'.toNat + 10)
  else none

def unitOf? (a b c d : Char) : Option Nat := do
  return (((← hexValue? a) * 16 + (← hexValue? b)) * 16 + (← hexValue? c)) * 16 + (← hexValue? d)

def unescaped? : Char → Option Char
  | '"' => some '"'
  | '\\' => some '\\'
  | '/' => some '/'
  | 'b' => some '\x08'
  | 'f' => some '\x0c'
  | 'n' => some '\n'
  | 'r' => some '\r'
  | 't' => some '\t'
  | _ => none

def Quoted.cut (r : Refusal) : Quoted × List Char := (⟨[], some r⟩, [])

def Quoted.cons (p : Piece) (scanned : Quoted × List Char) : Quoted × List Char :=
  (⟨p :: scanned.1.pieces, scanned.1.broken⟩, scanned.2)

/-- A quoted text from behind its opening quote, and what follows its closing one.
Four bytes are needed for the digits of a unit before they can be wrong. -/
def scanQuoted : List Char → Quoted × List Char
  | [] => Quoted.cut .truncated
  | '"' :: rest => (⟨[], none⟩, rest)
  | '\\' :: 'u' :: a :: b :: c :: d :: rest =>
      match unitOf? a b c d with
      | some n => Quoted.cons (.unit n) (scanQuoted rest)
      | none => Quoted.cut .malformed
  | '\\' :: 'u' :: rest =>
      Quoted.cut (if (String.ofList rest).utf8ByteSize < 4 then .truncated else .malformed)
  | '\\' :: c :: rest =>
      match unescaped? c with
      | some u => Quoted.cons (.char u) (scanQuoted rest)
      | none => Quoted.cut .malformed
  | ['\\'] => Quoted.cut .truncated
  | c :: rest =>
      if c.toNat < 0x20 then Quoted.cut .malformed else Quoted.cons (.char c) (scanQuoted rest)

def pairedChar (high low : Nat) : Char :=
  Char.ofNat ((high - 0xD800) * 0x400 + (low - 0xDC00) + 0x10000)

/-- The characters of the pieces.  A unit that is the first half of a character
needs the second right after it; where the text breaks off in between, that is
what is wrong with it. -/
def joinPieces (broken : Option Refusal) : List Piece → Except Refusal (List Char)
  | [] => match broken with
      | none => .ok []
      | some r => .error r
  | .char c :: rest => (c :: ·) <$> joinPieces broken rest
  | .unit n :: .unit m :: rest =>
      if n < 0xD800 ∨ 0xDFFF < n then (Char.ofNat n :: ·) <$> joinPieces broken (.unit m :: rest)
      else if n < 0xDC00 ∧ 0xDC00 ≤ m ∧ m ≤ 0xDFFF then
        (pairedChar n m :: ·) <$> joinPieces broken rest
      else .error .malformed
  | .unit n :: rest =>
      if n < 0xD800 ∨ 0xDFFF < n then (Char.ofNat n :: ·) <$> joinPieces broken rest
      else if n < 0xDC00 ∧ rest.isEmpty then .error (broken.getD .malformed)
      else .error .malformed

namespace Quoted

/-- The text itself, for one who reads it. -/
def read (q : Quoted) : Except Refusal String := String.ofList <$> joinPieces q.broken q.pieces

/-- Passes over the text; halves of characters do no harm then. -/
def skip (q : Quoted) : Except Refusal Unit :=
  match q.broken with
  | none => .ok ()
  | some r => .error r

end Quoted

/-! ## Tokens -/

/-- The rest of a word that stands for an atom. -/
def scanWord (a : Atom) : List Char → List Char → Atom × List Char
  | [], s => (a, s)
  | _ :: _, [] => (.broken .truncated .truncated, [])
  | e :: expected, c :: s => if c = e then scanWord a expected s else (.misfit, [])

def isBlank (c : Char) : Bool := c = ' ' || c = '\n' || c = '\t' || c = '\r'

def scanAtom (c : Char) (s : List Char) : Atom × List Char :=
  if c = '"' then
    let (q, rest) := scanQuoted s
    (.text q, rest)
  else if c = '-' ∨ c.isDigit then
    match scanNumber (c :: s) with
    | .ok (n, rest) => (.number n, rest)
    | .error a => (a, [])
  else if c = 'n' then scanWord .null ['u', 'l', 'l'] s
  else if c = 't' then scanWord (.bool true) ['r', 'u', 'e'] s
  else if c = 'f' then scanWord (.bool false) ['a', 'l', 's', 'e'] s
  else (.misfit, [])

/-- The token that starts with the given character, and the rest of the text.
Nothing is left behind a broken one. -/
def scanToken (c : Char) (s : List Char) : Token × List Char :=
  match c with
  | '[' => (.opening .square, s)
  | ']' => (.closing .square, s)
  | '\x7b' => (.opening .curly, s)
  | '\x7d' => (.closing .curly, s)
  | ',' => (.comma, s)
  | ':' => (.colon, s)
  | c =>
      let (a, rest) := scanAtom c s
      (.atom a, rest)

/-- The tokens of a text; `fuel` is at least its length. -/
def tokensWithin : (fuel : Nat) → List Char → List Token
  | _, [] => []
  | 0, _ => []
  | fuel + 1, c :: s =>
      if isBlank c then tokensWithin fuel s
      else
        let (t, rest) := scanToken c s
        t :: tokensWithin fuel rest

/-- The tokens of a text.  Every token takes at least one character. -/
def tokens (s : List Char) : List Token := tokensWithin s.length s

end TwoPhase.Json
