/-
# `Value` — JSON documents and how they are written

A document is written on one line without blanks, or with every element on
a line of its own, two blanks further in than what holds it.  Members keep
their order.  A number that is not finite is written `null`.
-/
import TwoPhase.Decimal.Notation

namespace TwoPhase.Json

/-- A document to be written. -/
inductive Value where
  | null
  | real (x : Float)
  | natural (n : Nat)
  | text (s : String)
  | array (items : List Value)
  | object (members : List (String × Value))

def hexDigit (n : Nat) : Char :=
  if n < 10 then Char.ofNat ('0'.toNat + n) else Char.ofNat ('a'.toNat + (n - 10))

/-- A character inside quotes: the quote, the backslash and the controls are
escaped, the commonest of these by a letter. -/
def escaped (c : Char) : List Char :=
  match c with
  | '"' => ['\\', '"']
  | '\\' => ['\\', '\\']
  | '\x08' => ['\\', 'b']
  | '\x0c' => ['\\', 'f']
  | '\n' => ['\\', 'n']
  | '\r' => ['\\', 'r']
  | '\t' => ['\\', 't']
  | c =>
      if c.toNat < 0x20 then
        ['\\', 'u', '0', '0', hexDigit (c.toNat / 16), hexDigit (c.toNat % 16)]
      else [c]

def quoted (s : String) : String :=
  String.ofList ('"' :: s.toList.flatMap escaped ++ ['"'])

def realText (x : Float) : String := (documentText? x).getD "null"

/-- A line feed and the blanks in front of what stands `depth` levels in. -/
def newline (depth : Nat) : String := "\n" ++ repeated (2 * depth) ' '

namespace Value

mutual

def compact : Value → String
  | .null => "null"
  | .real x => realText x
  | .natural n => toString n
  | .text s => quoted s
  | .array items => "[" ++ compactItems items ++ "]"
  | .object members => "\x7b" ++ compactMembers members ++ "\x7d"

def compactItems : List Value → String
  | [] => ""
  | [v] => v.compact
  | v :: rest => v.compact ++ "," ++ compactItems rest

def compactMembers : List (String × Value) → String
  | [] => ""
  | [(name, v)] => quoted name ++ ":" ++ v.compact
  | (name, v) :: rest => quoted name ++ ":" ++ v.compact ++ "," ++ compactMembers rest

end

mutual

/-- A document over several lines, itself standing `depth` levels in. -/
def pretty (depth : Nat) : Value → String
  | .null => "null"
  | .real x => realText x
  | .natural n => toString n
  | .text s => quoted s
  | .array [] => "[]"
  | .array (v :: rest) =>
      "[" ++ prettyItems (depth + 1) (v :: rest) ++ newline depth ++ "]"
  | .object [] => "\x7b\x7d"
  | .object (m :: rest) =>
      "\x7b" ++ prettyMembers (depth + 1) (m :: rest) ++ newline depth ++ "\x7d"

def prettyItems (depth : Nat) : List Value → String
  | [] => ""
  | [v] => newline depth ++ v.pretty depth
  | v :: rest => newline depth ++ v.pretty depth ++ "," ++ prettyItems depth rest

def prettyMembers (depth : Nat) : List (String × Value) → String
  | [] => ""
  | [(name, v)] => newline depth ++ quoted name ++ ": " ++ v.pretty depth
  | (name, v) :: rest =>
      newline depth ++ quoted name ++ ": " ++ v.pretty depth ++ "," ++ prettyMembers depth rest

end

end Value

/-- The member of an object with the given name. -/
def Value.member? (name : String) : Value → Option Value
  | .object members => members.lookup name
  | _ => none

end TwoPhase.Json
