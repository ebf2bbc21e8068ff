/-
# `Refusal` — what is said of a document that is not the one wanted
-/
import TwoPhase.Json.Token
import TwoPhase.Decimal.Notation
import TwoPhase.Text.Unprinted

namespace TwoPhase.Json

def marked (s : String) : String := "`" ++ s ++ "`"

def Wanted.words : Wanted → String
  | .record name _ => "struct " ++ name
  | .sequence => "a sequence"
  | .count => "usize"
  | .number => "f64"
  | .unit => "unit"

def hexText (n : Nat) : String := String.ofList (Nat.toDigits 16 n)

/-- Characters that a quoted text shows by their number, because by themselves they
would not be seen. -/
def isShownByNumber (c : Char) : Bool := isCombining c || isIgnorable c || isUnprinted c

def shown (c : Char) : String :=
  match c with
  | '"' => "\\\""
  | '\\' => "\\\\"
  | '\n' => "\\n"
  | '\r' => "\\r"
  | '\t' => "\\t"
  | '\x00' => "\\0"
  | c => if isShownByNumber c then "\\u\x7b" ++ hexText c.toNat ++ "\x7d" else c.toString

def shownText (s : String) : String := "\"" ++ String.join (s.toList.map shown) ++ "\""

def Found.words : Found → String
  | .null => "null"
  | .bool b => "boolean " ++ marked (if b then "true" else "false")
  | .quantity (.natural n) => "integer " ++ marked (toString n)
  | .quantity (.negative n) => "integer " ++ marked ("-" ++ toString n)
  | .quantity (.real x) => "floating point " ++ marked ((documentText? x).getD "null")
  | .text s => "string " ++ shownText s
  | .sequence => "sequence"
  | .map => "map"

/-- The words for the known variants: two are joined by `or`, more are listed. -/
def variantsText : List String → String
  | [a] => marked a
  | [a, b] => marked a ++ " or " ++ marked b
  | names => "one of " ++ ", ".intercalate (names.map marked)

/-- The number of elements that a record is made of, as it is wanted. -/
def sizedText : Wanted → String
  | .record name size => s!"struct {name} with {size} elements"
  | w => w.words

def Mismatch.message : Mismatch → String
  | .invalidType found wanted => s!"invalid type: {found.words}, expected {wanted.words}"
  | .invalidValue found wanted => s!"invalid value: {found.words}, expected {wanted.words}"
  | .invalidLength found wanted => s!"invalid length {found}, expected {sizedText wanted}"
  | .missingField name => "missing field " ++ marked name
  | .duplicateField name => "duplicate field " ++ marked name
  | .unknownVariant found known =>
      "unknown variant " ++ marked found ++ ", expected " ++ variantsText known

end TwoPhase.Json
