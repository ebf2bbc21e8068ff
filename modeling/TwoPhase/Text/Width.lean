/-
# `Width` — how many cells a text takes on a terminal

Most characters take as many cells wherever they stand.  A ligature takes the
cells of one letter, and a picture put together from several characters takes
the cells of one picture.  Both are told from their ends: the characters are
taken from the last to the first, and what has been met on the way is
remembered as far as it bears on the character before it.
-/
import TwoPhase.Text.Emoji
import TwoPhase.Text.Ligature
import TwoPhase.Text.Wide

namespace TwoPhase

/-! ## Single characters -/

/-- The cells that a character takes when it is alone. -/
def charWidth (c : Char) : Nat :=
  if c = '\n' then 0
  else if c.toNat ≤ 0xA0 then 1
  else if c.toNat = 0x17D8 then 3
  else if c.toNat = 0x17A4 then 2
  else if isWeightless c then 0
  else if isWide c then 2
  else 1

/-! ## What follows a character -/

/-- What a text goes on with, as far as it bears on the width of the character before.
A picture is *tied* when a joiner stands before it. -/
inductive Following where
  /-- Nothing that matters. -/
  | other
  /-- A line feed, which makes one end of line with a carriage return. -/
  | lineFeed
  /-- An alef, which a lam takes in. -/
  | alef
  /-- The end of a ligature; `joined` tells whether a joiner stands before it. -/
  | ligature (tail : LigatureEnd) (joined : Bool)
  /-- A picture. -/
  | picture
  /-- A tone of skin. -/
  | skinTone
  /-- A letter of a flag. -/
  | indicator
  /-- Two or more letters of flags. -/
  | indicators
  /-- A tied picture. -/
  | tied
  /-- The frame of a key before a tied picture. -/
  | tiedFrame
  /-- A letter of a flag before a tied picture. -/
  | tiedIndicator
  /-- Two or more letters of flags before a tied picture. -/
  | tiedIndicators (even : Bool)
  /-- The tags that spell a region's flag, digits before letters, and a tied picture. -/
  | tiedTags (digits letters : Nat)
deriving DecidableEq, Repr

namespace Following

/-- What a text goes on with when it goes on with a character. -/
def of (c : Char) : Following :=
  if c = '\n' then .lineFeed
  else if c.toNat ≤ 0xA0 then .other
  else if isIndicator c then .indicator
  else if isSkinTone c then .skinTone
  else if isPictograph c then .picture
  else if alefRanges.has c then .alef
  else match LigatureEnd.of? c with
    | some tail => .ligature tail false
    | none => .other

/-- Is it letters that wait for another one, which selectors do not keep off? -/
def isLetter : Following → Bool
  | .alef | .ligature .. => true
  | _ => false

/-- Is it a tied picture that wants a character with a selector before it? -/
def wantsSelector : Following → Bool
  | .tied | .tiedFrame => true
  | _ => false

end Following

def isJoiner (c : Char) : Bool := c.toNat = 0x200D

/-- The cells that a character adds before the end of a ligature, and what is then
waited for; nothing when it does not belong to the ligature. -/
def LigatureEnd.before? (c : Char) (joined : Bool) : LigatureEnd → Option (Int × Following)
  | .lamed => if joined && c.toNat = 0x05D0 then some (0, .other) else none
  | .ya =>
      if joined && c.toNat = 0x1A17 then some (0, .ligature .yaWithVowel true) else none
  | .yaWithVowel => if c.toNat = 0x1A15 then some (0, .other) else none
  | .consonant =>
      if c.toNat = 0x2D7F then some (1, .ligature .joinedConsonant true)
      else if joined && consonantRanges.has c then some (0, .other)
      else none
  | .joinedConsonant => if consonantRanges.has c then some (-1, .other) else none
  | .tone => if 0xA4F8 ≤ c.toNat && c.toNat ≤ 0xA4FB then some (0, .other) else none
  | .orkhonI => if joined && c.toNat = 0x10C32 then some (0, .other) else none
  | .subscript => if c.toNat = 0x17D2 then some (-1, .other) else none

/-- What is waited for after one more tag before those of a flag.  A region is three
digits and at most four letters, or three to six letters, after a black flag. -/
def tagsBefore? (c : Char) (digits letters : Nat) : Option Following :=
  if 0xE0061 ≤ c.toNat && c.toNat ≤ 0xE007A && digits = 0 && letters < 6 then
    some (.tiedTags 0 (letters + 1))
  else if 0xE0030 ≤ c.toNat && c.toNat ≤ 0xE0039 && digits < 3 && letters ≤ 4 then
    some (.tiedTags (digits + 1) letters)
  else if c.toNat = 0x1F3F4 && (digits = 3 || digits = 0 && 3 ≤ letters) then some .picture
  else none

/-- The cells that a character adds to what follows it, and what it makes of that.
A character that has to do with what follows may add none, or take one back. -/
def Following.before (c : Char) (following : Following) : Int × Following :=
  let alone : Int × Following := (charWidth c, .of c)
  match following with
  | .other | .tiedFrame => alone
  | .lineFeed => if c = '\r' then (0, .other) else alone
  | .alef =>
      if lamRanges.has c then (0, .other)
      else if isTransparent c then (0, .alef)
      else alone
  | .ligature tail joined =>
      if isJoiner c then (0, .ligature tail true)
      else if ignorableMarkRanges.has c then (0, .ligature tail joined)
      else (tail.before? c joined).getD alone
  | .picture => if isJoiner c then (0, .tied) else alone
  | .skinTone =>
      if takesSkinTone c then (0, .picture)
      else if isJoiner c then (0, .tied)
      else alone
  | .indicator => if isIndicator c then (1, .indicators) else alone
  | .indicators =>
      if isIndicator c then (1, .indicators)
      else if isJoiner c then (0, .tied)
      else alone
  | .tied =>
      if c.toNat = 0x20E3 then (0, .tiedFrame)
      else if isIndicator c then (1, .tiedIndicator)
      else if isSkinTone c then (0, .skinTone)
      else if c.toNat = 0xE007F then (0, .tiedTags 0 0)
      else if isPictograph c then (0, .picture)
      else alone
  | .tiedIndicator => if isIndicator c then (-1, .tiedIndicators true) else alone
  | .tiedIndicators even =>
      if isIndicator c then (if even then 3 else -1, .tiedIndicators !even)
      else if isJoiner c then (0, .tied)
      else alone
  | .tiedTags digits letters =>
      match tagsBefore? c digits letters with
      | some f => (0, f)
      | none => alone

/-! ## Selectors -/

/-- The two ways in which a selector asks for a character. -/
inductive Presentation where
  | text
  | emoji
deriving DecidableEq, Repr

/-- What follows a character, and the selector that stands between them. -/
structure Context where
  following : Following
  selector : Option Presentation
deriving DecidableEq, Repr

namespace Context

def nothing : Context := ⟨.other, none⟩

/-- The cells that a character adds in its context, and the context that it makes for
the character before it.  A selector that has no say over its character is passed over,
and what it then stands before is letters or nothing. -/
def before (c : Char) (k : Context) : Int × Context :=
  if k.selector = some .emoji && hasEmojiStyle c then
    (if k.following.wantsSelector then 0 else 2, ⟨.picture, none⟩)
  else if k.selector = some .text && hasTextStyle c then (1, nothing)
  else
    let following :=
      if k.selector.isNone || k.following.isLetter then k.following else .other
    match c.toNat with
    | 0xFE0F =>
        let kept := following.isLetter || following.wantsSelector
        (0, ⟨if kept then following else .other, some .emoji⟩)
    | 0xFE0E => (0, ⟨if following.isLetter then following else .other, some .text⟩)
    | _ =>
        let (width, following) := following.before c
        (width, ⟨following, none⟩)

end Context

/-! ## Texts -/

/-- The cells that the characters of a text take, and the context that they make. -/
def measure (s : List Char) : Int × Context :=
  s.foldr (fun c (width, k) => let (more, k) := k.before c; (width + more, k)) (0, .nothing)

def textWidth (s : String) : Nat := (measure s.toList).1.toNat

end TwoPhase
