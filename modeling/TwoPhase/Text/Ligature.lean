/-
# `Ligature` — letters that are written as one

A ligature is told from its last letter, and then from the letters and marks
before it.  The sets are those of Unicode 15.1.
-/
import TwoPhase.Text.Weightless

namespace TwoPhase

/-- The last letter of a ligature, or the last letters where it is made of three. -/
inductive LigatureEnd where
  /-- Hebrew lamed, after alef and a joiner. -/
  | lamed
  /-- Buginese ya, after the vowel sign i and a joiner. -/
  | ya
  /-- Buginese i and ya, after a. -/
  | yaWithVowel
  /-- A Tifinagh consonant, after another one and a joiner. -/
  | consonant
  /-- A Tifinagh consonant and the joiner of its script, after another consonant. -/
  | joinedConsonant
  /-- A Lisu tone letter, after another one. -/
  | tone
  /-- Old Turkic orkhon i, after orkhon ec and a joiner. -/
  | orkhonI
  /-- A Khmer letter that is written below the one before its sign. -/
  | subscript
deriving DecidableEq, Repr

/-- The letters that a lam before them takes in. -/
def alefRanges : CharRanges :=
  [(0x0622, 0x0623), (0x0625, 0x0625), (0x0627, 0x0627), (0x0671, 0x0673), (0x0675, 0x0675),
   (0x0773, 0x0774), (0x0870, 0x0882)]

/-- The letters that take in an alef after them. -/
def lamRanges : CharRanges :=
  [(0x0644, 0x0644), (0x06B5, 0x06B8), (0x076A, 0x076A), (0x08A6, 0x08A6), (0x08C7, 0x08C7)]

def consonantRanges : CharRanges := [(0x2D31, 0x2D65), (0x2D6F, 0x2D6F)]

/-- The Khmer letters with a form below the line. -/
def subscriptRanges : CharRanges :=
  [(0x1780, 0x1782), (0x1784, 0x1787), (0x1789, 0x178C), (0x178E, 0x1793), (0x1795, 0x1798),
   (0x179B, 0x179D), (0x17A0, 0x17A0), (0x17A2, 0x17A2), (0x17A7, 0x17A7), (0x17AB, 0x17AC),
   (0x17AF, 0x17AF)]

/-- The ignorable marks.  They may stand between the letters of a ligature. -/
def ignorableMarkRanges : CharRanges :=
  [(0x034F, 0x034F), (0x17B4, 0x17B5), (0x180B, 0x180D), (0x180F, 0x180F), (0xFE00, 0xFE0F),
   (0xE0100, 0xE01EF)]

/-- The weightless characters across which Arabic letters do not join: those whose
`Joining_Type` is not transparent. -/
def interruptingRanges : CharRanges :=
  [(0x0605, 0x0605), (0x0890, 0x0891), (0x08E2, 0x08E2), (0x09BE, 0x09BE), (0x09D7, 0x09D7),
   (0x0B3E, 0x0B3E), (0x0B57, 0x0B57), (0x0BBE, 0x0BBE), (0x0BD7, 0x0BD7), (0x0CC0, 0x0CC0),
   (0x0CC2, 0x0CC2), (0x0CC7, 0x0CC8), (0x0CCA, 0x0CCB), (0x0CD5, 0x0CD6), (0x0D3E, 0x0D3E),
   (0x0D4E, 0x0D4E), (0x0D57, 0x0D57), (0x0DCF, 0x0DCF), (0x0DDF, 0x0DDF), (0x1160, 0x11FF),
   (0x180E, 0x180E), (0x1B35, 0x1B35), (0x1B3B, 0x1B3B), (0x1B3D, 0x1B3D), (0x1B43, 0x1B43),
   (0x200C, 0x200D), (0x2065, 0x2069), (0x302E, 0x302F), (0x3164, 0x3164), (0xA8FA, 0xA8FA),
   (0xD7B0, 0xD7C6), (0xD7CB, 0xD7FB), (0xFF9E, 0xFFA0), (0xFFF0, 0xFFF8), (0x111C2, 0x111C3),
   (0x1133E, 0x1133E), (0x11357, 0x11357), (0x114B0, 0x114B0), (0x114BD, 0x114BD),
   (0x115AF, 0x115AF), (0x11930, 0x11930), (0x1193F, 0x1193F), (0x11941, 0x11941),
   (0x11A3A, 0x11A3A), (0x11A84, 0x11A89), (0x11D46, 0x11D46), (0x11F02, 0x11F02),
   (0x1D165, 0x1D165), (0x1D16E, 0x1D172), (0xE0000, 0xE0000), (0xE0002, 0xE001F),
   (0xE0080, 0xE00FF), (0xE01F0, 0xE0FFF)]

/-- May a character stand between a lam and the alef that it takes in? -/
def isTransparent (c : Char) : Bool := isWeightless c && !interruptingRanges.has c

/-- The ligature that a letter ends, if it ends one. -/
def LigatureEnd.of? (c : Char) : Option LigatureEnd :=
  match c.toNat with
  | 0x05DC => some .lamed
  | 0x1A10 => some .ya
  | 0xA4FC | 0xA4FD => some .tone
  | 0x10C03 => some .orkhonI
  | _ =>
      if consonantRanges.has c then some .consonant
      else if subscriptRanges.has c then some .subscript
      else none

end TwoPhase
