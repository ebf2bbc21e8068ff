/-
# `Style` — colours on a terminal

A styled text stands between a control sequence that sets the style and one
that resets it.  Both are part of the text wherever its width is taken.
-/

namespace TwoPhase

inductive Style where
  | bold
  | boldYellow
  | boldGreen
  | boldRed
  | cyan
deriving DecidableEq, Repr

namespace Style

def code : Style → String
  | .bold => "1"
  | .boldYellow => "1;33"
  | .boldGreen => "1;32"
  | .boldRed => "1;31"
  | .cyan => "36"

/-- The text in a style, where colours are wanted. -/
def paint (style : Style) (color : Bool) (text : String) : String :=
  if color then "\x1b[" ++ style.code ++ "m" ++ text ++ "\x1b[0m" else text

end Style

end TwoPhase
