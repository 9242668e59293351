import LdpScore.Settings

/-!
# Styled output

Output is a list of pieces of text, each in a style.  On a screen that shows
colors, a control sequence before each piece resets the style and sets the new
one.
-/

namespace LdpScore.CommandLine

/-- How a piece of text stands out. -/
inductive Style where
  | plain
  | faint
  | success
  | warning
  | failure
deriving DecidableEq, Repr

/-- The control codes of a style: bold is 1, faint 2, red 31, green 32 and yellow
33; 0 resets what was set before. -/
def Style.codes : Style → List Nat
  | .plain => [0]
  | .faint => [0, 2]
  | .success => [0, 32]
  | .warning => [0, 1, 33]
  | .failure => [0, 1, 31]

/-- The control sequences that set a style. -/
def Style.sequence (style : Style) : String :=
  String.join (style.codes.map fun code => "\x1b[" ++ toString code ++ "m")

/-- A piece of text in a style. -/
structure Piece where
  style : Style
  text : String
deriving DecidableEq, Repr

/-- Whether a screen shows colors when nobody has chosen: if its kind is known and
not `dumb`, and colors are not turned off altogether. -/
def supportsColor (terminal noColor : Option String) : Bool :=
  noColor.isNone && terminal.any fun kind => kind != "dumb"

def isColored (choice : ColorChoice) (screenSupportsColor : Bool) : Bool :=
  match choice with
  | .always => true
  | .never => false
  | .auto => screenSupportsColor

/-- Pieces of text as they are written to a screen. -/
def render (isColored : Bool) (pieces : List Piece) : String :=
  String.join (pieces.map fun piece =>
    if isColored then piece.style.sequence ++ piece.text else piece.text)

end LdpScore.CommandLine
