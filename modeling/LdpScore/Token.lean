import LdpScore.Source.Position
import LdpScore.Text.Numeric
import LdpScore.Text.Quoted

/-!
# Tokens

The tokens of LDP text are parentheses, labels, numbers and quoted texts.  A
word is a run of label characters; it is a number when it has the form
`[+-]digits[.digits]` and a label otherwise, so the two never overlap.
-/

namespace LdpScore

/-- One token of LDP text. -/
inductive Token where
  | parenLeft
  | parenRight
  | label (text : String)
  | number (text : String)
  | quoted (content : String)
deriving DecidableEq, Repr

/-- Why a piece of text is no token. -/
inductive LexicalError where
  | unexpectedCharacter
  | unterminatedString
deriving DecidableEq, Repr

/-- A token, or a piece of text that is none, with its location. -/
structure LexedToken where
  result : Except LexicalError Token
  location : Location

namespace Token

/-- Whether a character may begin a label. -/
def isLabelStart (character : Char) : Bool :=
  Text.isAlphabetic character || character == '[' || character == '|' || character == '*' ||
    character == '#' || character == '_'

/-- Whether a character may continue a label. -/
def isLabelChar (character : Char) : Bool :=
  Text.isAlphanumeric character || character == '_' || character == '.' || character == '+' ||
    character == '-' || character == '#' || character == '/' || character == '=' ||
    character == '\'' || character == ']' || character == '|' || character == '*'

/-- Whether a character may begin a word, be it a label or a number. -/
def isWordStart (character : Char) : Bool :=
  character.isDigit || character == '+' || character == '-' || character == '=' ||
    isLabelStart character

/-- Whether a list of characters has the form `digits[.digits]`, with at least
one digit before the point. -/
def isUnsignedNumber (word : List Char) : Bool :=
  !(word.takeWhile Char.isDigit).isEmpty &&
    match word.dropWhile Char.isDigit with
    | [] => true
    | '.' :: fraction => fraction.all Char.isDigit
    | _ => false

/-- Whether a list of characters has the form `[+-]digits[.digits]`. -/
def isNumberWord : List Char → Bool
  | '+' :: rest => isUnsignedNumber rest
  | '-' :: rest => isUnsignedNumber rest
  | word => isUnsignedNumber word

def ofWord (word : List Char) : Token :=
  if isNumberWord word then .number (String.ofList word) else .label (String.ofList word)

/-- The name of the kind of token, with its text where it has one. -/
def describe : Token → String
  | .parenLeft => "ParenLeft"
  | .parenRight => "ParenRight"
  | .label text => "Label(" ++ Text.quoted text ++ ")"
  | .number text => "Number(" ++ Text.quoted text ++ ")"
  | .quoted content => "Text(" ++ Text.quoted content ++ ")"

end Token

end LdpScore
