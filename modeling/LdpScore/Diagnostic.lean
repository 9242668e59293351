import LdpScore.Problem
import LdpScore.Token

/-!
# Diagnostics and syntax errors

A diagnostic is a problem at a location.  A syntax error is the end of reading:
the text is not well formed, and there is nothing to analyse.
-/

namespace LdpScore

/-- A problem with the place where it was found. -/
structure Diagnostic where
  problem : Problem
  location : Location
deriving DecidableEq, Repr

namespace Diagnostic

def line (diagnostic : Diagnostic) : Nat :=
  diagnostic.location.line

def message (diagnostic : Diagnostic) : String :=
  diagnostic.problem.message

/-- The problem in words, after its line. -/
def describe (diagnostic : Diagnostic) : String :=
  s!"Line {diagnostic.line}. {diagnostic.message}"

end Diagnostic

/-- What the reader of a tree was looking for. -/
inductive Expectation where
  | openParenthesis
  | elementName
  | closeParenthesis
  | endOfFile
deriving DecidableEq, Repr, Inhabited

def Expectation.message : Expectation → String
  | .openParenthesis => "Expected '('."
  | .elementName => "Expected element name."
  | .closeParenthesis => "Expected ')'."
  | .endOfFile => "Expected end of file."

/-- Why a text is not well formed. -/
inductive SyntaxError where
  | unexpectedEndOfFile (expected : Expectation) (lastLocation : Location)
  | lexical (error : LexicalError) (expected : Expectation) (location : Location)
  | unexpectedToken (expected : Expectation) (location : Location)
  | unbalancedParenthesis (location : Location)
  | tooDeep (location : Location)
deriving DecidableEq, Repr

namespace SyntaxError

/-- The number under which an error is documented. -/
def code : SyntaxError → Nat
  | .lexical .unexpectedCharacter _ _ => 110
  | .lexical .unterminatedString _ _ => 111
  | .unexpectedEndOfFile _ _ => 300
  | .unexpectedToken _ _ => 301
  | .unbalancedParenthesis _ => 302
  | .tooDeep _ => 380

def title : SyntaxError → String
  | .lexical .unexpectedCharacter _ _ => "Unexpected character"
  | .lexical .unterminatedString _ _ => "Unterminated string"
  | .unexpectedEndOfFile _ _ => "Unexpected end of file"
  | .unexpectedToken _ _ => "Unexpected token"
  | .unbalancedParenthesis _ => "Unbalanced parenthesis"
  | .tooDeep _ => "Maximum parse depth exceeded"

/-- What was expected instead, where that can be said. -/
def expected? : SyntaxError → Option Expectation
  | .unexpectedEndOfFile expected _ => some expected
  | .lexical _ expected _ => some expected
  | .unexpectedToken expected _ => some expected
  | .unbalancedParenthesis _ => none
  | .tooDeep _ => none

/-- The place of an error: where the offending token stands, or the last token
before the end of the file. -/
def location : SyntaxError → Location
  | .unexpectedEndOfFile _ location => location
  | .lexical _ _ location => location
  | .unexpectedToken _ location => location
  | .unbalancedParenthesis location => location
  | .tooDeep location => location

end SyntaxError

end LdpScore
