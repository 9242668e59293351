import LdpScore.Token

/-!
# From text to tokens

Lexing goes in two passes.  The first, `lexemes`, walks over the characters once
and cuts them into pieces; a label directly followed by a colon is marked as
compact.  The second, `closeCompact`, writes out compact notation: `name:value`
reads as `(name value)`, with an opening parenthesis at the label and a closing
one after the next token that is not itself an opening parenthesis.
-/

namespace LdpScore.Token

/-- What begins at a character: a token or an error, or nothing for blanks and
comments.  The number counts the characters after the first that belong to it. -/
abbrev Piece := Option (Except LexicalError Token) × Nat

/-- A quoted text whose characters after the opening quote are `rest`. -/
def scanText (delimiter : Char) (rest : List Char) : Except LexicalError Token × Nat :=
  let content := rest.takeWhile (· != delimiter)
  if (rest.drop content.length).isEmpty then (.error .unterminatedString, content.length)
  else (.ok (.quoted (String.ofList content)), content.length + 1)

/-- The piece that begins at the character `first` before `rest`. -/
def scan (first : Char) (rest : List Char) : Piece :=
  if first == ' ' || first == '\t' || first == '\r' || first == '\n' then (none, 0)
  else if first == '/' && rest.head? == some '/' then
    (none, (rest.takeWhile (· != '\n')).length)
  else if first == '(' then (some (.ok .parenLeft), 0)
  else if first == ')' then (some (.ok .parenRight), 0)
  else if first == '"' || first == '\'' then
    let (result, length) := scanText first rest
    (some result, length)
  else if first == '_' && rest.head? == some '"' then
    let (result, length) := scanText '"' rest.tail
    (some result, length + 1)
  else if isWordStart first then
    let others := rest.takeWhile isLabelChar
    (some (.ok (ofWord (first :: others))), others.length)
  else (some (.error .unexpectedCharacter), 0)

/-- A piece of text with its location. -/
structure Lexeme where
  result : Except LexicalError Token
  location : Location
  /-- Whether it is a label with a colon right after it. -/
  isCompact : Bool

def isLabel : Except LexicalError Token → Bool
  | .ok (.label _) => true
  | _ => false

/-- The pieces of a text that starts at `position`.  The first `covered`
characters belong to a piece that was cut out before. -/
def lexemes (file : String) : Position → Nat → List Char → List Lexeme
  | _, _, [] => []
  | position, covered + 1, first :: rest => lexemes file (position.next first) covered rest
  | position, 0, first :: rest =>
      match scan first rest with
      | (none, length) => lexemes file (position.next first) length rest
      | (some result, length) =>
          let location := Location.between file position (position.offset + 1 + length)
          let isCompact := isLabel result && (rest.drop length).head? == some ':'
          let skipped := if isCompact then length + 1 else length
          ⟨result, location, isCompact⟩ :: lexemes file (position.next first) skipped rest

/-- Whether a piece leaves a compact label waiting for its value. -/
def isParenLeft : Except LexicalError Token → Bool
  | .ok .parenLeft => true
  | _ => false

/-- Writes out compact notation.  The flag says whether a closing parenthesis is
due after the next value. -/
def closeCompact : Bool → List Lexeme → List LexedToken
  | _, [] => []
  | due, ⟨result, location, isCompact⟩ :: rest =>
      if isCompact then
        ⟨.ok .parenLeft, location⟩ :: ⟨result, location⟩ :: closeCompact true rest
      else if due && !isParenLeft result then
        ⟨result, location⟩ :: ⟨.ok .parenRight, location⟩ :: closeCompact false rest
      else ⟨result, location⟩ :: closeCompact due rest

def lex (source file : String) : List LexedToken :=
  closeCompact false (lexemes file {} 0 source.toList)

end LdpScore.Token
