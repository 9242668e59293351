import LdpScore.Text.Hexadecimal

/-!
# Lines of settings

A settings file consists of lines `key = value`, blank lines and comments that
start with `#`.  A key is a bare word or a quoted text.  A value is a truth value,
a quoted text or the name of a choice.  Texts in double quotes have escapes and
texts in single quotes have none; either kind may run over several lines between
tripled quotes.  A choice is named by an empty table, as in
`key = { name = {} }`, or by a section `[key.name]` that is alone in its file.

`readLines` reads a whole file.  It gives nothing if any line has another form.
-/

namespace LdpScore.Settings

/-- A value of a setting. -/
inductive Value where
  | flag (value : Bool)
  | text (value : List Char)
  | choice (name : List Char)
deriving DecidableEq, Repr

/-- The name that a value other than a truth value gives. -/
def Value.name? : Value → Option String
  | flag _ => none
  | text value => some (String.ofList value)
  | choice name => some (String.ofList name)

/-- A key with its value. -/
abbrev Line := List Char × Value

/-! ## Characters -/

/-- Whether a character is a blank within a line. -/
def isBlank (character : Char) : Bool :=
  character == ' ' || character == '\t'

/-- Whether a character may stand in a comment. -/
def isCommentChar (character : Char) : Bool :=
  character == '\t' || ' ' ≤ character

/-- Whether a character may stand in a quoted text as itself. -/
def isTextChar (character : Char) : Bool :=
  isCommentChar character && character != '\x7f'

/-- Whether a character may stand in a bare word. -/
def isWordChar (character : Char) : Bool :=
  character.isAlphanum || character == '_' || character == '-'

/-- The character whose number is written with hexadecimal digits. -/
def charOfHex? (digits : List Char) : Option Char := do
  let values ← digits.mapM Text.hexDigit?
  let code := values.foldl (fun code value => 16 * code + value) 0
  if code.isValidChar then some (Char.ofNat code) else none

/-- The character for which one letter after a backslash stands. -/
def escaped? : Char → Option Char
  | '"' => some '"'
  | '\\' => some '\\'
  | 'b' => some '\x08'
  | 'f' => some '\x0c'
  | 'n' => some '\n'
  | 'r' => some '\r'
  | 't' => some '\t'
  | _ => none

/-- A text in which every line ends with a line feed alone. -/
def unifyLineEnds : List Char → List Char
  | '\r' :: '\n' :: rest => '\n' :: unifyLineEnds rest
  | first :: rest => first :: unifyLineEnds rest
  | [] => []

/-! ## Quoted texts -/

/-- Puts a character in front of a text that was read. -/
def prepend (character : Char) : Option (List Char × List Char) → Option (List Char × List Char) :=
  Option.map fun (content, rest) => (character :: content, rest)

/-- A text between single delimiters, after the opening one.  Each result is the
text and what follows it. -/
def plainText (delimiter : Char) : List Char → Option (List Char × List Char)
  | [] => none
  | first :: rest =>
      if first = delimiter then some ([], rest)
      else if isTextChar first then prepend first (plainText delimiter rest)
      else none

/-- The end of a text between tripled delimiters, after the first delimiter of a
run.  One or two delimiters before the closing three belong to the text; a run of
less than three closes nothing. -/
def close? (delimiter : Char) (rest : List Char) : Option (List Char × List Char) :=
  match rest.takeWhile (· == delimiter) with
  | _ :: _ :: extra =>
      let kept := (extra.take 2).length
      some (List.replicate kept delimiter, rest.drop (2 + kept))
  | _ => none

def longPlainText (delimiter : Char) : List Char → Option (List Char × List Char)
  | [] => none
  | first :: rest =>
      if first = delimiter then
        match close? delimiter rest with
        | some ending => some ending
        | none => prepend first (longPlainText delimiter rest)
      else if isTextChar first || first == '\n' then
        prepend first (longPlainText delimiter rest)
      else none

/-- How the next character of a text with escapes is read. -/
inductive EscapeMode where
  | content
  /-- As the rest of a line whose end does not count. -/
  | lineEnd
  /-- As the margin of the line after that. -/
  | margin
deriving DecidableEq, Repr

/-- A text with escapes, after its opening quotes. -/
def escapedText (isLong : Bool) : EscapeMode → List Char → Option (List Char × List Char)
  | _, [] => none
  | .lineEnd, first :: rest =>
      if isBlank first then escapedText isLong .lineEnd rest
      else if first = '\n' then escapedText isLong .margin rest
      else none
  | _, '\\' :: 'u' :: a :: b :: c :: d :: rest => do
      let character ← charOfHex? [a, b, c, d]
      prepend character (escapedText isLong .content rest)
  | _, '\\' :: 'U' :: a :: b :: c :: d :: e :: f :: g :: h :: rest => do
      let character ← charOfHex? [a, b, c, d, e, f, g, h]
      prepend character (escapedText isLong .content rest)
  | _, '\\' :: letter :: rest =>
      match escaped? letter with
      | some character => prepend character (escapedText isLong .content rest)
      | none =>
          if isLong && letter == '\n' then escapedText isLong .margin rest
          else if isLong && isBlank letter then escapedText isLong .lineEnd rest
          else none
  | _, '"' :: rest =>
      if isLong then
        match close? '"' rest with
        | some ending => some ending
        | none => prepend '"' (escapedText isLong .content rest)
      else some ([], rest)
  | mode, first :: rest =>
      if mode = .margin && (isBlank first || first == '\n') then escapedText isLong .margin rest
      else if isTextChar first && first != '\\' || isLong && first == '\n' then
        prepend first (escapedText isLong .content rest)
      else none

/-- A text without the line break at its start. -/
def skipLineBreak : List Char → List Char
  | '\n' :: rest => rest
  | other => other

def shortText? : List Char → Option (List Char × List Char)
  | '"' :: rest => escapedText false .content rest
  | '\'' :: rest => plainText '\'' rest
  | _ => none

def anyText? : List Char → Option (List Char × List Char)
  | '"' :: '"' :: '"' :: rest => escapedText true .content (skipLineBreak rest)
  | '\'' :: '\'' :: '\'' :: rest => longPlainText '\'' (skipLineBreak rest)
  | other => shortText? other

/-! ## Lines -/

def key? (text : List Char) : Option (List Char × List Char) :=
  match text with
  | '"' :: '"' :: '"' :: _ => none
  | '\'' :: '\'' :: '\'' :: _ => none
  | '"' :: _ => shortText? text
  | '\'' :: _ => shortText? text
  | _ =>
      let word := text.takeWhile isWordChar
      if word.isEmpty then none else some (word, text.dropWhile isWordChar)

/-- The name in a table, after its opening brace, and what follows the table. -/
def choice? (text : List Char) : Option (List Char × List Char) := do
  let (name, rest) ← key? (text.dropWhile isBlank)
  match rest.dropWhile isBlank with
  | '=' :: rest =>
      match rest.dropWhile isBlank with
      | '\x7b' :: rest =>
          match rest.dropWhile isBlank with
          | '\x7d' :: rest =>
              match rest.dropWhile isBlank with
              | '\x7d' :: rest => some (name, rest)
              | _ => none
          | _ => none
      | _ => none
  | _ => none

def value? (text : List Char) : Option (Value × List Char) :=
  match text with
  | '\x7b' :: rest => (choice? rest).map fun (name, rest) => (.choice name, rest)
  | '"' :: _ => (anyText? text).map fun (content, rest) => (.text content, rest)
  | '\'' :: _ => (anyText? text).map fun (content, rest) => (.text content, rest)
  | _ =>
      let rest := text.dropWhile isWordChar
      match String.ofList (text.takeWhile isWordChar) with
      | "true" => some (.flag true, rest)
      | "false" => some (.flag false, rest)
      | _ => none

/-- What follows blanks and perhaps a comment. -/
def afterComment (text : List Char) : List Char :=
  match text.dropWhile isBlank with
  | '#' :: rest => rest.dropWhile isCommentChar
  | other => other

def afterLineEnd? (text : List Char) : Option (List Char) :=
  match afterComment text with
  | [] => some []
  | '\n' :: rest => some rest
  | _ => none

/-- A line `key = value` and what follows it. -/
def assignment? (text : List Char) : Option (Line × List Char) := do
  let (key, rest) ← key? text
  match rest.dropWhile isBlank with
  | '=' :: rest =>
      let (value, rest) ← value? (rest.dropWhile isBlank)
      let rest ← afterLineEnd? rest
      some ((key, value), rest)
  | _ => none

/-- All lines of a text that assign a value. -/
def readFrom (text : List Char) : Option (List Line) :=
  match afterComment text with
  | [] => some []
  | '\n' :: rest => if rest.length < text.length then readFrom rest else none
  | start => do
      let (line, rest) ← assignment? start
      if rest.length < text.length then
        let lines ← readFrom rest
        some (line :: lines)
      else none
termination_by text.length

/-- Keys with points between them, and what follows. -/
def dottedKeys? (text : List Char) : Option (List (List Char) × List Char) := do
  let (key, rest) ← key? (text.dropWhile isBlank)
  match rest.dropWhile isBlank with
  | '.' :: rest =>
      if rest.length < text.length then
        let (keys, rest) ← dottedKeys? rest
        some (key :: keys, rest)
      else none
  | rest => some ([key], rest)
termination_by text.length

/-- The header of a section and what follows its line.  The first key of a header
gets the last one as its choice. -/
def section? (text : List Char) : Option (Line × List Char) := do
  let (keys, rest) ← match text with
    | '[' :: '[' :: rest =>
        match ← dottedKeys? rest with
        | (keys, ']' :: ']' :: rest) => some (keys, rest)
        | _ => none
    | '[' :: rest =>
        match ← dottedKeys? rest with
        | (keys, ']' :: rest) => some (keys, rest)
        | _ => none
    | _ => none
  let rest ← afterLineEnd? rest
  some ((keys.headD [], .choice (keys.getLastD [])), rest)

/-- The text from the first line that is neither blank nor a comment. -/
def skipEmptyLines (text : List Char) : List Char :=
  match afterComment text with
  | '\n' :: rest => if rest.length < text.length then skipEmptyLines rest else rest
  | start => start
termination_by text.length

/-- The line that a section alone in its file stands for. -/
def readSection (text : List Char) : Option (List Line) := do
  let (line, rest) ← section? (skipEmptyLines text)
  if (skipEmptyLines rest).isEmpty then some [line] else none

/-- Reads a settings file in which all lines end with a line feed alone. -/
def readUnified (text : List Char) : Option (List Line) :=
  readFrom text <|> readSection text

/-- Reads a settings file; a byte order mark at its start does not count. -/
def readLines (text : String) : Option (List Line) :=
  match text.toList with
  | '\uFEFF' :: rest => readUnified (unifyLineEnds rest)
  | all => readUnified (unifyLineEnds all)

end LdpScore.Settings
