import LdpScore.Token.Lexer
import Mathlib.Data.List.TakeWhile

/-!
# Spelling

Every token that is cut out of a text can be written down again.  `Token.spelling`
writes it, and `Token.IsSpelled` says of labels and numbers that they are words of
their kind, and of quoted texts that they do not contain the quote around them.

`Spells` says that a text is cut into certain tokens wherever it stands before a
blank, a closing parenthesis or the end.  A spelling spells its token, and texts
are put together with their tokens.
-/

namespace LdpScore.Token

/-! ## Words -/

/-- A character that may begin a word, and characters that may continue a label. -/
def IsWord : List Char → Prop
  | [] => False
  | first :: others =>
      isWordStart first = true ∧
        ∀ character ∈ others, isLabelChar character = true

instance : DecidablePred IsWord
  | [] => .isFalse id
  | first :: others =>
      decidable_of_iff ((isWordStart first && others.all isLabelChar) = true)
        (by simp [IsWord])

/-- Whether a token is read again when it is written. -/
def IsSpelled : Token → Prop
  | label text => IsWord text.toList ∧ isNumberWord text.toList = false
  | number text => IsWord text.toList ∧ isNumberWord text.toList = true
  | quoted content => '"' ∉ content.toList
  | _ => True

instance : DecidablePred IsSpelled
  | label text => inferInstanceAs
      (Decidable (IsWord text.toList ∧ isNumberWord text.toList = false))
  | number text => inferInstanceAs
      (Decidable (IsWord text.toList ∧ isNumberWord text.toList = true))
  | quoted content => inferInstanceAs (Decidable ('"' ∉ content.toList))
  | parenLeft => .isTrue trivial
  | parenRight => .isTrue trivial

/-- How a token is written. -/
def spelling : Token → List Char
  | parenLeft => ['(']
  | parenRight => [')']
  | label text => text.toList
  | number text => text.toList
  | quoted content => '"' :: (content.toList ++ ['"'])

theorem isSpelled_ofWord {word : List Char} (isWord : IsWord word) :
    (ofWord word).IsSpelled := by
  unfold ofWord
  split
  case isTrue isNumber => simpa [IsSpelled] using ⟨isWord, isNumber⟩
  case isFalse isLabel =>
      simpa [IsSpelled] using ⟨isWord, Bool.eq_false_iff.mpr isLabel⟩

theorem ofWord_label {text : String} (isSpelled : (label text).IsSpelled) :
    ofWord text.toList = label text := by
  rw [ofWord, if_neg (by simp [isSpelled.2]), String.ofList_toList]

theorem ofWord_number {text : String} (isSpelled : (number text).IsSpelled) :
    ofWord text.toList = number text := by
  rw [ofWord, if_pos isSpelled.2, String.ofList_toList]

theorem isLabelChar_of_isDigit {character : Char}
    (isDigit : character.isDigit = true) : isLabelChar character = true := by
  have atMost : character.toNat ≤ '9'.toNat :=
    decide_eq_true_iff.mp (Bool.and_eq_true_iff.mp isDigit).2
  have ascii : character.toNat < 128 := Nat.lt_of_le_of_lt atMost (by decide)
  have isNumeric : Text.isNumeric character = true := by
    rw [Text.isNumeric, if_pos ascii, isDigit]
  simp [isLabelChar, Text.isAlphanumeric, isNumeric]

theorem not_mem_of_isUnsignedNumber {word : List Char}
    (isNumber : isUnsignedNumber word = true) : '#' ∉ word := by
  have isFraction := (Bool.and_eq_true_iff.mp isNumber).2
  intro listed
  rw [← List.takeWhile_append_dropWhile (p := Char.isDigit) (l := word)] at listed
  rcases List.mem_append.mp listed with isDigit | listed
  · exact absurd (List.mem_takeWhile_imp isDigit) (by decide)
  · split at isFraction
    case h_1 isEmpty =>
      rw [isEmpty] at listed
      cases listed
    case h_2 fraction isRest =>
      rw [isRest] at listed
      have isDigit := List.all_eq_true.mp isFraction '#' (by simpa using listed)
      exact absurd isDigit (by decide)
    case h_3 => cases isFraction

/-- No number has a hash sign in it. -/
theorem not_mem_of_isNumberWord {word : List Char}
    (isNumber : isNumberWord word = true) : '#' ∉ word := by
  unfold isNumberWord at isNumber
  split at isNumber
  case h_3 => exact not_mem_of_isUnsignedNumber isNumber
  all_goals simpa using not_mem_of_isUnsignedNumber isNumber

/-- What stands after a hash sign in a word may be replaced. -/
theorem IsWord.replace {name text others : List Char}
    (isWord : IsWord (name ++ '#' :: text))
    (continues : ∀ character ∈ others, isLabelChar character = true) :
    IsWord (name ++ '#' :: others) := by
  have hash : isLabelChar '#' = true := by decide
  cases name with
  | nil => exact ⟨isWord.1, continues⟩
  | cons first name =>
      have front := (List.forall_mem_append.mp isWord.2).1
      exact ⟨isWord.1, List.forall_mem_append.mpr
        ⟨front, List.forall_mem_cons.mpr ⟨hash, continues⟩⟩⟩

/-! ## Tokens of a text are spelled -/

/-- What begins at a character is a parenthesis, a quoted text or a word. -/
theorem scan_cases
    {first : Char} {rest : List Char} {token : Token} {length : Nat}
    (scanned : scan first rest = (some (.ok token), length)) :
    token = parenLeft ∨ token = parenRight ∨ (∃ content, token = quoted content) ∨
      ∃ word, IsWord word ∧ token = ofWord word := by
  have isQuoted : ∀ {delimiter text size},
      scanText delimiter text = (.ok token, size) →
        ∃ content, token = quoted content := by
    intro delimiter text size cut
    unfold scanText at cut
    dsimp only at cut
    split at cut <;> cases cut
    exact ⟨_, rfl⟩
  unfold scan at scanned
  split at scanned
  · cases scanned
  split at scanned
  · cases scanned
  split at scanned
  · cases scanned
    exact .inl rfl
  split at scanned
  · cases scanned
    exact .inr (.inl rfl)
  split at scanned
  · cases cut : scanText first rest with
    | mk result size =>
      rw [cut] at scanned
      cases scanned
      exact .inr (.inr (.inl (isQuoted cut)))
  split at scanned
  · cases cut : scanText '"' rest.tail with
    | mk result size =>
      rw [cut] at scanned
      cases scanned
      exact .inr (.inr (.inl (isQuoted cut)))
  split at scanned
  case isTrue starts =>
    cases scanned
    have continues : ∀ character ∈ rest.takeWhile isLabelChar,
        isLabelChar character = true := fun _ => List.mem_takeWhile_imp
    have isWord : IsWord (first :: rest.takeWhile isLabelChar) :=
      ⟨starts, continues⟩
    exact .inr (.inr (.inr ⟨_, isWord, rfl⟩))
  case isFalse => cases scanned

theorem exists_scan_of_mem
    {file : String} {position : Position} {covered : Nat} {text : List Char}
    {lexeme : Lexeme} (listed : lexeme ∈ lexemes file position covered text) :
    ∃ first rest length, scan first rest = (some lexeme.result, length) := by
  induction text generalizing position covered with
  | nil => cases covered <;> cases listed
  | cons first rest induction =>
      cases covered with
      | succ covered => exact induction listed
      | zero =>
          rw [lexemes] at listed
          split at listed
          case h_1 => exact induction listed
          case h_2 result length scanned =>
              cases listed with
              | head => exact ⟨first, rest, length, scanned⟩
              | tail _ listed => exact induction listed

/-- Compact notation adds nothing but parentheses. -/
theorem mem_closeCompact
    {due : Bool} {pieces : List Lexeme} {token : LexedToken}
    (listed : token ∈ closeCompact due pieces) :
    token.result = .ok parenLeft ∨ token.result = .ok parenRight ∨
      ∃ piece ∈ pieces, token.result = piece.result := by
  induction pieces generalizing due with
  | nil => cases listed
  | cons piece pieces induction =>
      have later : ∀ {due}, token ∈ closeCompact due pieces →
          token.result = .ok parenLeft ∨ token.result = .ok parenRight ∨
            ∃ other ∈ piece :: pieces, token.result = other.result :=
        fun listed => (induction listed).imp_right fun closes =>
          closes.imp_right fun ⟨other, isPiece, same⟩ =>
            ⟨other, .tail _ isPiece, same⟩
      have here : token.result = piece.result →
          token.result = .ok parenLeft ∨ token.result = .ok parenRight ∨
            ∃ other ∈ piece :: pieces, token.result = other.result :=
        fun same => .inr (.inr ⟨piece, .head _, same⟩)
      rw [closeCompact] at listed
      split at listed
      · rcases List.mem_cons.mp listed with rfl | listed
        · exact .inl rfl
        rcases List.mem_cons.mp listed with rfl | listed
        · exact here rfl
        exact later listed
      split at listed
      · rcases List.mem_cons.mp listed with rfl | listed
        · exact here rfl
        rcases List.mem_cons.mp listed with rfl | listed
        · exact .inr (.inl rfl)
        exact later listed
      · rcases List.mem_cons.mp listed with rfl | listed
        · exact here rfl
        exact later listed

/-- Tokens that are cut out of a text can be written, except for quoted texts with
a quote inside. -/
theorem isSpelled_of_mem_lex
    {source file : String} {located : LexedToken} {token : Token}
    (listed : located ∈ lex source file) (isToken : located.result = .ok token)
    (noQuote : ∀ content, token = quoted content → '"' ∉ content.toList) :
    token.IsSpelled := by
  rcases mem_closeCompact listed with opens | closes | ⟨piece, isPiece, same⟩
  · cases isToken.symm.trans opens
    trivial
  · cases isToken.symm.trans closes
    trivial
  · obtain ⟨first, rest, length, scanned⟩ := exists_scan_of_mem isPiece
    rw [← same, isToken] at scanned
    rcases scan_cases scanned with rfl | rfl | ⟨content, rfl⟩ | ⟨word, isWord, rfl⟩
    · trivial
    · trivial
    · exact noQuote content rfl
    · exact isSpelled_ofWord isWord

/-! ## Cutting a text at a given place -/

/-- Whether a word may end before these characters. -/
def EndsWord (rest : List Char) : Prop :=
  ∀ character, rest.head? = some character → character = ' ' ∨ character = ')'

/-- What a text that starts at a position is cut into. -/
def results (file : String) (position : Position) (text : List Char) :
    List (Except LexicalError Token) :=
  (closeCompact false (lexemes file position 0 text)).map LexedToken.result

theorem lexemes_covered (file : String) (position : Position) (front rest : List Char) :
    lexemes file position front.length (front ++ rest) =
      lexemes file (position.skip front) 0 rest := by
  induction front generalizing position with
  | nil => rfl
  | cons first front induction => exact induction (position.next first)

theorem results_of_blank
    {first : Char} {others rest : List Char}
    (scanned : scan first (others ++ rest) = (none, others.length))
    (file : String) (position : Position) :
    results file position (first :: (others ++ rest)) =
      results file (position.skip (first :: others)) rest := by
  rw [results, lexemes, scanned]
  dsimp only
  rw [lexemes_covered]
  rfl

theorem results_of_scan
    {first : Char} {others rest : List Char} {result : Except LexicalError Token}
    (scanned : scan first (others ++ rest) = (some result, others.length))
    (notCompact : isLabel result = true → rest.head? ≠ some ':')
    (file : String) (position : Position) :
    results file position (first :: (others ++ rest)) =
      result :: results file (position.skip (first :: others)) rest := by
  have single : (isLabel result && rest.head? == some ':') = false := by
    simpa using notCompact
  rw [results, lexemes, scanned]
  simp [single, closeCompact, lexemes_covered, results]

theorem EndsWord.notCompact {rest : List Char} (ends : EndsWord rest) :
    rest.head? ≠ some ':' := by
  intro isColon
  rcases ends ':' isColon with isBlank | isParen
  · exact absurd isBlank (by decide)
  · exact absurd isParen (by decide)

/-- Before a blank or a parenthesis the characters of a label end. -/
theorem EndsWord.takeWhile_append
    {others rest : List Char} (ends : EndsWord rest)
    (continues : ∀ character ∈ others, isLabelChar character = true) :
    (others ++ rest).takeWhile isLabelChar = others := by
  rw [List.takeWhile_append_of_pos continues]
  cases rest with
  | nil => simp
  | cons character rest =>
      rcases ends character rfl with rfl | rfl
      · simp [show isLabelChar ' ' = false by decide]
      · simp [show isLabelChar ')' = false by decide]

theorem EndsWord.head?_append_ne
    {others rest : List Char} (ends : EndsWord rest)
    (continues : ∀ character ∈ others, isLabelChar character = true) :
    (others ++ rest).head? ≠ some '"' := by
  intro isQuote
  cases others with
  | nil =>
      rcases ends '"' isQuote with isBlank | isParen
      · exact absurd isBlank (by decide)
      · exact absurd isParen (by decide)
  | cons first others =>
      cases isQuote
      exact absurd (continues '"' (.head _)) (by decide)

theorem scan_word
    {first : Char} {others rest : List Char} (isWord : IsWord (first :: others))
    (ends : EndsWord rest) :
    scan first (others ++ rest) =
      (some (.ok (ofWord (first :: others))), others.length) := by
  obtain ⟨starts, continues⟩ := isWord
  have differs : ∀ character, isWordStart character = false →
      (first == character) = false := by
    intro character cannotStart
    refine beq_eq_false_iff_ne.mpr fun isCharacter => ?_
    rw [isCharacter, cannotStart] at starts
    cases starts
  have notQuote := beq_eq_false_iff_ne.mpr (ends.head?_append_ne continues)
  rw [scan, differs ' ' (by decide), differs '\t' (by decide),
    differs '\r' (by decide), differs '\n' (by decide), differs '/' (by decide),
    differs '(' (by decide), differs ')' (by decide), differs '"' (by decide),
    differs '\'' (by decide), notQuote, starts, ends.takeWhile_append continues]
  simp

theorem scan_quote
    {quote : Char} {content : List Char} (isQuote : quote = '"' ∨ quote = '\'')
    (noQuote : quote ∉ content) (rest : List Char) :
    scan quote (content ++ [quote] ++ rest) =
      (some (.ok (quoted (String.ofList content))), (content ++ [quote]).length) := by
  have passes : ∀ character ∈ content, (character != quote) = true :=
    fun character listed =>
      bne_iff_ne.mpr fun isEqual => noQuote (isEqual ▸ listed)
  have isContent :
      (content ++ [quote] ++ rest).takeWhile (· != quote) = content := by
    rw [List.append_assoc, List.takeWhile_append_of_pos passes]
    simp
  have scanned : scan quote (content ++ [quote] ++ rest) =
      (some (scanText quote (content ++ [quote] ++ rest)).1,
        (scanText quote (content ++ [quote] ++ rest)).2) := by
    rcases isQuote with rfl | rfl <;> rfl
  rw [scanned, scanText, isContent]
  simp

/-! ## Texts and their tokens -/

/-- Wherever it ends before a blank, a closing parenthesis or nothing, the text is
cut into these tokens. -/
def Spells (text : List Char) (tokens : List Token) : Prop :=
  ∀ file position rest, EndsWord rest →
    results file position (text ++ rest) =
      tokens.map .ok ++ results file (position.skip text) rest

theorem Spells.nil : Spells [] [] :=
  fun _ _ _ _ => rfl

theorem Spells.append
    {front text : List Char} {tokens more : List Token} (spells : Spells front tokens)
    (spellsMore : Spells text more)
    (ends : ∀ rest, EndsWord rest → EndsWord (text ++ rest)) :
    Spells (front ++ text) (tokens ++ more) := by
  intro file position rest endsWord
  rw [List.append_assoc, spells file position _ (ends rest endsWord),
    spellsMore file _ rest endsWord, List.map_append, List.append_assoc,
    Position.skip_append]

theorem Spells.blank
    {text : List Char} {tokens : List Token} (spells : Spells text tokens) :
    Spells (' ' :: text) tokens := by
  intro file position rest ends
  have passed := @results_of_blank ' ' [] (text ++ rest) rfl file position
  exact passed.trans (spells file _ rest ends)

theorem Spells.opening
    {text : List Char} {tokens : List Token} (spells : Spells text tokens) :
    Spells ('(' :: text) (parenLeft :: tokens) := by
  intro file position rest ends
  have opened := @results_of_scan '(' [] (text ++ rest) (.ok parenLeft) rfl
    nofun file position
  exact opened.trans (congrArg _ (spells file _ rest ends))

theorem Spells.closing : Spells [')'] [parenRight] :=
  fun file position rest _ =>
    @results_of_scan ')' [] rest (.ok parenRight) rfl nofun file position

/-- A token that is spelled is read from its spelling. -/
theorem IsSpelled.spells {token : Token} (isSpelled : token.IsSpelled) :
    Spells token.spelling [token] := by
  intro file position rest ends
  have readWord : ∀ {text : String}, IsWord text.toList →
      results file position (text.toList ++ rest) =
        .ok (ofWord text.toList) :: results file (position.skip text.toList) rest := by
    intro text
    cases text.toList with
    | nil => exact False.elim
    | cons first others =>
        exact fun isWord =>
          results_of_scan (scan_word isWord ends) (fun _ => ends.notCompact)
            file position
  cases token with
  | parenLeft => exact Spells.nil.opening file position rest ends
  | parenRight => exact Spells.closing file position rest ends
  | label text =>
      rw [spelling, readWord isSpelled.1, ofWord_label isSpelled]
      rfl
  | number text =>
      rw [spelling, readWord isSpelled.1, ofWord_number isSpelled]
      rfl
  | quoted content =>
      rw [spelling, List.cons_append,
        results_of_scan (scan_quote (.inl rfl) isSpelled rest) nofun,
        String.ofList_toList]
      rfl

end LdpScore.Token
