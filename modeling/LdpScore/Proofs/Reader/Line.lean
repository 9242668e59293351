import LdpScore.Proofs.Reader.Extent

/-!
# Reading line by line

Only a quoted text goes on beyond a line break.  Apart from that a line leaves
nothing behind but the place that the text has come to, and perhaps a compact label
that waits for its value.  So a text can be cut line by line: `lex_append_newline`
says that the tokens of two texts, one after the other, are those of the first and
then those of the second, which have moved.
-/

namespace LdpScore

/-! ## Moving -/

/-- A position when some characters and lines more stand before the text. -/
def Position.movedBy (position : Position) (characters lines : Nat) : Position where
  offset := position.offset + characters
  line := position.line + lines
  lineStart := position.lineStart + characters

/-- A location when some characters and lines more stand before the text.  Within
its line it stands where it stood. -/
def Location.movedBy (location : Location) (characters lines : Nat) : Location :=
  { location with
    start := location.start + characters
    stop := location.stop + characters
    line := location.line + lines }

def LexedToken.movedBy
    (token : LexedToken) (characters lines : Nat) : LexedToken :=
  { token with location := token.location.movedBy characters lines }

namespace Position

theorem next_movedBy
    (position : Position) (characters lines : Nat) (character : Char) :
    (position.movedBy characters lines).next character =
      (position.next character).movedBy characters lines := by
  by_cases isBreak : character = '\n'
  · simp only [next, movedBy, if_pos isBreak, Position.mk.injEq]
    omega
  · simp only [next, movedBy, if_neg isBreak, Position.mk.injEq]
    exact ⟨Nat.add_right_comm .., trivial, trivial⟩

theorem skip_line (position : Position) (characters : List Char) :
    (position.skip characters).line = position.line + characters.count '\n' := by
  induction characters generalizing position with
  | nil => rfl
  | cons first rest induction =>
      rw [skip_cons, induction, next, List.count_cons]
      by_cases isBreak : first = '\n'
      · rw [if_pos isBreak, if_pos (beq_iff_eq.mpr isBreak)]
        exact Nat.add_right_comm ..
      · rw [if_neg isBreak, if_neg fun same => isBreak (beq_iff_eq.mp same)]
        rfl

/-- After a text and a line break everything begins anew, further on. -/
theorem next_newline_skip (text : List Char) :
    (({} : Position).skip text).next '\n' =
      ({} : Position).movedBy (text.length + 1) (text.count '\n' + 1) := by
  rw [next, if_pos rfl, skip_offset, skip_line, movedBy]
  simp only [Position.mk.injEq]
  omega

end Position

theorem Location.between_movedBy
    (file : String) (position : Position) (stop characters lines : Nat) :
    between file (position.movedBy characters lines) (stop + characters) =
      (between file position stop).movedBy characters lines := by
  unfold between Position.movedBy movedBy
  rw [Nat.add_sub_add_right]

namespace Token

def Lexeme.movedBy (piece : Lexeme) (characters lines : Nat) : Lexeme :=
  { piece with location := piece.location.movedBy characters lines }

theorem lexemes_movedBy
    (file : String) (position : Position) (characters lines covered : Nat)
    (text : List Char) :
    lexemes file (position.movedBy characters lines) covered text =
      (lexemes file position covered text).map
        fun piece => piece.movedBy characters lines := by
  induction text generalizing position covered with
  | nil => cases covered <;> rfl
  | cons first rest induction =>
      cases covered with
      | succ covered =>
          rw [lexemes, lexemes, Position.next_movedBy]
          exact induction _ covered
      | zero =>
          rw [lexemes, lexemes, Position.next_movedBy]
          split
          · exact induction _ _
          · rename_i length _
            have isMoved : (position.movedBy characters lines).offset + 1 + length =
                position.offset + 1 + length + characters := by
              simp only [Position.movedBy]
              omega
            dsimp only
            rw [List.map_cons, induction, isMoved, Location.between_movedBy]
            rfl

theorem closeCompact_movedBy
    (due : Bool) (pieces : List Lexeme) (characters lines : Nat) :
    closeCompact due (pieces.map fun piece => piece.movedBy characters lines) =
      (closeCompact due pieces).map
        fun token => token.movedBy characters lines := by
  induction pieces generalizing due with
  | nil => rfl
  | cons piece pieces induction =>
      rw [List.map_cons, Lexeme.movedBy, closeCompact, closeCompact]
      split
      · rw [induction]
        rfl
      · split
        · rw [induction]
          rfl
        · rw [induction]
          rfl

/-! ## Where a text leaves off -/

/-- Whether a closing parenthesis is due after some pieces. -/
def isDueAfter : Bool → List Lexeme → Bool
  | due, [] => due
  | due, ⟨result, _, isCompact⟩ :: rest =>
      if isCompact then isDueAfter true rest
      else if due && !isParenLeft result then isDueAfter false rest
      else isDueAfter due rest

/-- A text that can be followed by another one: none of its quoted texts is left
open, and none of its compact labels waits for a closing parenthesis in the end. -/
structure IsComplete (source file : String) : Prop where
  terminated : ∀ token ∈ lex source file,
    token.result ≠ .error .unterminatedString
  settled : isDueAfter false (lexemes file {} 0 source.toList) = false

theorem closeCompact_append (due : Bool) (front back : List Lexeme) :
    closeCompact due (front ++ back) =
      closeCompact due front ++ closeCompact (isDueAfter due front) back := by
  induction front generalizing due with
  | nil => rfl
  | cons piece front induction =>
      rw [List.cons_append, closeCompact, closeCompact, isDueAfter]
      split
      · rw [induction, List.cons_append, List.cons_append]
      · split
        · rw [induction, List.cons_append, List.cons_append]
        · rw [induction, List.cons_append]

/-- Every piece becomes a token. -/
theorem exists_mem_closeCompact
    {piece : Lexeme} {pieces : List Lexeme} (listed : piece ∈ pieces)
    (due : Bool) :
    ∃ token ∈ closeCompact due pieces, token.result = piece.result := by
  induction pieces generalizing due with
  | nil => cases listed
  | cons first pieces induction =>
      rw [closeCompact]
      cases listed with
      | head =>
          split
          · exact ⟨_, .tail _ (.head _), rfl⟩
          · split
            · exact ⟨_, .head _, rfl⟩
            · exact ⟨_, .head _, rfl⟩
      | tail _ listed =>
          split
          · obtain ⟨token, isToken, same⟩ := induction listed true
            exact ⟨token, .tail _ (.tail _ isToken), same⟩
          · split
            · obtain ⟨token, isToken, same⟩ := induction listed false
              exact ⟨token, .tail _ (.tail _ isToken), same⟩
            · obtain ⟨token, isToken, same⟩ := induction listed due
              exact ⟨token, .tail _ isToken, same⟩

/-! ## What ends before a line break -/

section Scanning

variable {first : Char} {rest more : List Char}

theorem takeWhile_append_newline
    {stays : Char → Bool} (stops : stays '\n' = false) (rest more : List Char) :
    (rest ++ '\n' :: more).takeWhile stays = rest.takeWhile stays := by
  induction rest with
  | nil => rw [List.nil_append, List.takeWhile_cons, stops]; rfl
  | cons first rest induction =>
      rw [List.cons_append, List.takeWhile_cons, List.takeWhile_cons, induction]

theorem head?_append_newline
    {character : Char} (other : character ≠ '\n') (rest more : List Char) :
    ((rest ++ '\n' :: more).head? == some character) =
      (rest.head? == some character) := by
  cases rest with
  | nil => simpa using other.symm
  | cons first rest => rfl

/-- A quoted text ends at the first quote, whatever follows it. -/
theorem scanText_append
    {delimiter : Char} {content : List Char} (ends : delimiter ∉ content)
    (after : List Char) :
    scanText delimiter (content ++ delimiter :: after) =
      (.ok (.quoted (String.ofList content)), content.length + 1) := by
  have isContent : (content ++ delimiter :: after).takeWhile (· != delimiter) =
      content := by
    rw [List.takeWhile_append_of_pos]
    · simp
    · intro character listed
      exact bne_iff_ne.mpr fun same => ends (same ▸ listed)
  rw [scanText, isContent, List.drop_left]
  rfl

/-- A quoted text that is not left open does not depend on what follows. -/
theorem scanText_of_terminated
    {delimiter : Char} {length : Nat} {result : Except LexicalError Token}
    (scanned : scanText delimiter rest = (result, length))
    (terminated : result ≠ .error .unterminatedString) (more : List Char) :
    scanText delimiter (rest ++ more) = (result, length) := by
  rcases scanText_cases scanned with
    ⟨content, after, rfl, rfl, ends, rfl⟩ | ⟨_, isOpen⟩
  · rw [List.append_assoc, List.cons_append, scanText_append ends]
    simp
  · exact absurd isOpen terminated

/-- What begins before a line break ends there at the latest, unless it is a quoted
text that is left open. -/
theorem scan_append_newline
    {piece : Option (Except LexicalError Token)} {length : Nat}
    (scanned : scan first rest = (piece, length))
    (terminated : piece ≠ some (.error .unterminatedString))
    (more : List Char) :
    scan first (rest ++ '\n' :: more) = (piece, length) := by
  have quoted : ∀ {delimiter text result size},
      scanText delimiter text = (result, size) → piece = some result →
        scanText delimiter (text ++ '\n' :: more) = (result, size) := by
    intro delimiter text result size cut same
    refine scanText_of_terminated cut ?_ _
    rintro rfl
    exact terminated same
  unfold scan at scanned ⊢
  rw [head?_append_newline (by decide), head?_append_newline (by decide),
    takeWhile_append_newline (by decide), takeWhile_append_newline (by decide)]
  split_ifs at scanned ⊢ with _ _ _ _ _ marked
  · exact scanned
  · exact scanned
  · exact scanned
  · exact scanned
  · rcases cut : scanText first rest with ⟨result, size⟩
    rw [cut] at scanned
    cases scanned
    rw [quoted cut rfl]
  · cases rest with
    | nil => simp at marked
    | cons second rest =>
      rcases cut : scanText '"' rest with ⟨result, size⟩
      rw [List.tail_cons, cut] at scanned
      cases scanned
      rw [List.cons_append, List.tail_cons, quoted cut rfl]
  · exact scanned
  · exact scanned

/-- What a piece covers lies before the line break, and so does the colon after a
compact label. -/
theorem length_le_of_scan
    {piece : Option (Except LexicalError Token)} {length : Nat}
    (scanned : scan first rest = (piece, length)) :
    length ≤ rest.length := by
  cases piece with
  | none =>
      obtain ⟨text, after, rfl, rfl, _⟩ := scan_gap scanned
      simp
  | some result =>
      obtain ⟨text, after, rfl, rfl, _⟩ := scan_piece scanned
      simp

end Scanning

/-! ## One text after another -/

/-- The pieces of a text that goes on after a line break. -/
theorem lexemes_append_newline
    (file : String) (position : Position) {covered : Nat} {text : List Char}
    (inside : covered ≤ text.length)
    (terminated : ∀ piece ∈ lexemes file position covered text,
      piece.result ≠ .error .unterminatedString)
    (more : List Char) :
    lexemes file position covered (text ++ '\n' :: more) =
      lexemes file position covered text ++
        lexemes file ((position.skip text).next '\n') 0 more := by
  induction text generalizing position covered with
  | nil =>
      obtain rfl : covered = 0 := Nat.le_zero.mp inside
      rw [List.nil_append, lexemes]
      rfl
  | cons first rest induction =>
      cases covered with
      | succ covered =>
          rw [lexemes] at terminated
          rw [List.cons_append, lexemes, lexemes, Position.skip_cons]
          exact induction _ (Nat.le_of_succ_le_succ inside) terminated
      | zero =>
          rw [lexemes] at terminated
          rw [List.cons_append, lexemes, lexemes, Position.skip_cons]
          rcases scanned : scan first rest with ⟨_ | result, length⟩
          · rw [scanned] at terminated
            rw [scan_append_newline scanned (by simp)]
            exact induction _ (length_le_of_scan scanned) terminated
          · have within := length_le_of_scan scanned
            rw [scanned] at terminated
            obtain ⟨ends, later⟩ := List.forall_mem_cons.mp terminated
            have colon :
                (((rest ++ '\n' :: more).drop length).head? == some ':') =
                  ((rest.drop length).head? == some ':') := by
              rw [List.drop_append_of_le_length within]
              exact head?_append_newline (by decide) ..
            rw [scan_append_newline scanned (by simpa using ends)]
            dsimp only
            rw [colon, List.cons_append]
            refine congrArg (List.cons _) (induction _ ?_ later)
            split
            case isTrue isCompact =>
              have next := beq_iff_eq.mp (Bool.and_eq_true_iff.mp isCompact).2
              rw [List.head?_drop] at next
              exact (List.getElem?_eq_some_iff.mp next).1
            case isFalse => exact within

/-- The tokens of two texts with a line break between them are those of the first
text, and then those of the second, which stand further on.  The first must not
leave a quoted text open or a compact label without its value. -/
theorem lex_append_newline
    {first file : String} (complete : IsComplete first file) (second : String) :
    lex (first ++ "\n" ++ second) file =
      lex first file ++ (lex second file).map fun token =>
        token.movedBy (first.length + 1) (first.toList.count '\n' + 1) := by
  have terminated : ∀ piece ∈ lexemes file {} 0 first.toList,
      piece.result ≠ .error .unterminatedString := by
    intro piece listed
    obtain ⟨token, isToken, same⟩ := exists_mem_closeCompact listed false
    rw [← same]
    exact complete.terminated token isToken
  have isText : (first ++ "\n" ++ second).toList =
      first.toList ++ '\n' :: second.toList := by
    simp
  rw [lex, lex, lex, isText,
    lexemes_append_newline file {} (Nat.zero_le _) terminated,
    Position.next_newline_skip, lexemes_movedBy, closeCompact_append,
    complete.settled, closeCompact_movedBy, String.length_toList]

/-- Neither a quoted text of two lines nor a label in a comment is left open. -/
theorem lex_append_newline_comment :
    IsComplete "(n dx:'a\n+' // b:" "f" ∧
      lex ("(n dx:'a\n+' // b:" ++ "\n" ++ "y:_\"c\")") "f" =
        lex "(n dx:'a\n+' // b:" "f" ++ (lex "y:_\"c\")" "f").map fun token =>
          token.movedBy 18 2 := by
  have tokens : lex "(n dx:'a\n+' // b:" "f" =
      [⟨.ok .parenLeft, ⟨"f", 0, 1, 0, 0⟩⟩, ⟨.ok (.label "n"), ⟨"f", 1, 2, 0, 1⟩⟩,
        ⟨.ok .parenLeft, ⟨"f", 3, 5, 0, 3⟩⟩, ⟨.ok (.label "dx"), ⟨"f", 3, 5, 0, 3⟩⟩,
        ⟨.ok (.quoted "a\n+"), ⟨"f", 6, 11, 0, 6⟩⟩,
        ⟨.ok .parenRight, ⟨"f", 6, 11, 0, 6⟩⟩] :=
    rfl
  have complete : IsComplete "(n dx:'a\n+' // b:" "f" := by
    refine ⟨?_, rfl⟩
    rw [tokens]
    simp
  exact ⟨complete, lex_append_newline complete _⟩

end Token

end LdpScore
