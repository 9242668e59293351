import Mathlib.Data.List.Induction
import LdpScore.Proofs.Reader.Extent
import LdpScore.Proofs.Reader.Line

/-!
# Tokens stand on their lines

A token says on which line it begins and how far into this line.  Line breaks are
met in different ways: between two tokens, at the end of a comment, and inside of
quoted texts, where a line can begin that no token begins on.  `isPlaced_lex` says
that none of them is overlooked.
-/

namespace LdpScore

/-- Whether a line that goes on up to `start` begins at `lineStart`: at the beginning
of the text or after a line break, with no line break from there to `start`. -/
structure IsLineStart (source : List Char) (start lineStart : Nat) : Prop where
  before : lineStart ≤ start
  begins : lineStart = 0 ∨
    ∃ index, source[index]? = some '\n' ∧ lineStart = index + 1
  unbroken : ∀ index, lineStart ≤ index → index < start →
    source[index]? ≠ some '\n'

/-- A place is on one line only. -/
theorem IsLineStart.unique
    {source : List Char} {start first second : Nat}
    (isFirst : IsLineStart source start first)
    (isSecond : IsLineStart source start second) :
    first = second := by
  -- A later start would be after a line break, which the earlier line excludes.
  have notBefore : ∀ {early late}, IsLineStart source start early →
      IsLineStart source start late → ¬ early < late := by
    intro early late isEarly isLate later
    rcases isLate.begins with rfl | ⟨index, isBreak, rfl⟩
    · exact Nat.not_lt_zero _ later
    · exact isEarly.unbroken index (Nat.le_of_lt_succ later)
        (Nat.lt_of_succ_le isLate.before) isBreak
  exact Nat.le_antisymm (Nat.le_of_not_lt (notBefore isSecond isFirst))
    (Nat.le_of_not_lt (notBefore isFirst isSecond))

/-- What comes after a place does not matter for the line that it is on. -/
theorem IsLineStart.append
    {front : List Char} {start lineStart : Nat}
    (isStart : IsLineStart front start lineStart) (inside : start ≤ front.length)
    (text : List Char) :
    IsLineStart (front ++ text) start lineStart := by
  refine ⟨isStart.before, isStart.begins.imp_right ?_, ?_⟩
  · rintro ⟨index, isHere, same⟩
    exact ⟨index, by rw [List.getElem?_append_left
      (List.getElem?_eq_some_iff.mp isHere).1, isHere], same⟩
  · intro index fromStart beforeStart
    rw [List.getElem?_append_left (Nat.lt_of_lt_of_le beforeStart inside)]
    exact isStart.unbroken index fromStart beforeStart

/-- A line goes on after a character that is no line break. -/
theorem IsLineStart.succ
    {source : List Char} {start lineStart : Nat}
    (isStart : IsLineStart source start lineStart)
    (other : source[start]? ≠ some '\n') :
    IsLineStart source (start + 1) lineStart := by
  refine ⟨Nat.le_succ_of_le isStart.before, isStart.begins, ?_⟩
  intro index fromStart beforeStart
  rcases Nat.lt_succ_iff_lt_or_eq.mp beforeStart with earlier | rfl
  · exact isStart.unbroken index fromStart earlier
  · exact other

/-- A line begins after a line break. -/
theorem IsLineStart.of_break
    {source : List Char} {index : Nat} (isBreak : source[index]? = some '\n') :
    IsLineStart source (index + 1) (index + 1) := by
  refine ⟨Nat.le_refl _, .inr ⟨index, isBreak, rfl⟩, ?_⟩
  intro later fromStart beforeStart
  exact absurd fromStart (Nat.not_le_of_lt beforeStart)

/-- Whether the line and the offset within the line that a token gives are those of
the place where it starts. -/
structure LexedToken.IsPlaced (token : LexedToken) (source : List Char) : Prop where
  line : token.location.line =
    (source.take token.location.start).count '\n'
  lineOffset : ∃ lineStart,
    IsLineStart source token.location.start lineStart ∧
      token.location.lineOffset = token.location.start - lineStart

namespace Position

/-- The line of a position is the one that the characters before it lead to. -/
theorem isLineStart_skip (front : List Char) :
    IsLineStart front (({} : Position).skip front).offset
      (({} : Position).skip front).lineStart := by
  induction front using List.reverseRecOn with
  | nil =>
      exact ⟨Nat.le_refl _, .inl rfl, fun _ _ impossible =>
        absurd impossible (Nat.not_lt_zero _)⟩
  | append_singleton front character isStart =>
      have isOffset : (({} : Position).skip front).offset = front.length := by
        rw [skip_offset]
        exact Nat.zero_add _
      have isHere : (front ++ [character])[(({} : Position).skip front).offset]? =
          some character := by
        rw [isOffset, List.getElem?_concat_length]
      rw [skip_append, skip_cons, skip_nil, next]
      split
      case isTrue isBreak => exact .of_break (isBreak ▸ isHere)
      case isFalse other =>
        refine (isStart.append (Nat.le_of_eq isOffset) _).succ ?_
        rw [isHere]
        exact fun same => other (Option.some.inj same)

end Position

namespace Token

/-- A location that is taken after some text has the line that the text leads to. -/
theorem isPlaced_between
    (result : Except LexicalError Token) (file : String) (front text : List Char)
    (stop : Nat) :
    (⟨result, .between file (({} : Position).skip front) stop⟩ : LexedToken).IsPlaced
      (front ++ text) := by
  have isOffset : (({} : Position).skip front).offset = front.length := by
    rw [Position.skip_offset]
    exact Nat.zero_add _
  constructor
  · change (({} : Position).skip front).line =
      ((front ++ text).take (({} : Position).skip front).offset).count '\n'
    rw [isOffset, List.take_left, Position.skip_line]
    exact Nat.zero_add _
  · exact ⟨_, (Position.isLineStart_skip front).append (Nat.le_of_eq isOffset) text,
      rfl⟩

/-- However a text is cut, each token has the line to which what stands before it
leads. -/
theorem Cuts.isPlaced
    {file : String} {position : Position} {text front : List Char}
    {tokens : List LexedToken} (cuts : Cuts file position text tokens)
    (isHere : position = ({} : Position).skip front) :
    ∀ token ∈ tokens, token.IsPlaced (front ++ text) := by
  induction cuts generalizing front with
  | done position =>
      intro token listed
      cases listed
  | skip isGap later induction =>
      rw [← List.append_assoc]
      exact induction (by rw [isHere, Position.skip_append])
  | @single position text rest tokens result isPiece later induction =>
      subst isHere
      intro token listed
      rcases List.mem_cons.mp listed with rfl | listed
      · exact isPlaced_between ..
      · rw [← List.append_assoc]
        exact induction (Position.skip_append ..).symm token listed
  | @opening position name rest tokens nonempty later induction =>
      subst isHere
      intro token listed
      rcases List.mem_cons.mp listed with rfl | listed
      · exact isPlaced_between ..
      rcases List.mem_cons.mp listed with rfl | listed
      · exact isPlaced_between ..
      · rw [← List.append_assoc front]
        exact induction (Position.skip_append ..).symm token listed
  | @closing position text rest tokens result isPiece isValue later induction =>
      subst isHere
      intro token listed
      rcases List.mem_cons.mp listed with rfl | listed
      · exact isPlaced_between ..
      rcases List.mem_cons.mp listed with rfl | listed
      · exact isPlaced_between ..
      · rw [← List.append_assoc]
        exact induction (Position.skip_append ..).symm token listed

/-- Every token gives the number of line breaks before it as its line, and its
distance from the start of this line as its offset. -/
theorem isPlaced_lex (source file : String) :
    ∀ token ∈ lex source file, token.IsPlaced source.toList := by
  have isFirst : ({} : Position) = ({} : Position).skip [] := rfl
  exact (cuts_lex source file).isPlaced isFirst

/-- A quoted text of three lines keeps the line that it starts on, and the label
after it and a comment is on the fourth line. -/
theorem isPlaced_lex_after_quoted :
    (⟨.ok (.quoted "a\n\nb"), ⟨"f", 1, 7, 0, 1⟩⟩ : LexedToken).IsPlaced
        " 'a\n\nb' // c\n d".toList ∧
      (⟨.ok (.label "d"), ⟨"f", 14, 15, 3, 1⟩⟩ : LexedToken).IsPlaced
        " 'a\n\nb' // c\n d".toList := by
  have tokens : lex " 'a\n\nb' // c\n d" "f" =
      [⟨.ok (.quoted "a\n\nb"), ⟨"f", 1, 7, 0, 1⟩⟩,
        ⟨.ok (.label "d"), ⟨"f", 14, 15, 3, 1⟩⟩] :=
    rfl
  have placed := isPlaced_lex " 'a\n\nb' // c\n d" "f"
  rw [tokens] at placed
  exact ⟨placed _ (.head _), placed _ (.tail _ (.head _))⟩

end Token

end LdpScore
