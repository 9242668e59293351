import LdpScore.Notation.Appearance
import LdpScore.Notation.BeamLevels
import LdpScore.Notation.Duration
import LdpScore.Notation.Pitch

/-!
# How values are written

Pitches, note values and beam levels are written in a few characters, each in one way
only.  `IsExact` says of a reader that it accepts what is written so and nothing else;
then the text can be told from the value that is read from it.

Colors are written with hexadecimal digits, small or capital.  Their reader accepts all
of them, and more: a plus sign may stand in the place of the first digit of a component.
-/

namespace LdpScore

/-! ## Digits -/

namespace Text

/-- A hexadecimal digit, small or capital, and its value. -/
def IsHexDigit (character : Char) (value : Nat) : Prop :=
  value < 16 ∧ (character = value.digitChar ∨ character = value.digitChar.toUpper)

/-- The code points of the digits are in order, with the letters apart. -/
theorem toNat_digitChar {value : Nat} (isDigit : value < 16) :
    value.digitChar.toNat = (if value < 10 then 48 else 87) + value ∧
      value.digitChar.toUpper.toNat = (if value < 10 then 48 else 55) + value := by
  revert value
  decide

/-- The characters from one to another are those with code points between theirs. -/
theorem between_iff {first character last : Char} :
    first ≤ character ∧ character ≤ last ↔
      first.toNat ≤ character.toNat ∧ character.toNat ≤ last.toNat := by
  simp only [Char.le_def, UInt32.le_iff_toNat_le, Char.toNat_val]

theorem isDigit_iff_digitChar {character : Char} {value : Nat} :
    character.isDigit = true ∧ character.toNat - '0'.toNat = value ↔
      value < 10 ∧ character = value.digitChar := by
  constructor
  · rintro ⟨isDigit, rfl⟩
    obtain ⟨atLeast, atMost⟩ := Char.isDigit_iff_toNat.mp isDigit
    change 48 ≤ character.toNat at atLeast
    change character.toNat ≤ 57 at atMost
    have small : character.toNat - 48 < 10 := by omega
    refine ⟨small, Char.toNat_inj.mp ?_⟩
    exact ((Nat.toNat_digitChar_of_lt_ten small).trans (Nat.add_sub_cancel' atLeast)).symm
  · rintro ⟨small, rfl⟩
    exact ⟨by rw [Nat.isDigit_digitChar, decide_eq_true small],
      Nat.toNat_digitChar_sub_48_of_lt_ten small⟩

/-- The characters with a value are the hexadecimal digits. -/
theorem hexDigit?_eq_some_iff {character : Char} {value : Nat} :
    hexDigit? character = some value ↔ IsHexDigit character value := by
  constructor
  · intro read
    unfold hexDigit? at read
    split at read
    case isTrue isDigit =>
      obtain ⟨small, isChar⟩ := isDigit_iff_digitChar.mp ⟨isDigit, Option.some.inj read⟩
      exact ⟨Nat.lt_trans small (by decide), .inl isChar⟩
    split at read
    case isTrue isSmall =>
      obtain ⟨atLeast, atMost⟩ := between_iff.mp isSmall
      change 97 ≤ character.toNat at atLeast
      change character.toNat ≤ 102 at atMost
      have isValue : character.toNat - 97 + 10 = value := Option.some.inj read
      have isDigit : value < 16 := by omega
      refine ⟨isDigit, .inl (Char.toNat_inj.mp ?_)⟩
      rw [(toNat_digitChar isDigit).1, if_neg (by omega)]
      omega
    split at read
    case isTrue isCapital =>
      obtain ⟨atLeast, atMost⟩ := between_iff.mp isCapital
      change 65 ≤ character.toNat at atLeast
      change character.toNat ≤ 70 at atMost
      have isValue : character.toNat - 65 + 10 = value := Option.some.inj read
      have isDigit : value < 16 := by omega
      refine ⟨isDigit, .inr (Char.toNat_inj.mp ?_)⟩
      rw [(toNat_digitChar isDigit).2, if_neg (by omega)]
      omega
    case isFalse => cases read
  · have readsBoth : ∀ value < 16, hexDigit? value.digitChar = some value ∧
        hexDigit? value.digitChar.toUpper = some value := by
      decide
    rintro ⟨isDigit, rfl | rfl⟩
    · exact (readsBoth value isDigit).1
    · exact (readsBoth value isDigit).2

theorem IsHexDigit.ne_plus {character : Char} {value : Nat}
    (isDigit : IsHexDigit character value) : character ≠ '+' := by
  rintro rfl
  cases hexDigit?_eq_some_iff.mpr isDigit

end Text

/-! ## Colors -/

namespace Color

open Text (IsHexDigit hexDigit?_eq_some_iff)

/-- Two hexadecimal digits and the number that they write. -/
def IsByte (first second : Char) (value : Nat) : Prop :=
  ∃ high low, IsHexDigit first high ∧ IsHexDigit second low ∧ value = 16 * high + low

/-- What is read as a component: two hexadecimal digits, or a plus sign and one. -/
def IsComponent (first second : Char) (value : Nat) : Prop :=
  IsByte first second value ∨ first = '+' ∧ IsHexDigit second value

/-- A color is written as a hash sign and three components, or four of them with its
opacity. -/
inductive IsWritten (IsPart : Char → Char → Nat → Prop) : List Char → Color → Prop
  | solid {r₁ r₂ g₁ g₂ b₁ b₂ : Char} {red green blue : Nat}
      (isRed : IsPart r₁ r₂ red) (isGreen : IsPart g₁ g₂ green)
      (isBlue : IsPart b₁ b₂ blue) :
      IsWritten IsPart ['#', r₁, r₂, g₁, g₂, b₁, b₂] ⟨red, green, blue, 255⟩
  | sheer {r₁ r₂ g₁ g₂ b₁ b₂ a₁ a₂ : Char} {red green blue alpha : Nat}
      (isRed : IsPart r₁ r₂ red) (isGreen : IsPart g₁ g₂ green)
      (isBlue : IsPart b₁ b₂ blue) (isAlpha : IsPart a₁ a₂ alpha) :
      IsWritten IsPart ['#', r₁, r₂, g₁, g₂, b₁, b₂, a₁, a₂] ⟨red, green, blue, alpha⟩

section Part

variable {IsPart IsOther : Char → Char → Nat → Prop} {text : List Char} {color : Color}

theorem IsWritten.imp
    (implies : ∀ first ∈ text, ∀ second ∈ text, ∀ value,
      IsPart first second value → IsOther first second value)
    (written : IsWritten IsPart text color) : IsWritten IsOther text color := by
  cases written with
  | solid isRed isGreen isBlue =>
      exact .solid (implies _ (by simp) _ (by simp) _ isRed)
        (implies _ (by simp) _ (by simp) _ isGreen)
        (implies _ (by simp) _ (by simp) _ isBlue)
  | sheer isRed isGreen isBlue isAlpha =>
      exact .sheer (implies _ (by simp) _ (by simp) _ isRed)
        (implies _ (by simp) _ (by simp) _ isGreen)
        (implies _ (by simp) _ (by simp) _ isBlue)
        (implies _ (by simp) _ (by simp) _ isAlpha)

/-- What is in no component is not in the text. -/
theorem IsWritten.not_mem {character : Char} (noHash : character ≠ '#')
    (absent : ∀ {first second value}, IsPart first second value →
      character ≠ first ∧ character ≠ second)
    (written : IsWritten IsPart text color) : character ∉ text := by
  cases written with
  | solid isRed isGreen isBlue =>
      simp [noHash, absent isRed, absent isGreen, absent isBlue]
  | sheer isRed isGreen isBlue isAlpha =>
      simp [noHash, absent isRed, absent isGreen, absent isBlue, absent isAlpha]

end Part

theorem component?_eq_some_iff {first second : Char} {value : Nat} :
    component? first second = some value ↔ IsComponent first second value := by
  rw [component?, IsComponent, IsByte]
  split
  case isTrue isPlus =>
    subst isPlus
    rw [hexDigit?_eq_some_iff]
    constructor
    · exact fun isDigit => .inr ⟨rfl, isDigit⟩
    · rintro (⟨high, low, isHigh, _⟩ | ⟨_, isDigit⟩)
      · exact absurd rfl isHigh.ne_plus
      · exact isDigit
  case isFalse other =>
    simp only [other, false_and, or_false, ← hexDigit?_eq_some_iff]
    split
    case h_1 high low isHigh isLow => simp [isHigh, isLow, eq_comm]
    case h_2 missing =>
      refine ⟨nofun, ?_⟩
      rintro ⟨high, low, isHigh, isLow, _⟩
      exact (missing high low isHigh isLow).elim

theorem ofText?_eq_some_iff {text : List Char} {color : Color} :
    ofText? text = some color ↔ IsWritten IsComponent text color := by
  constructor
  · intro read
    unfold ofText? at read
    split at read
    · simp only [Option.bind_eq_bind, Option.bind_eq_some_iff,
        component?_eq_some_iff] at read
      obtain ⟨red, isRed, green, isGreen, blue, isBlue, same⟩ := read
      cases same
      exact .solid isRed isGreen isBlue
    · simp only [Option.bind_eq_bind, Option.bind_eq_some_iff,
        component?_eq_some_iff] at read
      obtain ⟨red, isRed, green, isGreen, blue, isBlue, alpha, isAlpha, same⟩ := read
      cases same
      exact .sheer isRed isGreen isBlue isAlpha
    · cases read
  · rintro (⟨isRed, isGreen, isBlue⟩ | ⟨isRed, isGreen, isBlue, isAlpha⟩)
    · simp [ofText?, component?_eq_some_iff.mpr isRed, component?_eq_some_iff.mpr isGreen,
        component?_eq_some_iff.mpr isBlue]
    · simp [ofText?, component?_eq_some_iff.mpr isRed, component?_eq_some_iff.mpr isGreen,
        component?_eq_some_iff.mpr isBlue, component?_eq_some_iff.mpr isAlpha]

/-- Without a plus sign, a component is written with two digits. -/
theorem isByte_iff {first second : Char} {value : Nat} :
    IsByte first second value ↔
      IsComponent first second value ∧ first ≠ '+' ∧ second ≠ '+' := by
  constructor
  · intro isByte
    obtain ⟨high, low, isHigh, isLow, _⟩ := id isByte
    exact ⟨.inl isByte, isHigh.ne_plus, isLow.ne_plus⟩
  · rintro ⟨isByte | ⟨isPlus, _⟩, other, _⟩
    · exact isByte
    · exact absurd isPlus other

/-- Without plus signs, all components are written with two digits. -/
theorem isWritten_isByte_iff {text : List Char} {color : Color} :
    IsWritten IsByte text color ↔ IsWritten IsComponent text color ∧ '+' ∉ text := by
  constructor
  · intro written
    refine ⟨written.imp fun _ _ _ _ _ => .inl, written.not_mem (by decide) ?_⟩
    intro first second value isByte
    obtain ⟨-, noPlus, noPlusToo⟩ := isByte_iff.mp isByte
    exact ⟨noPlus.symm, noPlusToo.symm⟩
  · rintro ⟨written, noPlus⟩
    have other : ∀ character ∈ text, character ≠ '+' :=
      fun _ listed isPlus => noPlus (isPlus ▸ listed)
    exact written.imp fun first isFirst second isSecond value isPart =>
      isByte_iff.mpr ⟨isPart, other first isFirst, other second isSecond⟩

/-- A color is read from what is written with three or four components, and these are
written with hexadecimal digits if there is no plus sign. -/
theorem isWritten_iff_ofText? (text : List Char) (color : Color) :
    (ofText? text = some color ↔ IsWritten IsComponent text color) ∧
      (IsWritten IsByte text color ↔ ofText? text = some color ∧ '+' ∉ text) := by
  rw [isWritten_isByte_iff, ofText?_eq_some_iff]
  exact ⟨.rfl, .rfl⟩

/-- Not every text that is read as a color has hexadecimal digits only: in `#+f+f+f`
every component is a plus sign and one digit. -/
theorem not_all_colors_hexadecimal :
    ¬ ∀ text color, ofText? text = some color ↔ IsWritten IsByte text color := by
  intro agrees
  have read : ofText? "#+f+f+f".toList = some ⟨15, 15, 15, 255⟩ := by decide
  exact absurd (isWritten_isByte_iff.mp ((agrees _ _).mp read)).2 (by decide)

end Color

/-! ## Single characters -/

theorem Step.ofLetter?_eq_some_iff {character : Char} {step : Step} :
    ofLetter? character = some step ↔ character = step.letter := by
  constructor
  · intro read
    unfold ofLetter? at read
    split at read <;> cases read <;> rfl
  · rintro rfl
    cases step <;> rfl

theorem NoteType.ofLetter?_eq_some_iff {character : Char} {type : NoteType} :
    ofLetter? character = some type ↔ character = type.letter := by
  constructor
  · intro read
    unfold ofLetter? at read
    split at read <;> cases read <;> rfl
  · rintro rfl
    cases type <;> rfl

theorem Accidentals.ofPrefix?_eq_some_iff {text : List Char} {accidentals : Accidentals} :
    ofPrefix? text = some accidentals ↔ text = accidentals.spelling := by
  constructor
  · intro read
    unfold ofPrefix? at read
    split at read <;> cases read <;> rfl
  · rintro rfl
    cases accidentals <;> rfl

theorem BeamMark.ofChar?_eq_some_iff {character : Char} {mark : BeamMark} :
    ofChar? character = some mark ↔ mark.char? = some character := by
  constructor
  · intro read
    unfold ofChar? at read
    split at read <;> cases read <;> rfl
  · intro written
    cases mark <;> cases written <;> rfl

theorem BeamMark.char?_eq_none_iff {mark : BeamMark} : mark.char? = Option.none ↔ mark = .none := by
  cases mark <;> decide

/-! ## Pitches -/

namespace Pitch

/-- Accidentals, a step letter and an octave digit, one after the other. -/
def spelling (pitch : Pitch) : List Char :=
  pitch.accidentals.spelling ++ [pitch.step.letter, pitch.octave.digitChar]

theorem ofText?_eq_some_iff {text : List Char} {pitch : Pitch} :
    ofText? text = some pitch ↔ pitch.octave < 10 ∧ text = pitch.spelling := by
  constructor
  · intro read
    unfold ofText? at read
    split at read
    case h_1 octave letter before reversed =>
      split at read
      case isTrue isDigit =>
        split at read
        case h_1 step accidentals isStep areAccidentals =>
          cases read
          obtain ⟨small, isOctave⟩ := Text.isDigit_iff_digitChar.mp ⟨isDigit, rfl⟩
          refine ⟨small, ?_⟩
          rw [spelling, ← isOctave, ← Step.ofLetter?_eq_some_iff.mp isStep,
            ← Accidentals.ofPrefix?_eq_some_iff.mp areAccidentals,
            ← List.reverse_reverse text, reversed]
          simp
        case h_2 => cases read
      case isFalse => cases read
    case h_2 => cases read
  · rintro ⟨small, rfl⟩
    have isStep := Step.ofLetter?_eq_some_iff.mpr (rfl : pitch.step.letter = _)
    have areAccidentals :=
      Accidentals.ofPrefix?_eq_some_iff.mpr (rfl : pitch.accidentals.spelling = _)
    simp [ofText?, spelling, Nat.isDigit_digitChar, small, isStep, areAccidentals,
      Nat.toNat_digitChar_sub_48_of_lt_ten small]

end Pitch

/-! ## Note values -/

theorem NoteValue.ofText?_eq_some_iff {text : List Char} {value : NoteValue} :
    ofText? text = some value ↔ value.dots ≤ 255 ∧ text = value.spelling := by
  constructor
  · intro read
    cases text with
    | nil => cases read
    | cons letter dots =>
        rw [ofText?] at read
        split at read
        case h_1 type isType =>
          split at read
          case isTrue limited =>
            cases read
            rw [Bool.and_eq_true, decide_eq_true_eq, List.all_eq_true] at limited
            have areDots : dots = List.replicate dots.length '.' :=
              List.eq_replicate_iff.mpr
                ⟨rfl, fun dot listed => eq_of_beq (limited.1 dot listed)⟩
            refine ⟨Nat.le_of_lt_succ limited.2, ?_⟩
            rw [spelling, ← NoteType.ofLetter?_eq_some_iff.mp isType, ← areDots]
          case isFalse => cases read
        case h_2 => cases read
  · rintro ⟨limited, rfl⟩
    have isType := NoteType.ofLetter?_eq_some_iff.mpr (rfl : value.type.letter = _)
    simp [ofText?, spelling, isType, Nat.lt_succ_of_le limited]

/-! ## Beam levels -/

namespace BeamLevels

/-- One to six characters, one for each level that has a mark; the levels after them
have none. -/
structure IsWritten (text : List Char) (levels : BeamLevels) : Prop where
  notEmpty : text ≠ []
  limited : text.length ≤ maxBeamLevels
  spells : ∀ level : Fin maxBeamLevels, (levels.get level).char? = text[level.val]?

theorem mapM_ofChar?_eq_some_iff {text : List Char} {marks : List BeamMark} :
    text.mapM BeamMark.ofChar? = some marks ↔
      marks.map BeamMark.char? = text.map some := by
  induction text generalizing marks with
  | nil => simp [eq_comm]
  | cons first rest induction =>
      simp only [List.mapM_cons, Option.bind_eq_bind, Option.bind_eq_some_iff,
        BeamMark.ofChar?_eq_some_iff, induction, List.map_cons, List.map_eq_cons_iff]
      constructor
      · rintro ⟨mark, isMark, marks, areMarks, same⟩
        cases same
        exact ⟨mark, marks, rfl, isMark, areMarks⟩
      · rintro ⟨mark, marks, rfl, isMark, areMarks⟩
        exact ⟨mark, isMark, marks, areMarks, rfl⟩

/-- A list of marks spells a text if at each level it writes the character there. -/
theorem map_char?_eq_iff {text : List Char} {marks : List BeamMark} :
    marks.map BeamMark.char? = text.map some ↔
      marks.length = text.length ∧
        ∀ level, (marks.getD level .none).char? = text[level]? := by
  constructor
  · intro same
    have sameLength : marks.length = text.length := by
      simpa using congrArg List.length same
    refine ⟨sameLength, fun level => ?_⟩
    have sameAt := congrArg (·[level]?) same
    simp only [List.getElem?_map] at sameAt
    rw [List.getD_eq_getElem?_getD]
    rcases Nat.lt_or_ge level text.length with inside | outside
    · rw [List.getElem?_eq_getElem inside] at sameAt ⊢
      rw [List.getElem?_eq_getElem (sameLength ▸ inside)] at sameAt ⊢
      exact Option.some.inj sameAt
    · rw [List.getElem?_eq_none outside, List.getElem?_eq_none (sameLength ▸ outside)]
      rfl
  · rintro ⟨sameLength, spells⟩
    refine List.ext_getElem (by simpa using sameLength) fun level inside _ => ?_
    rw [List.length_map] at inside
    have spelled := spells level
    rw [List.getD_eq_getElem?_getD, List.getElem?_eq_getElem inside,
      List.getElem?_eq_getElem (sameLength ▸ inside)] at spelled
    simpa using spelled

theorem get_ofList (marks : List BeamMark) (level : Fin maxBeamLevels) :
    (ofList marks).get level = marks.getD level .none := by
  show (ofList marks)[level.val] = _
  rw [ofList, Vector.getElem_ofFn]

/-- The marks that a text writes are at the levels of its characters, and there are no
others. -/
theorem IsWritten.exists_marks {text : List Char} {levels : BeamLevels}
    (written : IsWritten text levels) :
    ∃ marks, marks.map BeamMark.char? = text.map some ∧ ofList marks = levels := by
  have isLevel : ∀ level : Fin maxBeamLevels,
      (levels.toList.take text.length).getD level .none = levels.get level := by
    intro level
    rw [List.getD_eq_getElem?_getD, List.getElem?_take]
    split
    case isTrue => simp [Vector.get]
    case isFalse outside =>
      have unmarked := written.spells level
      rw [List.getElem?_eq_none (Nat.le_of_not_lt outside)] at unmarked
      exact (BeamMark.char?_eq_none_iff.mp unmarked).symm
  refine ⟨levels.toList.take text.length, map_char?_eq_iff.mpr ⟨?_, fun level => ?_⟩, ?_⟩
  · rw [List.length_take, Vector.length_toList]
    exact Nat.min_eq_left written.limited
  · rcases Nat.lt_or_ge level maxBeamLevels with inside | outside
    · rw [isLevel ⟨level, inside⟩, written.spells ⟨level, inside⟩]
    · have beyond : text.length ≤ level := Nat.le_trans written.limited outside
      rw [List.getElem?_eq_none beyond, List.getD_eq_getElem?_getD,
        List.getElem?_take_eq_none beyond]
      rfl
  · refine Vector.ext fun level inside => ?_
    exact (get_ofList _ ⟨level, inside⟩).trans (isLevel ⟨level, inside⟩)

theorem ofText?_eq_some_iff {text : List Char} {levels : BeamLevels} :
    ofText? text = some levels ↔ IsWritten text levels := by
  have suits : (text.isEmpty || maxBeamLevels < text.length) = false ↔
      text ≠ [] ∧ text.length ≤ maxBeamLevels := by
    simp
  rw [ofText?]
  constructor
  · intro read
    split at read
    case isTrue => cases read
    case isFalse isSuited =>
      obtain ⟨notEmpty, limited⟩ := suits.mp (Bool.eq_false_iff.mpr isSuited)
      obtain ⟨marks, areMarks, rfl⟩ := Option.map_eq_some_iff.mp read
      have spells := (map_char?_eq_iff.mp (mapM_ofChar?_eq_some_iff.mp areMarks)).2
      refine ⟨notEmpty, limited, fun level => ?_⟩
      rw [get_ofList, spells]
  · intro written
    obtain ⟨marks, areMarks, isLevels⟩ := written.exists_marks
    rw [if_neg (Bool.eq_false_iff.mp (suits.mpr ⟨written.notEmpty, written.limited⟩)),
      mapM_ofChar?_eq_some_iff.mpr areMarks, Option.map_some, isLevels]

/-- Beam levels are written in one way. -/
theorem IsWritten.unique {text other : List Char} {levels : BeamLevels}
    (written : IsWritten text levels) (isOther : IsWritten other levels) :
    text = other := by
  refine List.ext_getElem? fun level => ?_
  rcases Nat.lt_or_ge level maxBeamLevels with inside | outside
  · rw [← written.spells ⟨level, inside⟩, ← isOther.spells ⟨level, inside⟩]
  · rw [List.getElem?_eq_none (Nat.le_trans written.limited outside),
      List.getElem?_eq_none (Nat.le_trans isOther.limited outside)]

end BeamLevels

/-! ## Exact readers -/

/-- A reader accepts the texts that write a value and no others, and no two of them
write the same value. -/
structure IsExact {Value : Type} (read : List Char → Option Value)
    (IsWritten : List Char → Value → Prop) : Prop where
  accepts : ∀ text value, read text = some value ↔ IsWritten text value
  injective : ∀ text other value,
    read text = some value → read other = some value → text = other

theorem IsExact.of_unique {Value : Type} {read : List Char → Option Value}
    {IsWritten : List Char → Value → Prop}
    (accepts : ∀ text value, read text = some value ↔ IsWritten text value)
    (unique : ∀ text other value,
      IsWritten text value → IsWritten other value → text = other) :
    IsExact read IsWritten where
  accepts := accepts
  injective text other value isRead isOther :=
    unique text other value ((accepts _ _).mp isRead) ((accepts _ _).mp isOther)

/-- Pitches, note values and beam levels are read without loss. -/
theorem isExact_notations :
    IsExact Pitch.ofText?
        (fun text pitch => pitch.octave < 10 ∧ text = pitch.spelling) ∧
      IsExact NoteValue.ofText?
        (fun text value => value.dots ≤ 255 ∧ text = value.spelling) ∧
      IsExact BeamLevels.ofText? BeamLevels.IsWritten := by
  refine ⟨.of_unique (fun _ _ => Pitch.ofText?_eq_some_iff) ?_,
    .of_unique (fun _ _ => NoteValue.ofText?_eq_some_iff) ?_,
    .of_unique (fun _ _ => BeamLevels.ofText?_eq_some_iff) ?_⟩
  · exact fun _ _ _ written isOther => written.2.trans isOther.2.symm
  · exact fun _ _ _ written isOther => written.2.trans isOther.2.symm
  · exact fun _ _ _ => BeamLevels.IsWritten.unique

end LdpScore
