import LdpScore.Node.Reader
import Mathlib.Data.List.TakeWhile

/-!
# Tags and ids

A tag is a name, perhaps followed by a hash sign and an id.  `IsInteger` says which
texts write an integer, and `Tagged` says what a tag means: its name stands before
the first hash sign, and what stands after it is an id if it writes an integer that
is not negative.  Reading a tag finds what it means.
-/

namespace LdpScore

/-! ## Integers -/

namespace Decimal

/-- One digit or more, and nothing else. -/
def AreDigits (text : List Char) : Prop :=
  text ≠ [] ∧ ∀ character ∈ text, character.isDigit = true

/-- A text that writes an integer: at most one sign, then digits, and a value within
the limits. -/
inductive IsInteger : List Char → Int → Prop
  | plain {digits : List Char} (areDigits : AreDigits digits)
      (fits : (digitsValue digits : Int) ≤ maxInteger) :
      IsInteger digits (digitsValue digits)
  | plus {digits : List Char} (areDigits : AreDigits digits)
      (fits : (digitsValue digits : Int) ≤ maxInteger) :
      IsInteger ('+' :: digits) (digitsValue digits)
  | minus {digits : List Char} (areDigits : AreDigits digits)
      (fits : minInteger ≤ -(digitsValue digits : Int)) :
      IsInteger ('-' :: digits) (-(digitsValue digits : Int))

theorem withinLimits?_eq_some_iff {value number : Int} :
    withinLimits? value = some number ↔
      value = number ∧ minInteger ≤ value ∧ value ≤ maxInteger := by
  rw [withinLimits?, Option.ite_none_right_eq_some, Option.some.injEq]
  exact and_comm

/-- No digit is a sign. -/
theorem AreDigits.splitSign_append {digits : List Char} (areDigits : AreDigits digits)
    (rest : List Char) : splitSign (digits ++ rest) = (false, digits ++ rest) := by
  obtain ⟨first, others, rfl⟩ := List.exists_cons_of_ne_nil areDigits.1
  have isDigit := areDigits.2 first List.mem_cons_self
  unfold Decimal.splitSign
  split
  case h_1 same => cases same; exact absurd isDigit (by decide)
  case h_2 same => cases same; exact absurd isDigit (by decide)
  case h_3 => rfl

theorem AreDigits.splitSign {digits : List Char} (areDigits : AreDigits digits) :
    splitSign digits = (false, digits) := by
  simpa using areDigits.splitSign_append []

/-- An integer is a sign, if there is one, before digits. -/
theorem integer?_eq_some_iff_split {text : List Char} {number : Int} :
    integer? text = some number ↔
      AreDigits (splitSign text).2 ∧
        withinLimits? (signed (splitSign text).1
          (digitsValue (splitSign text).2)) = some number := by
  obtain ⟨⟨negative, unsigned⟩, isSplit⟩ : ∃ split, splitSign text = split :=
    ⟨_, rfl⟩
  simp only [integer?, leadingInteger?, isSplit, AreDigits]
  by_cases all : ∀ character ∈ unsigned, character.isDigit = true
  · have front : unsigned.takeWhile Char.isDigit = unsigned :=
      List.takeWhile_eq_self_iff.mpr all
    have areAll : unsigned.all Char.isDigit = true := List.all_eq_true.mpr all
    simp [areAll, front, and_iff_left all]
  · simp [all]

/-- The integers that can be read are those that a text writes. -/
theorem integer?_eq_some_iff {text : List Char} {number : Int} :
    integer? text = some number ↔ IsInteger text number := by
  rw [integer?_eq_some_iff_split, withinLimits?_eq_some_iff]
  constructor
  · rintro ⟨areDigits, rfl, atLeast, atMost⟩
    revert areDigits atLeast atMost
    unfold splitSign
    split
    · exact fun areDigits atLeast _ => .minus areDigits atLeast
    · exact fun areDigits _ atMost => .plus areDigits atMost
    · exact fun areDigits _ atMost => .plain areDigits atMost
  · have low : ∀ digits : List Char, minInteger ≤ (digitsValue digits : Int) :=
      fun digits => Int.le_trans (by decide) (Int.natCast_nonneg _)
    have high : ∀ digits : List Char,
        -(digitsValue digits : Int) ≤ maxInteger :=
      fun digits => Int.le_trans (Int.neg_nonpos_of_nonneg
        (Int.natCast_nonneg _)) (by decide)
    intro isInteger
    cases isInteger with
    | plain areDigits fits =>
        rw [areDigits.splitSign]
        exact ⟨areDigits, rfl, low _, fits⟩
    | plus areDigits fits => exact ⟨areDigits, rfl, low _, fits⟩
    | minus areDigits fits => exact ⟨areDigits, rfl, fits, high _⟩

theorem IsInteger.le_maxInteger
    {text : List Char} {number : Int} (isInteger : IsInteger text number) :
    number ≤ maxInteger := by
  have read := integer?_eq_some_iff.mpr isInteger
  obtain ⟨rfl, _, atMost⟩ :=
    withinLimits?_eq_some_iff.mp (integer?_eq_some_iff_split.mp read).2
  exact atMost

/-- The usual digits of a number write it. -/
theorem areDigits_toDigits (number : Nat) :
    AreDigits (Nat.toDigits 10 number) :=
  ⟨Nat.toDigits_ne_nil, fun _ listed =>
    Nat.isDigit_of_mem_toDigits (by decide) (by decide) listed⟩

theorem digitsValue_toDigits (number : Nat) :
    digitsValue (Nat.toDigits 10 number) = number :=
  Nat.ofDigitChars_toDigits (by decide) (by decide)

theorem IsInteger.toDigits {number : Nat} (fits : (number : Int) ≤ maxInteger) :
    IsInteger (Nat.toDigits 10 number) number := by
  have written := IsInteger.plain (areDigits_toDigits number)
  rw [digitsValue_toDigits] at written
  exact written fits

end Decimal

/-! ## Tags -/

namespace Node

open Decimal (IsInteger)

/-- What a tag means: a name, perhaps an id, and whether there is a bad one. -/
inductive Tagged : List Char → List Char → Option Int → Bool → Prop
  | nameOnly {tag : List Char} (noHash : '#' ∉ tag) : Tagged tag tag none false
  | withId {name text : List Char} {id : Int} (noHash : '#' ∉ name)
      (isId : IsInteger text id) (notNegative : 0 ≤ id) :
      Tagged (name ++ '#' :: text) name (some id) false
  | badId {name text : List Char} (noHash : '#' ∉ name)
      (noId : ∀ id, IsInteger text id → id < 0) :
      Tagged (name ++ '#' :: text) name none true

theorem readId?_eq_some_iff {text : List Char} {id : Int} :
    readId? text = some id ↔ IsInteger text id ∧ 0 ≤ id := by
  rw [← Decimal.integer?_eq_some_iff, readId?]
  cases Decimal.integer? text with
  | none => simp
  | some number =>
      simp only [Option.ite_none_right_eq_some, Option.some.injEq]
      constructor
      · rintro ⟨notNegative, rfl⟩
        exact ⟨rfl, notNegative⟩
      · rintro ⟨rfl, notNegative⟩
        exact ⟨notNegative, rfl⟩

theorem readId?_eq_none_iff {text : List Char} :
    readId? text = none ↔ ∀ id, IsInteger text id → id < 0 := by
  simp only [Option.eq_none_iff_forall_ne_some, ne_eq, readId?_eq_some_iff,
    not_and, Int.not_le]

theorem splitTag_of_noHash {tag : List Char} (noHash : '#' ∉ tag) :
    splitTag tag = (tag, none) := by
  have noRest : tag.dropWhile (· != '#') = [] :=
    List.dropWhile_eq_nil_iff.mpr fun character listed =>
      bne_iff_ne.mpr fun isHash => noHash (isHash ▸ listed)
  rw [splitTag, noRest]

theorem splitTag_append {name : List Char} (noHash : '#' ∉ name)
    (text : List Char) :
    splitTag (name ++ '#' :: text) = (name, some text) := by
  have passes : ∀ character ∈ name, (character != '#') = true :=
    fun character listed =>
      bne_iff_ne.mpr fun isHash => noHash (isHash ▸ listed)
  rw [splitTag, List.dropWhile_append_of_pos passes,
    List.takeWhile_append_of_pos passes]
  simp

/-- Every tag is a name, or a name before a hash sign. -/
theorem splitTag_cases (tag : List Char) :
    '#' ∉ tag ∨ ∃ name text, '#' ∉ name ∧ tag = name ++ '#' :: text := by
  by_cases hash : '#' ∈ tag
  · obtain ⟨name, text, isSplit, noHash⟩ := List.eq_append_cons_of_mem hash
    exact .inr ⟨name, text, noHash, isSplit⟩
  · exact .inl hash

/-- Reading a tag finds what it means, and it means nothing else. -/
theorem tagged_iff
    {tag : String} {name : List Char} {id : Option Int} {isBad : Bool} :
    Tagged tag.toList name id isBad ↔
      (tagName tag).toList = name ∧ tagId? tag = id ∧ hasBadId tag = isBad := by
  rw [tagName, tagId?, hasBadId, String.toList_ofList]
  constructor
  · generalize tag.toList = text
    rintro (noHash | ⟨noHash, isId, notNegative⟩ | ⟨noHash, noId⟩)
    · rw [splitTag_of_noHash noHash]
      exact ⟨rfl, rfl, rfl⟩
    · rw [splitTag_append noHash]
      have read := readId?_eq_some_iff.mpr ⟨isId, notNegative⟩
      exact ⟨rfl, read, by simp [read]⟩
    · rw [splitTag_append noHash]
      have read := readId?_eq_none_iff.mpr noId
      exact ⟨rfl, read, by simp [read]⟩
  · rintro ⟨rfl, rfl, rfl⟩
    rcases splitTag_cases tag.toList with noHash | ⟨name, text, noHash, isSplit⟩
    · rw [splitTag_of_noHash noHash]
      exact .nameOnly noHash
    · rw [isSplit, splitTag_append noHash]
      dsimp only [Option.bind_some]
      cases read : readId? text with
      | none => exact .badId noHash (readId?_eq_none_iff.mp read)
      | some id =>
          obtain ⟨isId, notNegative⟩ := readId?_eq_some_iff.mp read
          exact .withId noHash isId notNegative

end Node

end LdpScore
