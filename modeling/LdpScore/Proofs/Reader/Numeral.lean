import LdpScore.Decimal.Binary
import LdpScore.Proofs.Reader.Spelling
import LdpScore.Proofs.Reader.Tag
import Mathlib.Data.Rat.Floor

/-!
# Numerals

A `Numeral` is a decimal number as it is written: perhaps a sign, one digit or more, and
perhaps a point with any number of digits after it.  Among the words of a text these are
the numbers, and all other words are labels.  The readers of values take the front of a
text only; of a numeral they take all that they can use.
-/

namespace LdpScore

namespace Decimal

/-- What may stand in front of the digits. -/
inductive NumeralSign where
  | none
  | plus
  | minus
deriving DecidableEq

def NumeralSign.spelling : NumeralSign → List Char
  | none => []
  | plus => ['+']
  | minus => ['-']

/-- A decimal number as it is written. -/
structure Numeral where
  sign : NumeralSign
  /-- The digits before the point. -/
  whole : List Char
  /-- The digits after the point, if there is one. -/
  fraction : Option (List Char)
  areDigits : AreDigits whole
  areDecimals : ∀ digits ∈ fraction, ∀ character ∈ digits, character.isDigit = true

namespace Numeral

/-- The point and the digits after it. -/
def pointSpelling (fraction : Option (List Char)) : List Char :=
  match fraction with
  | some digits => '.' :: digits
  | none => []

def spelling (numeral : Numeral) : List Char :=
  numeral.sign.spelling ++ (numeral.whole ++ pointSpelling numeral.fraction)

/-- The digits after the point. -/
def decimals (numeral : Numeral) : List Char :=
  numeral.fraction.getD []

def isNegative (numeral : Numeral) : Bool :=
  numeral.sign == .minus

/-- The number without its sign. -/
def magnitude (numeral : Numeral) : ℚ :=
  digitsValue numeral.whole +
    digitsValue numeral.decimals / 10 ^ numeral.decimals.length

/-- The number that is written. -/
def value (numeral : Numeral) : ℚ :=
  if numeral.isNegative then -numeral.magnitude else numeral.magnitude

/-- The number without what is after the point. -/
def integerPart (numeral : Numeral) : Int :=
  if 0 ≤ numeral.value then ⌊numeral.value⌋ else ⌈numeral.value⌉

end Numeral

/-! ## Words -/

theorem takeWhile_isDigit_append {whole : List Char} (areDigits : AreDigits whole)
    (fraction : Option (List Char)) :
    (whole ++ Numeral.pointSpelling fraction).takeWhile Char.isDigit = whole ∧
      (whole ++ Numeral.pointSpelling fraction).dropWhile Char.isDigit =
        Numeral.pointSpelling fraction := by
  rw [List.takeWhile_append_of_pos areDigits.2, List.dropWhile_append_of_pos areDigits.2]
  cases fraction with
  | none => simp [Numeral.pointSpelling]
  | some decimals =>
      have noDigit : ('.' : Char).isDigit = false := by decide
      simp [Numeral.pointSpelling, noDigit]

theorem isUnsignedNumber_iff {word : List Char} :
    Token.isUnsignedNumber word = true ↔
      ∃ whole fraction, AreDigits whole ∧
        (∀ digits ∈ fraction, ∀ character ∈ digits, character.isDigit = true) ∧
          word = whole ++ Numeral.pointSpelling fraction := by
  rw [Token.isUnsignedNumber, Bool.and_eq_true, Bool.not_eq_true', List.isEmpty_eq_false_iff]
  constructor
  · rintro ⟨someDigits, endsWell⟩
    have areDigits : AreDigits (word.takeWhile Char.isDigit) :=
      ⟨someDigits, fun _ => List.mem_takeWhile_imp⟩
    have isWord := List.takeWhile_append_dropWhile (p := Char.isDigit) (l := word)
    split at endsWell
    case h_1 isEmpty =>
      refine ⟨_, none, areDigits, nofun, ?_⟩
      rw [Numeral.pointSpelling, ← isEmpty, isWord]
    case h_2 decimals isRest =>
      refine ⟨_, some decimals, areDigits, ?_, ?_⟩
      · rintro digits ⟨⟩
        exact List.all_eq_true.mp endsWell
      · rw [Numeral.pointSpelling, ← isRest, isWord]
    case h_3 => cases endsWell
  · rintro ⟨whole, fraction, areDigits, areDecimals, rfl⟩
    obtain ⟨front, rest⟩ := takeWhile_isDigit_append areDigits fraction
    rw [front, rest]
    refine ⟨areDigits.1, ?_⟩
    cases fraction with
    | none => rfl
    | some decimals => exact List.all_eq_true.mpr (areDecimals decimals rfl)

/-- A sign may stand before the digits of a number, and it is the one that readers take
off. -/
theorem isNumberWord_eq (word : List Char) :
    Token.isNumberWord word = Token.isUnsignedNumber (splitSign word).2 := by
  unfold Token.isNumberWord
  split
  · rfl
  · rfl
  case h_3 noPlus noMinus =>
    unfold splitSign
    split
    · exact absurd rfl (noMinus _)
    · exact absurd rfl (noPlus _)
    · rfl

theorem exists_sign (word : List Char) :
    ∃ sign : NumeralSign, word = sign.spelling ++ (splitSign word).2 := by
  unfold splitSign
  split
  · exact ⟨.minus, rfl⟩
  · exact ⟨.plus, rfl⟩
  · exact ⟨.none, rfl⟩

theorem Numeral.splitSign_spelling (numeral : Numeral) :
    splitSign numeral.spelling =
      (numeral.isNegative, numeral.whole ++ pointSpelling numeral.fraction) := by
  rw [spelling, isNegative]
  cases numeral.sign with
  | none => exact numeral.areDigits.splitSign_append _
  | plus => rfl
  | minus => rfl

/-- The words that are numbers are the numerals. -/
theorem isNumberWord_iff {word : List Char} :
    Token.isNumberWord word = true ↔ ∃ numeral : Numeral, numeral.spelling = word := by
  rw [isNumberWord_eq, isUnsignedNumber_iff]
  constructor
  · rintro ⟨whole, fraction, areDigits, areDecimals, isUnsigned⟩
    obtain ⟨sign, isWord⟩ := exists_sign word
    rw [isUnsigned] at isWord
    exact ⟨⟨sign, whole, fraction, areDigits, areDecimals⟩, isWord.symm⟩
  · rintro ⟨numeral, rfl⟩
    rw [numeral.splitSign_spelling]
    exact ⟨_, _, numeral.areDigits, numeral.areDecimals, rfl⟩

/-! ## Reading a numeral -/

namespace Numeral

variable (numeral : Numeral)

/-- All that is read of a numeral: its sign, all its digits, and the place of the point. -/
def toFraction : Fraction :=
  ⟨numeral.isNegative, digitsValue (numeral.whole ++ numeral.decimals),
    numeral.decimals.length⟩

theorem leadingDecimal?_spelling :
    leadingDecimal? numeral.spelling = some numeral.toFraction := by
  obtain ⟨front, rest⟩ := takeWhile_isDigit_append numeral.areDigits numeral.fraction
  rw [leadingDecimal?, numeral.splitSign_spelling]
  dsimp only
  rw [front, rest]
  have someDigits : numeral.whole.isEmpty = false :=
    List.isEmpty_eq_false_iff.mpr numeral.areDigits.1
  rw [someDigits, Bool.false_and, if_neg Bool.false_ne_true, toFraction, decimals]
  cases isFraction : numeral.fraction with
  | none => rfl
  | some decimals =>
      have all : decimals.takeWhile Char.isDigit = decimals :=
        List.takeWhile_eq_self_iff.mpr (numeral.areDecimals decimals isFraction)
      simp only [pointSpelling, all, Option.getD_some]

theorem leadingInteger?_spelling :
    leadingInteger? numeral.spelling =
      withinLimits? (signed numeral.isNegative (digitsValue numeral.whole)) := by
  obtain ⟨front, -⟩ := takeWhile_isDigit_append numeral.areDigits numeral.fraction
  have someDigits : numeral.whole.isEmpty = false :=
    List.isEmpty_eq_false_iff.mpr numeral.areDigits.1
  rw [leadingInteger?, numeral.splitSign_spelling]
  dsimp only
  rw [front, someDigits, if_neg Bool.false_ne_true]

/-! ### Values -/

end Numeral

/-- The number that a decimal fraction stands for. -/
def Fraction.value (fraction : Fraction) : ℚ :=
  (if fraction.negative then -1 else 1) * fraction.digits / 10 ^ fraction.places

theorem digitsValue_append (front back : List Char) :
    digitsValue (front ++ back) =
      digitsValue front * 10 ^ back.length + digitsValue back := by
  rw [digitsValue, Nat.ofDigitChars_append, Nat.ofDigitChars_eq_ofDigitChars_zero,
    Nat.mul_comm]
  rfl

/-- Digits write less than the number that has one digit more. -/
theorem digitsValue_lt {digits : List Char}
    (areDigits : ∀ character ∈ digits, character.isDigit = true) :
    digitsValue digits < 10 ^ digits.length := by
  induction digits with
  | nil => decide
  | cons first rest induction =>
      obtain ⟨isDigit, others⟩ := List.forall_mem_cons.mp areDigits
      have small : digitsValue [first] < 10 := by
        have atMost : first.toNat ≤ 57 := (Char.isDigit_iff_toNat.mp isDigit).2
        show 10 * 0 + (first.toNat - 48) < 10
        omega
      have below := induction others
      rw [← List.singleton_append, digitsValue_append, List.singleton_append,
        List.length_cons, Nat.pow_succ]
      nlinarith

namespace Numeral

variable (numeral : Numeral)

theorem areDigits_decimals :
    ∀ character ∈ numeral.decimals, character.isDigit = true := by
  rw [decimals]
  cases isFraction : numeral.fraction with
  | none => exact fun _ listed => absurd listed List.not_mem_nil
  | some decimals => exact numeral.areDecimals decimals isFraction

/-- Nothing of a numeral is lost when it is read as a decimal fraction. -/
theorem value_toFraction : numeral.toFraction.value = numeral.value := by
  have places : (10 : ℚ) ^ numeral.decimals.length ≠ 0 := by positivity
  rw [Fraction.value, toFraction, value, magnitude, digitsValue_append]
  push_cast
  cases numeral.isNegative
  · simp only [Bool.false_eq_true, if_false]
    field_simp
  · simp only [if_true]
    field_simp

theorem magnitude_nonneg : 0 ≤ numeral.magnitude := by
  rw [magnitude]
  positivity

theorem floor_magnitude : ⌊numeral.magnitude⌋ = digitsValue numeral.whole := by
  have places : (0 : ℚ) < 10 ^ numeral.decimals.length := by positivity
  have below : (digitsValue numeral.decimals : ℚ) < 10 ^ numeral.decimals.length := by
    exact_mod_cast digitsValue_lt numeral.areDigits_decimals
  rw [Int.floor_eq_iff, magnitude]
  constructor
  · simp only [Int.cast_natCast]
    exact le_add_of_nonneg_right (by positivity)
  · simp only [Int.cast_natCast]
    gcongr
    exact (div_lt_one places).mpr below

/-- The integer part is what the digits before the point write. -/
theorem integerPart_eq :
    numeral.integerPart = signed numeral.isNegative (digitsValue numeral.whole) := by
  have nonneg := numeral.magnitude_nonneg
  rw [integerPart, value, signed, ← numeral.floor_magnitude]
  cases numeral.isNegative with
  | false => exact if_pos nonneg
  | true =>
      simp only [if_true]
      split
      case isTrue notBelow =>
        have zero : numeral.magnitude = 0 := by linarith
        simp [zero]
      case isFalse => exact Int.ceil_neg

/-- What the readers of values take from a text that is a numeral: its sign and its
exact value, to be rounded to single precision, and its integer part if that fits in 64
bits. -/
structure IsReadWhole (text : List Char) : Prop where
  spelled : numeral.spelling = text
  real : ∃ fraction, leadingDecimal? text = some fraction ∧
    fraction.negative = numeral.isNegative ∧ fraction.value = numeral.value ∧
      leadingReal? text = some fraction.toFloat32
  integer : leadingInteger? text =
    if -2 ^ 63 ≤ numeral.integerPart ∧ numeral.integerPart < 2 ^ 63 then
      some numeral.integerPart
    else none

theorem isReadWhole_spelling : numeral.IsReadWhole numeral.spelling where
  spelled := rfl
  real := by
    refine ⟨numeral.toFraction, numeral.leadingDecimal?_spelling, rfl,
      numeral.value_toFraction, ?_⟩
    rw [leadingReal?, numeral.leadingDecimal?_spelling, Option.map_some]
  integer := by
    have limits : minInteger ≤ numeral.integerPart ∧ numeral.integerPart ≤ maxInteger ↔
        -2 ^ 63 ≤ numeral.integerPart ∧ numeral.integerPart < 2 ^ 63 := by
      unfold minInteger maxInteger
      omega
    rw [numeral.leadingInteger?_spelling, ← numeral.integerPart_eq, withinLimits?]
    simp only [limits]

end Numeral

end Decimal

/-! ## The numbers of a text -/

namespace Token

open Decimal

/-- The numbers of a text are numerals, its labels are not, and the readers of values
read numerals as a whole. -/
theorem readsNumerals_lex
    {source file : String} {located : LexedToken} (listed : located ∈ lex source file) :
    (∀ text, located.result = .ok (number text) →
        ∃ numeral : Numeral, numeral.IsReadWhole text.toList) ∧
      ∀ text, located.result = .ok (label text) →
        ∀ numeral : Numeral, numeral.spelling ≠ text.toList := by
  constructor
  · intro text isToken
    obtain ⟨numeral, spelled⟩ :=
      isNumberWord_iff.mp (isSpelled_of_mem_lex listed isToken nofun).2
    exact ⟨numeral, spelled ▸ numeral.isReadWhole_spelling⟩
  · intro text isToken numeral spelled
    have noNumber := (isSpelled_of_mem_lex listed isToken nofun).2
    rw [isNumberWord_iff.mpr ⟨numeral, spelled⟩] at noNumber
    cases noNumber

/-- A number with a fraction, a name that begins with a digit, and a number that is too
large for an integer. -/
theorem readsNumerals_of_three_words :
    let fraction : LexedToken := ⟨.ok (number "-3.75"), ⟨"", 0, 5, 0, 0⟩⟩
    let clef : LexedToken := ⟨.ok (label "8_G"), ⟨"", 6, 9, 0, 6⟩⟩
    let large : LexedToken := ⟨.ok (number "9223372036854775808"), ⟨"", 0, 19, 0, 0⟩⟩
    fraction ∈ lex "-3.75 8_G" "" ∧ clef ∈ lex "-3.75 8_G" "" ∧
      large ∈ lex "9223372036854775808" "" ∧
      (∃ numeral : Numeral, numeral.IsReadWhole "-3.75".toList) ∧
      leadingInteger? "-3.75".toList = some (-3) ∧
      (∀ numeral : Numeral, numeral.spelling ≠ "8_G".toList) ∧
      (∃ numeral : Numeral, numeral.IsReadWhole "9223372036854775808".toList) ∧
      leadingInteger? "9223372036854775808".toList = none := by
  intro fraction clef large
  have tokens : lex "-3.75 8_G" "" = [fraction, clef] := rfl
  have isFraction : fraction ∈ lex "-3.75 8_G" "" := by simp [tokens]
  have isClef : clef ∈ lex "-3.75 8_G" "" := by simp [tokens]
  have isLarge : large ∈ lex "9223372036854775808" "" := List.mem_cons_self
  exact ⟨isFraction, isClef, isLarge, (readsNumerals_lex isFraction).1 _ rfl, by decide,
    (readsNumerals_lex isClef).2 _ rfl, (readsNumerals_lex isLarge).1 _ rfl, by decide⟩

end Token

end LdpScore
