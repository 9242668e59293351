import LdpScore.Analysis.Value
import LdpScore.Proofs.Reader.Numeral
import Mathlib.Data.List.Induction
import Mathlib.Data.Nat.Digits.Defs

/-!
# Integers of leaves

An integer is written with one digit or more, and perhaps a sign before them.  A text
begins with the longest integer at its front, which goes on as far as there are digits.

Correlation numbers and counts are read from the front of a leaf, staffs and voices from
a label after its letter.  A number that fits where it is wanted is taken as it is
written, and nothing is reported; any other text is reported once and replaced by a
default.  So no number ever stands for another one, as it would if it were cut down to
fewer bits.
-/

namespace LdpScore.Decimal

/-! ## Integers as they are written -/

/-- What a sign makes of the number behind it. -/
def NumeralSign.factor : NumeralSign → Int
  | none => 1
  | plus => 1
  | minus => -1

/-- What a digit counts for in the last place. -/
def digitCount (digit : Char) : Nat :=
  digit.toNat - '0'.toNat

/-- An integer as it is written. -/
structure WrittenInteger where
  sign : NumeralSign
  digits : List Char
  areDigits : AreDigits digits

namespace WrittenInteger

variable (integer : WrittenInteger)

def spelling : List Char :=
  integer.sign.spelling ++ integer.digits

/-- The number that is written, in the decimal system. -/
def value : Int :=
  integer.sign.factor * (Nat.ofDigits 10 (integer.digits.reverse.map digitCount) : Nat)

/-- Of all integers at the front of a text, this one is the longest. -/
structure IsLongestFront (text : List Char) : Prop where
  isFront : integer.spelling <+: text
  isLongest : ∀ other : WrittenInteger, other.spelling <+: text →
    other.spelling.length ≤ integer.spelling.length

end WrittenInteger

/-- The longest integer at the front of a text writes a number. -/
def BeginsWith (text : List Char) (number : Int) : Prop :=
  ∃ integer : WrittenInteger, integer.IsLongestFront text ∧ integer.value = number

/-! ## Where an integer ends -/

theorem digitsValue_eq_ofDigits (digits : List Char) :
    digitsValue digits = Nat.ofDigits 10 (digits.reverse.map digitCount) := by
  induction digits using List.reverseRecOn with
  | nil => rfl
  | append_singleton front last induction =>
      have ones : digitsValue [last] = digitCount last := Nat.zero_add _
      rw [digitsValue_append, induction, ones, List.reverse_concat, List.map_cons,
        Nat.ofDigits_cons, List.length_singleton]
      omega

namespace WrittenInteger

variable {integer : WrittenInteger}

theorem value_eq_signed :
    integer.value = signed (integer.sign == .minus) (digitsValue integer.digits) := by
  rw [value, ← digitsValue_eq_ofDigits]
  cases integer.sign with
  | none => exact Int.one_mul _
  | plus => exact Int.one_mul _
  | minus => exact Int.neg_one_mul _

theorem splitSign_append (integer : WrittenInteger) (rest : List Char) :
    splitSign (integer.spelling ++ rest) =
      (integer.sign == .minus, integer.digits ++ rest) := by
  rw [spelling, List.append_assoc]
  cases integer.sign with
  | none => exact integer.areDigits.splitSign_append rest
  | plus => rfl
  | minus => rfl

theorem takeWhile_append (integer : WrittenInteger) (rest : List Char) :
    (integer.digits ++ rest).takeWhile Char.isDigit =
      integer.digits ++ rest.takeWhile Char.isDigit :=
  List.takeWhile_append_of_pos integer.areDigits.2

/-- The integer that goes on with more digits. -/
def extend (integer : WrittenInteger) (more : List Char)
    (areDigits : ∀ character ∈ more, character.isDigit = true) : WrittenInteger where
  sign := integer.sign
  digits := integer.digits ++ more
  areDigits := ⟨List.append_ne_nil_of_left_ne_nil integer.areDigits.1 more,
    List.forall_mem_append.mpr ⟨integer.areDigits.2, areDigits⟩⟩

/-- An integer is the longest one at the front of a text where no digit follows it. -/
theorem isLongestFront_iff {text : List Char} :
    integer.IsLongestFront text ↔
      ∃ rest, text = integer.spelling ++ rest ∧ rest.takeWhile Char.isDigit = [] := by
  constructor
  · rintro ⟨⟨rest, rfl⟩, isLongest⟩
    refine ⟨rest, rfl, ?_⟩
    -- with the digits that follow, the integer would be longer
    let longer := integer.extend (rest.takeWhile Char.isDigit) fun _ => List.mem_takeWhile_imp
    have isFront : longer.spelling <+: integer.spelling ++ rest := by
      refine ⟨rest.dropWhile Char.isDigit, ?_⟩
      simp [longer, extend, spelling, List.takeWhile_append_dropWhile]
    have atMost := isLongest longer isFront
    simp only [longer, extend, spelling, List.length_append] at atMost
    exact List.eq_nil_of_length_eq_zero (by omega)
  · rintro ⟨rest, rfl, noDigit⟩
    refine ⟨List.prefix_append _ _, ?_⟩
    rintro other ⟨others, same⟩
    -- both integers leave the same text behind their signs, and all its digits count
    have split := other.splitSign_append others
    rw [same, integer.splitSign_append] at split
    obtain ⟨-, unsigned⟩ := Prod.mk.inj split
    have digits := congrArg (List.takeWhile Char.isDigit) unsigned
    rw [integer.takeWhile_append, other.takeWhile_append, noDigit] at digits
    have sameLength := congrArg List.length same
    have unsignedLength := congrArg List.length unsigned
    have digitsLength := congrArg List.length digits
    simp only [spelling, List.length_append, List.length_nil] at *
    omega

/-- The longest integer at the front of a text has the sign that is taken off the text
and all the digits that come next. -/
theorem IsLongestFront.parts {text : List Char} (isLongest : integer.IsLongestFront text) :
    (splitSign text).1 = (integer.sign == .minus) ∧
      (splitSign text).2.takeWhile Char.isDigit = integer.digits := by
  obtain ⟨rest, rfl, noDigit⟩ := isLongestFront_iff.mp isLongest
  rw [integer.splitSign_append, integer.takeWhile_append, noDigit, List.append_nil]
  exact ⟨rfl, rfl⟩

/-! ## Reading an integer -/

theorem leadingInteger?_of_isLongestFront
    {text : List Char} (isLongest : integer.IsLongestFront text) :
    leadingInteger? text = withinLimits? integer.value := by
  obtain ⟨sign, digits⟩ := isLongest.parts
  have someDigits : integer.digits.isEmpty = false :=
    List.isEmpty_eq_false_iff.mpr integer.areDigits.1
  rw [leadingInteger?]
  dsimp only
  rw [sign, digits, someDigits, if_neg Bool.false_ne_true, value_eq_signed]

end WrittenInteger

open WrittenInteger

/-- Where an integer is read, there is one. -/
theorem exists_isLongestFront
    {text : List Char} (isRead : leadingInteger? text ≠ none) :
    ∃ integer : WrittenInteger, integer.IsLongestFront text := by
  obtain ⟨sign, isText⟩ := exists_sign text
  let digits := (splitSign text).2.takeWhile Char.isDigit
  have areDigits : AreDigits digits := by
    refine ⟨fun noDigits => isRead ?_, fun _ => List.mem_takeWhile_imp⟩
    simp only [leadingInteger?, digits] at noDigits ⊢
    rw [noDigits]
    rfl
  refine ⟨⟨sign, digits, areDigits⟩, isLongestFront_iff.mpr
    ⟨(splitSign text).2.dropWhile Char.isDigit, ?_, ?_⟩⟩
  · rw [spelling, List.append_assoc, List.takeWhile_append_dropWhile, ← isText]
  · exact List.takeWhile_eq_nil_iff.mpr (List.dropWhile_get_zero_not _ _)

/-- The integers that are read are those that texts begin with, if they fit. -/
theorem leadingInteger?_eq_some_iff {text : List Char} {number : Int} :
    leadingInteger? text = some number ↔
      BeginsWith text number ∧ minInteger ≤ number ∧ number ≤ maxInteger := by
  constructor
  · intro isRead
    obtain ⟨integer, isLongest⟩ := exists_isLongestFront (isRead ▸ Option.some_ne_none _)
    rw [leadingInteger?_of_isLongestFront isLongest, withinLimits?_eq_some_iff] at isRead
    obtain ⟨rfl, fits⟩ := isRead
    exact ⟨⟨integer, isLongest, rfl⟩, fits⟩
  · rintro ⟨⟨integer, isLongest, rfl⟩, fits⟩
    rw [leadingInteger?_of_isLongestFront isLongest, withinLimits?_eq_some_iff]
    exact ⟨rfl, fits⟩

/-- A text begins with one number at most. -/
theorem BeginsWith.unique
    {text : List Char} {number other : Int}
    (begins : BeginsWith text number) (beginsOther : BeginsWith text other) :
    number = other := by
  obtain ⟨integer, isLongest, rfl⟩ := begins
  obtain ⟨integerOther, isLongestOther, rfl⟩ := beginsOther
  obtain ⟨sign, digits⟩ := isLongest.parts
  obtain ⟨signOther, digitsOther⟩ := isLongestOther.parts
  rw [value_eq_signed, value_eq_signed, ← sign, ← digits, ← signOther, ← digitsOther]

theorem not_beginsWith_nil (number : Int) : ¬ BeginsWith [] number := by
  rintro ⟨integer, ⟨isFront, -⟩, -⟩
  have noDigits := (List.append_eq_nil_iff.mp (List.prefix_nil.mp isFront)).2
  exact integer.areDigits.1 noDigits

end LdpScore.Decimal

namespace LdpScore.Analyser

open Decimal

/-! ## What numbers stand for -/

/-- A number with sign stands for itself if it has no more than 32 bits. -/
def IsSigned (number value : Int) : Prop :=
  value = number ∧ -2 ^ 31 ≤ number ∧ number < 2 ^ 31

/-- A number without sign stands for a count if it has no more than 32 bits. -/
def IsCount (number : Int) (count : Nat) : Prop :=
  count = number ∧ number < 2 ^ 32

/-- A number stands for the staff before it, since staffs are counted from zero. -/
def IsStaff (number : Int) (staff : Nat) : Prop :=
  staff = number - 1 ∧ number < 2 ^ 63

/-- The number that a label has after its letter.  A letter takes one byte. -/
def GoesOnWith (label : List Char) (number : Int) : Prop :=
  ∃ letter rest, label = letter :: rest ∧ letter.utf8Size = 1 ∧ BeginsWith rest number

/-! ## Readers of numbers -/

theorem Interval.read?_eq_some_iff
    {interval : Interval} {text : String} {number : Int}
    (least : minInteger ≤ interval.least) (greatest : interval.greatest ≤ maxInteger) :
    interval.read? text = some number ↔
      BeginsWith text.toList number ∧
        interval.least ≤ number ∧ number ≤ interval.greatest := by
  have isRead : leadingInteger? text.toList = some number ↔ _ := leadingInteger?_eq_some_iff
  rw [read?]
  split
  case h_1 found isFound =>
    rw [isFound, Option.some.injEq] at isRead
    rw [Option.ite_none_right_eq_some, Option.some.injEq]
    constructor
    · rintro ⟨inside, rfl⟩
      exact ⟨(isRead.mp rfl).1, inside⟩
    · rintro ⟨begins, inside⟩
      obtain rfl := isRead.mpr ⟨begins, by omega, by omega⟩
      exact ⟨inside, rfl⟩
  case h_2 notFound =>
    rw [notFound] at isRead
    refine ⟨nofun, fun ⟨begins, inside⟩ => ?_⟩
    exact absurd (isRead.mpr ⟨begins, by omega, by omega⟩) nofun

theorem read?_signedInterval_eq_some_iff {text : String} {value : Int} :
    signedInterval.read? text = some value ↔
      ∃ number, BeginsWith text.toList number ∧ IsSigned number value := by
  rw [Interval.read?_eq_some_iff (by decide) (by decide)]
  simp only [signedInterval, IsSigned]
  constructor
  · rintro ⟨begins, inside⟩
    exact ⟨value, begins, rfl, by omega⟩
  · rintro ⟨number, begins, rfl, inside⟩
    exact ⟨begins, by omega⟩

theorem read?_countInterval_eq_some_iff {text : String} {count : Nat} :
    (countInterval.read? text).map Int.toNat = some count ↔
      ∃ number, BeginsWith text.toList number ∧ IsCount number count := by
  have isRead (number : Int) : countInterval.read? text = some number ↔
      BeginsWith text.toList number ∧ 0 ≤ number ∧ number ≤ 0xffffffff :=
    Interval.read?_eq_some_iff (by decide) (by decide)
  simp only [Option.map_eq_some_iff, isRead, IsCount]
  constructor
  · rintro ⟨number, ⟨begins, inside⟩, rfl⟩
    exact ⟨number, begins, by omega⟩
  · rintro ⟨number, begins, isCount⟩
    exact ⟨number, ⟨begins, by omega⟩, by omega⟩

theorem staff?_eq_some_iff {text : String} {staff : Nat} :
    staff? text = some staff ↔
      ∃ number, BeginsWith text.toList number ∧ IsStaff number staff := by
  have limits : minInteger ≤ 1 ∧ maxInteger = 2 ^ 63 - 1 := by decide
  rw [staff?]
  split
  case h_1 found isFound =>
    obtain ⟨begins, _, atMost⟩ := leadingInteger?_eq_some_iff.mp isFound
    rw [Option.ite_none_right_eq_some, Option.some.injEq]
    constructor
    · rintro ⟨positive, rfl⟩
      exact ⟨found, begins, by omega, by omega⟩
    · rintro ⟨number, beginsOther, isStaff, _⟩
      obtain rfl := begins.unique beginsOther
      exact ⟨by omega, by omega⟩
  case h_2 notFound =>
    refine ⟨nofun, fun ⟨number, begins, isStaff, fits⟩ => ?_⟩
    have isRead := leadingInteger?_eq_some_iff.mpr ⟨begins, by omega, by omega⟩
    exact absurd (notFound.symm.trans isRead) nofun

theorem GoesOnWith.unique
    {label : List Char} {number other : Int}
    (goesOn : GoesOnWith label number) (goesOnOther : GoesOnWith label other) :
    number = other := by
  obtain ⟨letter, rest, rfl, -, begins⟩ := goesOn
  obtain ⟨_, _, ⟨⟩, -, beginsOther⟩ := goesOnOther
  exact begins.unique beginsOther

theorem beginsWith_afterFirst {text : String} {number : Int} :
    BeginsWith (afterFirst text).toList number ↔ GoesOnWith text.toList number := by
  unfold afterFirst GoesOnWith
  split
  case h_1 letter rest isText =>
    rw [isText]
    split
    case isTrue oneByte => simp [oneByte]
    case isFalse moreBytes => simp [moreBytes, not_beginsWith_nil]
  case h_2 isText => simp [isText, not_beginsWith_nil]

/-! ## Steps that need a number -/

/-- A step reads a number from a node.  If it stands for a value, the step goes on with
that value.  If no number does, the step makes one report and goes on with a default. -/
structure TakesNumber
    {Value Result : Type} (node : Node) (IsNumber : Int → Prop)
    (StandsFor : Int → Value → Prop) (default : Value) (problem : Problem)
    (step : Analyser Result) (goOn : Value → Analysis → Result × Analysis) : Prop where
  takes : ∀ number value, IsNumber number → StandsFor number value →
    ∀ state, (step.run state).run = goOn value state
  replaces : (∀ number value, IsNumber number → ¬ StandsFor number value) →
    ∀ state, (step.run state).run =
      goOn default { state with draft := state.draft.report node.location problem }

/-- A step that goes on with what a reader finds takes the numbers that it finds. -/
theorem TakesNumber.of_read
    {Value Result : Type} {node : Node} {IsNumber : Int → Prop}
    {StandsFor : Int → Value → Prop} {default : Value} {problem : Problem}
    {step : Analyser Result} {goOn : Value → Analysis → Result × Analysis}
    (read : Option Value)
    (finds : ∀ value, read = some value ↔
      ∃ number, IsNumber number ∧ StandsFor number value)
    (found : ∀ value, read = some value →
      ∀ state, (step.run state).run = goOn value state)
    (notFound : read = none →
      ∀ state, (step.run state).run =
        goOn default { state with draft := state.draft.report node.location problem }) :
    TakesNumber node IsNumber StandsFor default problem step goOn where
  takes := fun number value isNumber stands =>
    found value ((finds value).mpr ⟨number, isNumber, stands⟩)
  replaces := by
    intro noNumber
    refine notFound (Option.eq_none_iff_forall_ne_some.mpr fun value isFound => ?_)
    obtain ⟨number, isNumber, stands⟩ := (finds value).mp isFound
    exact noNumber number value isNumber stands

/-- A correlation number, a count, a staff or a voice is read exactly from a node or
replaced: the first two are read from its text, the others from its text after a
letter. -/
structure ReadsExactly (node : Node) : Prop where
  number (default : Int) :
    TakesNumber node (BeginsWith node.text.toList) IsSigned default
      (.invalidInteger node.text default) (numberValue node default)
      fun value state => (value, state)
  count (default : Nat) :
    TakesNumber node (BeginsWith node.text.toList) IsCount default
      (.invalidInteger node.text default) (countValue node default)
      fun count state => (count, state)
  staff :
    TakesNumber node (GoesOnWith node.text.toList) IsStaff 0
      (.invalidStaffLabel (afterFirst node.text)) (staffLabel node)
      fun staff state => ((), { state with context := { state.context with staff := staff } })
  voice :
    TakesNumber node (GoesOnWith node.text.toList) IsSigned 1
      (.invalidVoiceLabel (afterFirst node.text)) (voiceLabel node)
      fun voice state => ((), { state with context := { state.context with voice := voice } })

/-- No number is read as another one, whatever its sign, its length and what follows
it. -/
theorem readsExactly (node : Node) : ReadsExactly node where
  number default := by
    refine .of_read (signedInterval.read? node.text)
      (fun _ => read?_signedInterval_eq_some_iff) ?found ?notFound
    case found =>
      intro number isRead state
      rw [numberValue, boundedValue, isRead]
      rfl
    case notFound =>
      intro isRead state
      rw [numberValue, boundedValue, isRead]
      rfl
  count default := by
    refine .of_read ((countInterval.read? node.text).map Int.toNat)
      (fun _ => read?_countInterval_eq_some_iff) ?found ?notFound
    case found =>
      intro count isRead state
      obtain ⟨number, isNumber, rfl⟩ := Option.map_eq_some_iff.mp isRead
      rw [countValue, boundedValue, isNumber]
      rfl
    case notFound =>
      intro isRead state
      rw [countValue, boundedValue, Option.map_eq_none_iff.mp isRead]
      rfl
  staff := by
    refine .of_read (staff? (afterFirst node.text)) (fun _ => ?finds) ?found ?notFound
    case finds => simp only [staff?_eq_some_iff, beginsWith_afterFirst]
    case found =>
      intro staff isRead state
      simp only [staffLabel, isRead]
      rfl
    case notFound =>
      intro isRead state
      simp only [staffLabel, isRead]
      rfl
  voice := by
    refine .of_read (signedInterval.read? (afterFirst node.text)) (fun _ => ?finds)
      ?found ?notFound
    case finds => simp only [read?_signedInterval_eq_some_iff, beginsWith_afterFirst]
    case found =>
      intro voice isRead state
      simp only [voiceLabel, isRead]
      rfl
    case notFound =>
      intro isRead state
      simp only [voiceLabel, isRead]
      rfl

/-- A correlation number that is too large is replaced, a count is read up to its point,
a staff is the one before its number, and a voice that is too large is replaced. -/
theorem readsExactly_of_four_leaves :
    let place : Location := ⟨"", 0, 0, 0, 0⟩
    let large := Node.leaf .number "4294967308" place
    let count := Node.leaf .number "+012.5" place
    let staff := Node.leaf .label "p3" place
    let voice := Node.leaf .label "v4294967297" place
    BeginsWith large.text.toList 4294967308 ∧
      ((numberValue large 0).run {}).run =
        (0, { draft := ({} : Draft).report place (.invalidInteger "4294967308" 0) }) ∧
      ((countValue count 4).run {}).run = (12, {}) ∧
      ((staffLabel staff).run {}).run = ((), { context := { staff := 2 } }) ∧
      ((voiceLabel voice).run {}).run =
        ((), { draft := ({} : Draft).report place (.invalidVoiceLabel "4294967297") }) := by
  intro place large count staff voice
  have beginsLarge : BeginsWith large.text.toList 4294967308 :=
    ⟨⟨.none, "4294967308".toList, by decide, List.all_eq_true.mp rfl⟩,
      WrittenInteger.isLongestFront_iff.mpr ⟨[], by decide, rfl⟩, by decide⟩
  have beginsCount : BeginsWith count.text.toList 12 :=
    ⟨⟨.plus, "012".toList, by decide, List.all_eq_true.mp rfl⟩,
      WrittenInteger.isLongestFront_iff.mpr ⟨".5".toList, by decide, by decide⟩, by decide⟩
  have isStaff : GoesOnWith staff.text.toList 3 :=
    ⟨'p', ['3'], by decide, by decide, ⟨.none, ['3'], by decide, List.all_eq_true.mp rfl⟩,
      WrittenInteger.isLongestFront_iff.mpr ⟨[], rfl, rfl⟩, by decide⟩
  have isVoice : GoesOnWith voice.text.toList 4294967297 :=
    ⟨'v', "4294967297".toList, by decide, by decide,
      ⟨.none, "4294967297".toList, by decide, List.all_eq_true.mp rfl⟩,
      WrittenInteger.isLongestFront_iff.mpr ⟨[], by decide, rfl⟩, by decide⟩
  refine ⟨beginsLarge, ?_, ?_, ?_, ?_⟩
  · refine ((readsExactly large).number 0).replaces (fun number value begins signed => ?_) {}
    obtain rfl := begins.unique beginsLarge
    exact absurd signed.2.2 (by decide)
  · exact ((readsExactly count).count 4).takes 12 12 beginsCount ⟨rfl, by decide⟩ {}
  · exact (readsExactly staff).staff.takes 3 2 isStaff ⟨rfl, by decide⟩ {}
  · have isText : afterFirst voice.text = "4294967297" := by decide
    rw [← isText]
    refine (readsExactly voice).voice.replaces (fun number value goesOn signed => ?_) {}
    obtain rfl := goesOn.unique isVoice
    exact absurd signed.2.2 (by decide)

end LdpScore.Analyser
