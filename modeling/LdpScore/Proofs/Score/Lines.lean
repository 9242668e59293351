import LdpScore.Proofs.Reader.Tag
import LdpScore.Proofs.Score.Building
import LdpScore.Score.Listing

/-!
# The lines of a listing

A listing has one line for each object.  What it says about an object has no line
break in it, as long as versions and the names of options have none, and it begins
with the kind of the object, not with a space.  So each line is a line indeed, and its
indentation tells the level of the object.
-/

namespace LdpScore

/-! ## Texts without line breaks -/

/-- Whether a text has no line break. -/
def Text.IsInline (text : String) : Prop :=
  '\n' ∉ text.toList

namespace Text

instance : DecidablePred IsInline := fun text =>
  inferInstanceAs (Decidable ('\n' ∉ text.toList))

@[simp]
theorem isInline_append {first second : String} :
    IsInline (first ++ second) ↔ IsInline first ∧ IsInline second := by
  simp [IsInline]

@[simp]
theorem isInline_ofList {characters : List Char} :
    IsInline (String.ofList characters) ↔ '\n' ∉ characters := by
  rw [IsInline, String.toList_ofList]

theorem notMem_of_areDigits
    {digits : List Char} (areDigits : ∀ digit ∈ digits, digit.isDigit = true) :
    '\n' ∉ digits := fun listed =>
  absurd (areDigits '\n' listed) (by decide)

@[simp]
theorem isInline_toString {text : String} : IsInline (toString text) ↔ IsInline text :=
  .rfl

@[simp]
theorem isInline_natRepr (number : Nat) : IsInline number.repr := by
  rw [IsInline, Nat.toList_repr]
  exact notMem_of_areDigits (Decimal.areDigits_toDigits number).2

@[simp]
theorem isInline_intRepr (number : Int) : IsInline number.repr := by
  cases number with
  | ofNat number => exact isInline_natRepr number
  | negSucc number =>
      exact isInline_append.mpr ⟨by decide, isInline_natRepr (number + 1)⟩

theorem isInline_intercalate
    {separator : String} (separates : IsInline separator) {texts : List String}
    (each : ∀ text ∈ texts, IsInline text) :
    IsInline (separator.intercalate texts) := by
  induction texts with
  | nil => exact List.not_mem_nil
  | cons first rest induction =>
      obtain ⟨isInline, each⟩ := List.forall_mem_cons.mp each
      cases rest with
      | nil => simpa using isInline
      | cons second rest =>
          rw [String.intercalate_cons_cons, isInline_append, isInline_append]
          exact ⟨⟨isInline, separates⟩, induction each⟩

end Text

open Text (IsInline isInline_append)

namespace Decimal.Layout

theorem notMem_point
    {layout : Layout} {digits : List Char} (inline : '\n' ∉ digits) (exponent : Int) :
    '\n' ∉ layout.point digits exponent := by
  unfold point
  split
  · cases layout.pointZero <;> simp [inline, List.mem_replicate]
  · have padded : '\n' ∉ List.replicate (exponent.natAbs + 1 - digits.length) '0' ++
        digits := by
      simp [inline, List.mem_replicate]
    dsimp only
    rw [List.mem_append, List.mem_append, not_or, not_or]
    exact ⟨⟨fun listed => padded (List.mem_of_mem_take listed), by decide⟩,
      fun listed => padded (List.mem_of_mem_drop listed)⟩

theorem notMem_scientific
    {digits : List Char} (inline : '\n' ∉ digits) (power : Int) :
    '\n' ∉ scientific digits power := by
  have exponent : '\n' ∉ (toString power).toList := Text.isInline_intRepr power
  unfold scientific
  match digits with
  | [] => simpa using exponent
  | [single] => simpa using ⟨by simpa using inline, exponent⟩
  | first :: second :: rest =>
      have digits : '\n' ∉ first :: '.' :: second :: rest := by simpa using inline
      rw [List.append_assoc]
      exact fun listed => (List.mem_append.mp listed).elim digits
        (by simpa using exponent)

/-- A number is written without line breaks. -/
theorem isInline_write (layout : Layout) (value : Format.Value) :
    IsInline (layout.write value) := by
  cases value with
  | notANumber => exact (by decide : IsInline "NaN")
  | infinite negative =>
      cases negative
      · exact (by decide : IsInline "inf")
      · exact (by decide : IsInline "-inf")
  | finite value =>
      have digits : ∀ number, '\n' ∉ Nat.toDigits 10 number := fun number =>
        Text.notMem_of_areDigits (areDigits_toDigits number).2
      have either : ∀ {first second : List Char} (isFirst : Bool), '\n' ∉ first →
          '\n' ∉ second → '\n' ∉ (if isFirst then first else second) := by
        intro first second isFirst inFirst inSecond
        cases isFirst <;> assumption
      unfold write
      dsimp only
      rw [Text.isInline_ofList]
      generalize isMagnitude : (if value.significand = 0 then _ else _) = magnitude
      have inline : '\n' ∉ magnitude := by
        rw [← isMagnitude]
        split
        · exact notMem_point (by decide) 0
        · exact either _ (notMem_point (digits _) _) (notMem_scientific (digits _) _)
      exact either _ (by simpa using inline) inline

end Decimal.Layout

/-! ## What is said about an object -/

theorem OptionValue.isInline_describe (value : OptionValue) :
    IsInline value.describe := by
  have opening : IsInline "Float(" := by decide
  have closing : IsInline ")" := by decide
  cases value with
  | bool isTrue => cases isTrue <;> (rw [describe]; decide)
  | long value =>
      have long : IsInline "Long(" := by decide
      simp [describe, closing, long]
  | float value =>
      exact isInline_append.mpr ⟨isInline_append.mpr
        ⟨opening, optionLayout.isInline_write _⟩, closing⟩

theorem NoteRest.isInline_describe (noteRest : NoteRest) :
    IsInline noteRest.describe := by
  have letter : noteRest.value.type.letter ≠ '\n' := by
    cases noteRest.value.type <;> decide
  have value : '\n' ∉ noteRest.value.spelling := by
    simp [NoteValue.spelling, letter.symm, List.mem_replicate]
  have mark : IsInline " @" := by decide
  exact isInline_append.mpr ⟨isInline_append.mpr
    ⟨Text.isInline_ofList.mpr value, mark⟩, onsetLayout.isInline_write _⟩

namespace Content

/-- Whether the version of a score, or the name of an option, has no line break. -/
def IsLabelled : Content → Prop
  | score version _ => IsInline version
  | scoreOption name _ => IsInline name
  | _ => True

/-- The kind of an object begins with a letter. -/
theorem exists_head?_name (content : Content) :
    ∃ first, content.name.toList.head? = some first ∧ first ≠ ' ' := by
  have isLetter : content.name.toList.head?.any (· != ' ') := by
    cases content <;> (rw [name]; decide)
  obtain ⟨first, isFirst, notBlank⟩ := (Option.any_eq_true ..).mp isLetter
  exact ⟨first, isFirst, bne_iff_ne.mp notBlank⟩

theorem isInline_name (content : Content) : IsInline content.name := by
  cases content <;> (rw [name]; decide)

theorem isInline_details
    {content : Content} (isLabelled : content.IsLabelled) :
    IsInline content.details := by
  have step : ∀ step : Step, IsInline step.label := by
    intro step
    cases step <;> decide
  have accidentals : ∀ accidentals : Accidentals, IsInline accidentals.label := by
    intro accidentals
    cases accidentals <;> decide
  have clef : ∀ clef : Clef, IsInline clef.label := by
    intro clef
    cases clef <;> decide
  have key : ∀ key : Key, IsInline key.label := by
    intro key
    cases key <;> decide
  have blank : IsInline " " := by decide
  cases content with
  | note it =>
      have pitched : ∀ pitch : Pitch, IsInline
          s!" {pitch.step.label}{pitch.octave} {pitch.accidentals.label}" := by
        intro pitch
        simp [blank, step, accidentals]
      have unpitched : IsInline " unpitched" := by decide
      rw [details]
      refine isInline_append.mpr
        ⟨isInline_append.mpr ⟨?_, blank⟩, it.noteRest.isInline_describe⟩
      cases it.pitch with
      | none => exact unpitched
      | some pitch => exact pitched pitch
  | rest it => exact isInline_append.mpr ⟨blank, it.isInline_describe⟩
  | score version language => exact isInline_append.mpr ⟨blank, isLabelled⟩
  | clef kind _ _ => exact isInline_append.mpr ⟨blank, clef kind⟩
  | keySignature kind _ => exact isInline_append.mpr ⟨blank, key kind⟩
  | timeSignature _ top bottom _ =>
      have slash : IsInline "/" := by decide
      simp [details, blank, slash]
  | scoreOption name value =>
      have equals : IsInline " = " := by decide
      have named : IsInline name := isLabelled
      simp [details, blank, equals, named, value.isInline_describe]
  | _ => exact (by decide : IsInline "")

end Content

namespace Model

/-! ## Lines -/

/-- Versions and the names of options have no line breaks. -/
def IsLabelled (model : Model) : Prop :=
  ∀ handle content, model.content? handle = some content → content.IsLabelled

/-- A text is a line for an object on some level: four spaces for each level, then the
kind and id of the object with what else there is to say, and at the end the only line
break. -/
def IsLineOf (model : Model) (level : Nat) (handle : Handle) (line : String) : Prop :=
  ∃ object text, model.get? handle = some object ∧
    line.toList = List.replicate (4 * level) ' ' ++ (text ++ ['\n']) ∧
    (object.content.name ++ "#" ++ toString object.id).toList <+: text ∧
    text.head? ≠ some ' ' ∧ '\n' ∉ text

theorem isInline_reference (model : Model) (handle : Handle) :
    IsInline (model.reference handle) := by
  have mark : IsInline "#" := by decide
  unfold reference
  split
  · simp [Content.isInline_name, mark]
  · exact (by decide : IsInline "")

theorem IsLabelled.isLineOf_line
    {model : Model} (isLabelled : model.IsLabelled) (level : Nat) {handle : Handle}
    (inside : handle < model.size) :
    model.IsLineOf level handle (model.line level handle) := by
  obtain ⟨object, found⟩ := exists_get?_of_lt_size inside
  have isContent : model.content? handle = some object.content :=
    content?_eq_some_iff.mpr ⟨object, found, rfl⟩
  have isReference : model.reference handle =
      object.content.name ++ "#" ++ toString object.id := by
    rw [reference, found]
    rfl
  let relations := if (model.relations handle).isEmpty then "" else
    " [" ++ ", ".intercalate ((model.relations handle).map model.reference) ++ "]"
  let text := (object.content.name ++ "#" ++ toString object.id) ++
    (object.content.details ++ relations)
  have inlineRelations : IsInline relations := by
    simp only [relations]
    split
    · exact (by decide : IsInline "")
    · refine isInline_append.mpr ⟨isInline_append.mpr ⟨by decide, ?_⟩, by decide⟩
      refine Text.isInline_intercalate (by decide) fun reference listed => ?_
      obtain ⟨relation, _, rfl⟩ := List.mem_map.mp listed
      exact model.isInline_reference relation
  have inline : IsInline text := by
    refine isInline_append.mpr ⟨?_, isInline_append.mpr ⟨?_, inlineRelations⟩⟩
    · exact isReference ▸ model.isInline_reference handle
    · exact Content.isInline_details (isLabelled handle _ isContent)
  obtain ⟨first, isFirst, notBlank⟩ := object.content.exists_head?_name
  refine ⟨object, text.toList, found, ?_, ?_, ?_, inline⟩
  · simp [line, isContent, isReference, text, relations]
  · exact ⟨(object.content.details ++ relations).toList, String.toList_append.symm⟩
  · simp [text, isFirst, notBlank]

/-! ## The lines of trees -/

/-- An object stands some levels below another one. -/
inductive StandsBelow (model : Model) (top : Handle) : Nat → Handle → Prop
  | top : StandsBelow model top 0 top
  | child {level : Nat} {parent child : Handle}
      (isAbove : StandsBelow model top level parent) (isChild : model.HasChild parent child) :
      StandsBelow model top (level + 1) child

theorem StandsBelow.lt_size
    {model : Model} (isWoven : model.IsWoven) {top handle : Handle} {level : Nat}
    (inside : top < model.size) (stands : model.StandsBelow top level handle) :
    handle < model.size := by
  cases stands with
  | top => exact inside
  | child _ isChild => exact isWoven.lt_size_of_hasBelow (.single isChild)

/-- The lines for some trees on a level: one for each object, in their order. -/
theorem Forest.forall₂_linesBelow
    {model : Model} {top : Handle} {parent : Option Handle}
    {tops listed : List Handle} {levels level : Nat}
    (forest : model.Forest parent tops listed) (enough : listed.length ≤ levels)
    (onLevel : ∀ handle ∈ tops, model.StandsBelow top level handle) :
    List.Forall₂ (fun handle line => ∃ level, model.StandsBelow top level handle ∧
      line = model.line level handle) listed
        (tops.flatMap (model.linesBelow levels level)) := by
  induction forest generalizing levels level with
  | nil parent => exact .nil
  | @cons parent first rest below others _ _ _ inner outer =>
      rw [List.length_cons, List.length_append] at enough
      obtain ⟨levels, rfl⟩ : ∃ fewer, levels = fewer + 1 :=
        Nat.exists_eq_succ_of_ne_zero (by omega)
      obtain ⟨firstStands, restStand⟩ := List.forall_mem_cons.mp onLevel
      rw [List.flatMap_cons, linesBelow, List.cons_append]
      refine .cons ⟨level, firstStands, rfl⟩ (List.rel_append ?_ ?_)
      · exact inner (by omega) fun child isChild => .child firstStands isChild
      · exact outer (by omega) restStand

/-- What a listing is: nothing without a root, and otherwise one line for the root and
for each object below it, in this order, each indented by its level. -/
structure IsListing (model : Model) (listing : String) : Prop where
  nothing : model.root = none → listing = ""
  lines : ∀ root, model.root = some root → ∃ lines, listing = String.join lines ∧
    List.Forall₂ (fun handle line => ∃ level,
      model.StandsBelow root level handle ∧ line = model.line level handle ∧
        model.IsLineOf level handle line) (root :: model.descendants root) lines

theorem IsWoven.isListing
    {model : Model} (isWoven : model.IsWoven) (isLabelled : model.IsLabelled)
    (inside : ∀ root, model.root = some root → root < model.size) :
    model.IsListing model.listing := by
  constructor
  case nothing =>
    intro noRoot
    rw [listing, noRoot]
  case lines =>
    intro root isRoot
    have forest := isWoven.forest_descendants root
    have trees := Forest.cons rfl forest (.nil (model.parent? root))
    rw [List.append_nil] at trees
    have enough : (root :: model.descendants root).length ≤ model.size := by
      refine IsWoven.length_le_of_nodup (isWoven.standsInTrees.nodup root) ?_
      refine List.forall_mem_cons.mpr ⟨inside root isRoot, fun other isBelow => ?_⟩
      exact isWoven.lt_size_of_hasBelow ((IsWoven.mem_iff_hasBelow forest other).mp isBelow)
    have onTop : model.StandsBelow root 0 root := .top
    have lines := trees.forall₂_linesBelow enough (List.forall_mem_singleton.mpr onTop)
    rw [List.flatMap_singleton] at lines
    refine ⟨_, by rw [listing, isRoot], lines.imp ?_⟩
    rintro handle line ⟨level, stands, rfl⟩
    exact ⟨level, stands, rfl,
      isLabelled.isLineOf_line level (stands.lt_size isWoven (inside root isRoot))⟩

end Model

end LdpScore
