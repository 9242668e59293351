import LdpScore.Analysis.Value
import LdpScore.Proofs.Score.Growth

/-!
# Reading without building

Most of an analysis only reads: it takes children, reads their values, reports
what is wrong and remembers settings.  Such a step is `Quiet`: it leaves the
model, the ids, the open relations and the last note alone, and what it reports
is never a taken id.
-/

namespace LdpScore

/-- Two states that differ in settings and reports only. -/
structure Analysis.Agrees (before after : Analysis) : Prop where
  draft : Draft.Silent before.draft after.draft
  pending : after.pending = before.pending
  lastNote : after.context.lastNote = before.context.lastNote

namespace Analysis.Agrees

theorem refl (state : Analysis) : Agrees state state :=
  ⟨.refl _, rfl, rfl⟩

theorem trans
    {first middle last : Analysis}
    (earlier : Agrees first middle) (later : Agrees middle last) :
    Agrees first last :=
  ⟨earlier.draft.trans later.draft, later.pending.trans earlier.pending,
    later.lastNote.trans earlier.lastNote⟩

end Analysis.Agrees

namespace Analyser

variable {Value Result : Type}

/-- A condition holds of what a step returns and of the state after it. -/
def Ensures
    (action : Analyser Value) (before : Analysis)
    (post : Value → Analysis → Prop) : Prop :=
  post (action.run before).run.1 (action.run before).run.2

namespace Ensures

variable {before : Analysis} {post : Value → Analysis → Prop}

theorem bind
    {action : Analyser Result} {next : Result → Analyser Value}
    {between : Result → Analysis → Prop}
    (first : Ensures action before between)
    (second : ∀ result state, between result state →
      Ensures (next result) state post) :
    Ensures (action >>= next) before post :=
  second _ _ first

/-- The model that is read is the one at that moment. -/
theorem readModel
    {next : Model → Analyser Value}
    (ensures : Ensures (next before.draft.model) before post) :
    Ensures (model >>= next) before post :=
  ensures

/-- The context that is read is the one at that moment. -/
theorem readContext
    {next : Context → Analyser Value}
    (ensures : Ensures (next before.context) before post) :
    Ensures (context >>= next) before post :=
  ensures

theorem mono
    {action : Analyser Value} {weaker : Value → Analysis → Prop}
    (ensures : Ensures action before post)
    (implies : ∀ value state, post value state → weaker value state) :
    Ensures action before weaker :=
  implies _ _ ensures

/-- What is known of a step holds of its very outcome. -/
theorem exactly
    {action : Analyser Value} (ensures : Ensures action before post) :
    Ensures action before fun value after =>
      (action.run before).run = (value, after) ∧ post value after :=
  ⟨rfl, ensures⟩

end Ensures

/-- A step that only reads, and returns a value with some property. -/
def Quiet (action : Analyser Value) (property : Value → Prop) : Prop :=
  ∀ before, Ensures action before fun value after =>
    before.Agrees after ∧ property value

/-- A step that only reads, whatever it returns. -/
abbrev Reads (action : Analyser Value) : Prop :=
  Quiet action fun _ => True

namespace Quiet

variable {property : Value → Prop}

theorem pure {value : Value} (holds : property value) :
    Quiet (Pure.pure value) property := by
  intro before
  exact ⟨.refl before, holds⟩

theorem bind
    {action : Analyser Result} {next : Result → Analyser Value}
    {between : Result → Prop}
    (first : Quiet action between)
    (second : ∀ result, between result → Quiet (next result) property) :
    Quiet (action >>= next) property := by
  intro before
  apply (first before).bind
  rintro result middle ⟨agrees, holds⟩
  apply (second result holds middle).mono
  rintro value after ⟨later, holdsAfter⟩
  exact ⟨agrees.trans later, holdsAfter⟩

theorem map
    {action : Analyser Result} {change : Result → Value}
    {between : Result → Prop}
    (first : Quiet action between)
    (implies : ∀ result, between result → property (change result)) :
    Quiet (change <$> action) property := by
  intro before
  exact ⟨(first before).1, implies _ (first before).2⟩

theorem mono
    {action : Analyser Value} {weaker : Value → Prop}
    (quiet : Quiet action property)
    (implies : ∀ value, property value → weaker value) :
    Quiet action weaker := by
  intro before
  exact ⟨(quiet before).1, implies _ (quiet before).2⟩

end Quiet

theorem Reads.map
    {action : Analyser Result} (reads : Reads action)
    (change : Result → Value) :
    Reads (change <$> action) :=
  Quiet.map reads fun _ _ => trivial

/-! ## Elementary steps -/

theorem reads_context : Reads context := by
  intro before
  exact ⟨.refl before, trivial⟩

theorem reads_model : Reads model := by
  intro before
  exact ⟨.refl before, trivial⟩

theorem reads_pending : Reads pending := by
  intro before
  exact ⟨.refl before, trivial⟩

theorem reads_modifyContext
    {change : Context → Context}
    (keeps : ∀ context, (change context).lastNote = context.lastNote) :
    Reads (modifyContext change) := by
  intro before
  exact ⟨⟨.refl _, rfl, keeps before.context⟩, trivial⟩

theorem reads_report
    (location : Location) {problem : Problem} (other : problem ≠ .idTaken) :
    Reads (report location problem) := by
  intro before
  exact ⟨⟨.report before.draft location other, rfl, rfl⟩, trivial⟩

theorem reads_reportMisplaced (child : Node) :
    Reads (reportMisplaced child) :=
  reads_report _ (by simp)

theorem reads_reportMissing (parent : Node) (kind : ElementKind) :
    Reads (reportMissing parent kind) :=
  reads_report _ (by simp)

theorem reads_reportExtra (node : Node) (children : List Node) :
    Reads (reportExtra node children) := by
  cases children with
  | nil => exact .pure trivial
  | cons extra rest => exact reads_report _ (by simp)

/-! ## Taking children -/

/-- What was taken from some children: perhaps the first one, and the others. -/
structure Takes
    (kind : ElementKind) (children : List Node)
    (result : Option Node × List Node) : Prop where
  parts : result.1.toList ++ result.2 = children
  kind : ∀ node, result.1 = some node → node.is kind

theorem takes_take? (kind : ElementKind) (children : List Node) :
    Takes kind children (take? kind children) := by
  cases children with
  | nil =>
      refine ⟨rfl, fun node taken => ?_⟩
      cases taken
  | cons first rest =>
      by_cases isKind : first.is kind = true
      · rw [take?, if_pos isKind]
        refine ⟨rfl, fun node taken => ?_⟩
        cases taken
        exact isKind
      · rw [take?, if_neg isKind]
        refine ⟨rfl, fun node taken => ?_⟩
        cases taken

theorem Takes.suffix
    {kind : ElementKind} {children : List Node}
    {result : Option Node × List Node} (takes : Takes kind children result) :
    result.2 <:+ children :=
  ⟨result.1.toList, takes.parts⟩

theorem quiet_mandatory
    (parent : Node) (kind : ElementKind) (children : List Node) :
    Quiet (mandatory parent kind children) (Takes kind children) := by
  have takes := takes_take? kind children
  rw [mandatory]
  generalize take? kind children = taken at takes ⊢
  rcases taken with ⟨_ | node, rest⟩
  · exact (reads_reportMissing parent kind).bind fun _ _ => .pure takes
  · exact .pure takes

/-! ## Values of leaves -/

theorem reads_integerValue (node : Node) (default : Int) :
    Reads (integerValue node default) := by
  rw [integerValue]
  split
  · exact .pure trivial
  · exact (reads_report _ (by simp)).bind fun _ _ => .pure trivial

theorem reads_boundedValue
    (interval : Interval) (node : Node) (default : Int) :
    Reads (boundedValue interval node default) := by
  rw [boundedValue]
  split
  · exact .pure trivial
  · exact (reads_report _ (by simp)).bind fun _ _ => .pure trivial

theorem reads_numberValue (node : Node) (default : Int) :
    Reads (numberValue node default) :=
  reads_boundedValue signedInterval node default

theorem reads_countValue (node : Node) (default : Nat) :
    Reads (countValue node default) := by
  rw [countValue]
  exact (reads_boundedValue _ _ _).bind fun _ _ => .pure trivial

theorem reads_realValue (node : Node) : Reads (realValue node) := by
  rw [realValue]
  split
  · exact .pure trivial
  · exact (reads_report _ (by simp)).bind fun _ _ => .pure trivial

theorem reads_boolValue (node : Node) (default : Bool) :
    Reads (boolValue node default) := by
  rw [boolValue]
  split
  case h_5 => exact (reads_report _ (by simp)).bind fun _ _ => .pure trivial
  all_goals exact .pure trivial

theorem reads_yesNoValue (node : Node) : Reads (yesNoValue node) := by
  rw [yesNoValue]
  split
  case h_3 => exact (reads_report _ (by simp)).bind fun _ _ => .pure trivial
  all_goals exact .pure trivial

theorem reads_placementValue (node : Node) (fallback : Placement) :
    Reads (placementValue node fallback) := by
  unfold placementValue
  split
  case h_3 => exact (reads_report _ (by simp)).bind fun _ _ => .pure trivial
  all_goals exact .pure trivial

theorem reads_alignmentValue (node : Node) : Reads (alignmentValue node) := by
  rw [alignmentValue]
  split
  · exact .pure trivial
  · exact (reads_report _ (by simp)).bind fun _ _ => .pure trivial

theorem reads_noteValue (node : Node) : Reads (noteValue node) := by
  rw [noteValue]
  split
  · exact .pure trivial
  · exact (reads_report _ (by simp)).bind fun _ _ => .pure trivial

theorem reads_staffLabel (node : Node) : Reads (staffLabel node) := by
  unfold staffLabel
  dsimp only
  split
  · exact reads_modifyContext fun _ => rfl
  · exact (reads_report _ (by simp)).bind fun _ _ =>
      reads_modifyContext fun _ => rfl

theorem reads_voiceLabel (node : Node) : Reads (voiceLabel node) := by
  unfold voiceLabel
  dsimp only
  split
  · exact reads_modifyContext fun _ => rfl
  · exact (reads_report _ (by simp)).bind fun _ _ =>
      reads_modifyContext fun _ => rfl

theorem reads_propertyValue (property : Node) (kind : ElementKind) :
    Reads (propertyValue property kind) := by
  rw [propertyValue]
  dsimp only
  split
  · exact (reads_reportMissing property kind).bind fun _ _ => .pure trivial
  · exact .pure trivial

end Analyser

end LdpScore
