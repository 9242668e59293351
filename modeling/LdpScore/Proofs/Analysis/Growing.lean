import LdpScore.Proofs.Analysis.Leaving
import LdpScore.Proofs.Relation.Apart

/-!
# What stands in music data grows below its anchor

Every element becomes a tree below its anchor, or nothing, and only then the next
element is looked at: the analysis of an element is `Growing`.  What is read and
what is joined meanwhile is only `Keeping`, for relations stand apart.
-/

namespace LdpScore

open Model (KeepsTrees Grows)

namespace Model

/-- An anchor, if there is one, stands in a tree. -/
def IsAnchor (model : Model) (anchor : Option Handle) : Prop :=
  ∀ handle, anchor = some handle → model.isElement handle

variable {before after : Model} {anchor : Option Handle} {tops : List Handle}

theorem isAnchor_none (model : Model) : model.IsAnchor none := nofun

theorem IsAnchor.hasAnchor (isAnchor : before.IsAnchor anchor) :
    before.HasAnchor anchor :=
  fun handle isHandle => lt_size_of_isElement (isAnchor handle isHandle)

theorem IsAnchor.grows
    {other : Option Handle} (isAnchor : before.IsAnchor other)
    (grows : Grows anchor tops before after) :
    after.IsAnchor other := by
  intro handle isHandle
  rw [grows.isElement handle (isAnchor.hasAnchor handle isHandle)]
  exact isAnchor handle isHandle

theorem Sprouts.isAnchor (sprouts : Sprouts anchor before after) :
    after.IsAnchor (some before.size) := by
  rintro handle ⟨⟩
  rw [sprouts.isElement, beq_self_eq_true, Bool.true_or]

end Model

namespace Analyser

variable {Value Result : Type} {anchor : Option Handle}

/-! ## Steps that leave the trees alone -/

/-- A step that leaves the trees alone, and returns a value with some property. -/
def Keeping (action : Analyser Value) (property : Value → Prop) : Prop :=
  ∀ before, Ensures action before fun value after =>
    KeepsTrees before.draft.model after.draft.model ∧ property value

/-- A step that leaves the trees alone, whatever it returns. -/
abbrev Keeps (action : Analyser Value) : Prop :=
  Keeping action fun _ => True

namespace Keeping

variable {property : Value → Prop}

theorem of_quiet {action : Analyser Value} (quiet : Quiet action property) :
    Keeping action property :=
  fun before => ⟨.of_eq (quiet before).1.draft.model, (quiet before).2⟩

theorem pure {value : Value} (holds : property value) :
    Keeping (Pure.pure value) property :=
  .of_quiet (.pure holds)

theorem bind
    {action : Analyser Result} {next : Result → Analyser Value}
    {between : Result → Prop} (first : Keeping action between)
    (second : ∀ result, between result → Keeping (next result) property) :
    Keeping (action >>= next) property := by
  intro before
  apply (first before).bind
  rintro result middle ⟨keeps, holds⟩
  apply (second result holds middle).mono
  rintro value after ⟨later, holdsAfter⟩
  exact ⟨keeps.trans later, holdsAfter⟩

/-- Something is read first. -/
theorem read
    {action : Analyser Result} {next : Result → Analyser Value}
    {between : Result → Prop} (first : Quiet action between)
    (second : ∀ result, Keeping (next result) property) :
    Keeping (action >>= next) property :=
  (of_quiet first).bind fun result _ => second result

end Keeping

theorem keeping_settle
    {change : Pending → Draft → Pending × Draft}
    (keeps : ∀ pending draft,
      KeepsTrees draft.model (change pending draft).2.model) :
    Keeps (settle change) :=
  fun before => ⟨keeps before.pending before.draft, trivial⟩

theorem keeping_modifyContext (change : Context → Context) :
    Keeps (modifyContext change) :=
  fun before => ⟨.refl before.draft.model, trivial⟩

theorem keeping_modifyModel
    {change : Model → Model} (keeps : ∀ model, KeepsTrees model (change model)) :
    Keeps (modifyModel change) :=
  fun before => ⟨keeps before.draft.model, trivial⟩

theorem keeping_modifyNoteRest
    (handle : Handle) (change : NoteRest → NoteRest) :
    Keeps (modifyModel fun model => model.modifyNoteRest handle change) :=
  keeping_modifyModel fun model => .modifyNoteRest model handle change

theorem keeping_clearPending : Keeps clearPending :=
  keeping_settle fun pending draft => .of_eq (pending.silent_reportAll draft).model

/-! ## Steps that let trees grow -/

/-- A step lets some trees grow below an anchor, and returns a value with some
property. -/
def Growing
    (anchor : Option Handle) (action : Analyser Value)
    (property : Value → List Handle → Prop) : Prop :=
  ∀ before, before.draft.model.IsAnchor anchor →
    Ensures action before fun value after =>
      ∃ tops, Grows anchor tops before.draft.model after.draft.model ∧
        property value tops

/-- A step lets trees grow, whatever it returns. -/
abbrev GrowingAny (anchor : Option Handle) (action : Analyser Value) : Prop :=
  Growing anchor action fun _ _ => True

/-- A step lets one tree grow, and returns its top. -/
abbrev GrowingOne (anchor : Option Handle) (action : Analyser Handle) : Prop :=
  Growing anchor action fun handle tops => tops = [handle]

/-- A step lets one tree grow and returns its top, or it returns nothing. -/
abbrev GrowingAtMostOne
    (anchor : Option Handle) (action : Analyser (Option Handle)) : Prop :=
  Growing anchor action fun result tops => tops = result.toList

namespace Growing

variable {property : Value → List Handle → Prop}

theorem of_keeping
    {action : Analyser Value} {holds : Value → Prop}
    (keeping : Keeping action holds)
    (implies : ∀ value, holds value → property value []) :
    Growing anchor action property :=
  fun before _ => ⟨[], (keeping before).1.grows anchor,
    implies _ (keeping before).2⟩

theorem pure {value : Value} (holds : property value []) :
    Growing anchor (Pure.pure value) property :=
  .of_keeping (.pure holds) fun _ => id

theorem mono
    {action : Analyser Value} {weaker : Value → List Handle → Prop}
    (growing : Growing anchor action property)
    (implies : ∀ value tops, property value tops → weaker value tops) :
    Growing anchor action weaker := by
  intro before isAnchor
  obtain ⟨tops, grows, holds⟩ := growing before isAnchor
  exact ⟨tops, grows, implies _ tops holds⟩

/-- What a step returns may not matter. -/
theorem any {action : Analyser Value} (growing : Growing anchor action property) :
    GrowingAny anchor action :=
  growing.mono fun _ _ _ => trivial

theorem bind
    {action : Analyser Result} {next : Result → Analyser Value}
    {between : Result → List Handle → Prop}
    (first : Growing anchor action between)
    (second : ∀ result tops, between result tops →
      Growing anchor (next result) fun value more =>
        property value (tops ++ more)) :
    Growing anchor (action >>= next) property := by
  intro before isAnchor
  apply (first before isAnchor).bind
  rintro result middle ⟨tops, grows, holds⟩
  apply (second result tops holds middle (isAnchor.grows grows)).mono
  rintro value after ⟨more, later, holdsAfter⟩
  exact ⟨tops ++ more, grows.trans later isAnchor.hasAnchor, holdsAfter⟩

/-- What grows first does not matter. -/
theorem seq
    {action : Analyser Result} {next : Result → Analyser Value}
    (first : GrowingAny anchor action)
    (second : ∀ result, GrowingAny anchor (next result)) :
    GrowingAny anchor (action >>= next) :=
  first.bind fun result _ _ => second result

/-- The trees are left alone first. -/
theorem keep
    {action : Analyser Result} {next : Result → Analyser Value}
    {between : Result → Prop} (first : Keeping action between)
    (second : ∀ result, Growing anchor (next result) property) :
    Growing anchor (action >>= next) property := by
  have nothing : Growing anchor action fun _ tops => tops = [] :=
    of_keeping first fun _ _ => rfl
  refine nothing.bind fun result tops isNothing => ?_
  rw [isNothing]
  exact second result

/-- Something is read first. -/
theorem read
    {action : Analyser Result} {next : Result → Analyser Value}
    {between : Result → Prop} (first : Quiet action between)
    (second : ∀ result, Growing anchor (next result) property) :
    Growing anchor (action >>= next) property :=
  keep (.of_quiet first) second

theorem map
    {action : Analyser Result} {between : Result → List Handle → Prop}
    {change : Result → Value} (growing : Growing anchor action between)
    (implies : ∀ result tops, between result tops →
      property (change result) tops) :
    Growing anchor (change <$> action) property := by
  intro before isAnchor
  obtain ⟨tops, grows, holds⟩ := growing before isAnchor
  exact ⟨tops, grows, implies _ tops holds⟩

theorem discard
    {action : Analyser Value} (growing : Growing anchor action property) :
    GrowingAny anchor (discard action) :=
  growing.map fun _ _ _ => trivial

/-- The model that is read is the one at that moment. -/
theorem readModel
    {next : Model → Analyser Value}
    (each : ∀ before, before.draft.model.IsAnchor anchor →
      Ensures (next before.draft.model) before fun value after =>
        ∃ tops, Grows anchor tops before.draft.model after.draft.model ∧
          property value tops) :
    Growing anchor (model >>= next) property :=
  each

/-- An object is added, and what grows next stands below it. -/
theorem branch
    {node : Node} {content : Content} {next : Handle → Analyser Value}
    (noRelation : content.members? = none)
    (second : ∀ handle, Growing (some handle) (next handle) fun value _ =>
      property value [handle]) :
    Growing anchor (addObject node anchor content >>= next) property := by
  intro before isAnchor
  have anchored := isAnchor.hasAnchor
  have added : Ensures (addObject node anchor content) before
      fun handle middle => handle = before.draft.model.size ∧
        before.draft.model.Sprouts anchor middle.draft.model :=
    ⟨before.draft.addObject_fst _ _ anchor content,
      before.draft.sprouts_addObject _ _ anchored noRelation⟩
  apply added.bind
  rintro _ middle ⟨rfl, sprouts⟩
  apply (second _ middle sprouts.isAnchor).mono
  rintro value after ⟨tops, grows, holds⟩
  exact ⟨[before.draft.model.size], sprouts.branch grows anchored, holds⟩

theorem analyseEach
    {analyserOf : ElementKind → Option (Node → Analyser Unit)}
    (each : ∀ kind analyser node, analyserOf kind = some analyser →
      GrowingAny anchor (analyser node))
    (children : List Node) :
    GrowingAny anchor (analyseEach analyserOf children) := by
  induction children with
  | nil => exact .pure trivial
  | cons child rest induction =>
      rw [Analyser.analyseEach]
      split
      · rename_i analyser isAnalyser
        obtain ⟨kind, _, known⟩ := Option.bind_eq_some_iff.mp isAnalyser
        exact (each kind analyser child known).seq fun _ => induction
      · exact .read (reads_reportMisplaced child) fun _ => induction

end Growing

theorem growing_addObject
    (node : Node) {content : Content} (noRelation : content.members? = none) :
    GrowingOne anchor (addObject node anchor content) := by
  have branched : GrowingOne anchor
      (addObject node anchor content >>= Pure.pure) :=
    .branch noRelation fun _ => .pure rfl
  rwa [bind_pure] at branched

/-! ## Marks and texts -/

theorem growing_addMark
    (node : Node) (children : List Node) {content : Appearance → Content}
    (noRelation : ∀ appearance, (content appearance).members? = none) :
    GrowingOne anchor (addMark node anchor children content) := by
  rw [addMark]
  refine .read (quiet_printOptions _ _) fun result => ?_
  refine .read (reads_reportExtra _ _) fun _ => ?_
  exact growing_addObject node (noRelation _)

theorem growing_analyseArticulation (kind : ElementKind) (node : Node) :
    GrowingOne anchor (analyseArticulation kind node anchor) := by
  rw [analyseArticulation]
  refine .read (reads_optionalPlacement _) fun result => ?_
  exact growing_addMark node _ fun _ => rfl

theorem growing_analyseDynamics (node : Node) :
    GrowingAtMostOne anchor (analyseDynamics node anchor) := by
  rw [analyseDynamics]
  refine .read (quiet_mandatory _ _ _) fun result => ?_
  rcases result with ⟨_ | mark, rest⟩
  · exact .pure rfl
  · dsimp only
    split
    · refine .read (reads_optionalPlacement _) fun result => ?_
      refine (growing_addMark node _ fun _ => rfl).bind ?_
      rintro handle _ rfl
      exact .pure rfl
    · exact .read (reads_report _ (by simp)) fun _ => .pure rfl

theorem growing_analyseFermata (node : Node) :
    GrowingOne anchor (analyseFermata node anchor) := by
  rw [analyseFermata]
  refine .read (reads_fermataLabels _ _) fun result => ?_
  exact growing_addMark node _ fun _ => rfl

theorem growing_analyseText (node : Node) :
    GrowingAtMostOne anchor (analyseText node anchor) := by
  rw [analyseText]
  refine .read (quiet_mandatory _ _ _) fun result => ?_
  rcases result with ⟨_ | text, rest⟩
  · exact .pure rfl
  · refine .read (reads_textLocation _ _) fun appearance => ?_
    exact .branch rfl fun _ => .pure rfl

theorem growing_analyseLyric (node : Node) :
    GrowingAtMostOne anchor (analyseLyric node anchor) := by
  rw [analyseLyric]
  refine .read reads_model fun current => ?_
  refine .read (reads_lyricLine _) fun result => ?_
  rcases result with ⟨line, rest⟩
  dsimp only
  split
  · exact .read (reads_report _ (by simp)) fun _ => .pure rfl
  · refine .read (reads_lyricOptions _) fun result => ?_
    refine .read (reads_choosePlacement _ _) fun placement => ?_
    refine .read (quiet_printOptions _ _) fun result => ?_
    refine .read (reads_reportExtra _ _) fun _ => ?_
    rcases isNote : anchor.filter fun handle => (current.note? handle).isSome with
      _ | note
    · exact .read (reads_report _ (by simp)) fun _ => .pure rfl
    · obtain rfl : anchor = some note := (Option.filter_eq_some_iff.mp isNote).1
      exact .branch rfl fun _ => .pure rfl

/-! ## What is attached to staff objects -/

theorem growing_attachment
    {handle : Handle} {kind : ElementKind} {analyser : Node → Analyser Unit}
    (known : attachmentAnalyser? handle kind = some analyser) (node : Node) :
    GrowingAny (some handle) (analyser node) := by
  unfold attachmentAnalyser? at known
  split at known
  · cases known
    exact (growing_analyseFermata node).discard
  · split at known
    · cases known
      exact (growing_analyseDynamics node).discard
    · split at known
      · cases known
        exact (growing_analyseText node).discard
      · split at known
        · cases known
          exact (growing_analyseArticulation kind node).discard
        · cases known

theorem growing_textAttachment
    {handle : Handle} {kind : ElementKind} {analyser : Node → Analyser Unit}
    (known : textAnalyser? handle kind = some analyser) (node : Node) :
    GrowingAny (some handle) (analyser node) := by
  unfold textAnalyser? at known
  split at known
  · cases known
    exact (growing_analyseText node).discard
  · cases known

/-! ## Staff objects -/

theorem growing_addStaffObject
    (node : Node) {content : Content} (noRelation : content.members? = none)
    (children : List Node) :
    GrowingOne anchor (addStaffObject node anchor content children) := by
  rw [addStaffObject]
  refine .branch noRelation fun handle => ?_
  exact (Growing.analyseEach (fun _ _ node known =>
    growing_textAttachment known node) children).bind fun _ _ _ => .pure rfl

theorem growing_analyseClef (node : Node) :
    GrowingOne anchor (analyseClef node anchor) := by
  rw [analyseClef]
  refine .read (quiet_optionalName _ _ (fun _ => by simp) _) fun result => ?_
  refine .read (quiet_optionalSize _ _) fun result => ?_
  refine .read (quiet_staffOptions _ _) fun result => ?_
  refine .read (reads_modifyContext fun _ => rfl) fun _ => ?_
  exact growing_addStaffObject node rfl _

theorem growing_analyseKey (node : Node) :
    GrowingOne anchor (analyseKey node anchor) := by
  rw [analyseKey]
  refine .read (quiet_optionalName _ _ (fun _ => by simp) _) fun result => ?_
  refine .read (quiet_staffOptions _ _) fun result => ?_
  refine .read (reads_modifyContext fun _ => rfl) fun _ => ?_
  exact growing_addStaffObject node rfl _

theorem growing_analyseTime (node : Node) :
    GrowingOne anchor (analyseTime node anchor) := by
  rw [analyseTime]
  refine .read (quiet_optionalName _ _ (fun _ => by simp) _) fun result => ?_
  refine .read (quiet_timeCounts _ _ _) fun result => ?_
  refine .read (quiet_staffOptions _ _) fun result => ?_
  refine .read (reads_modifyContext fun _ => rfl) fun _ => ?_
  exact growing_addStaffObject node rfl _

theorem growing_analyseBarline (node : Node) :
    GrowingOne anchor (analyseBarline node anchor) := by
  rw [analyseBarline]
  refine .read (quiet_optionalName _ _ (fun _ => by simp) _) fun result => ?_
  refine .read (quiet_optionalWord _ _) fun result => ?_
  refine .read (quiet_staffOptions _ _) fun result => ?_
  refine (growing_addStaffObject node rfl _).bind ?_
  rintro handle _ rfl
  exact .read (reads_modifyContext fun _ => rfl) fun _ => .pure rfl

theorem growing_analyseShift (isForward : Bool) (node : Node) :
    GrowingAtMostOne anchor (analyseShift isForward node anchor) := by
  rw [analyseShift]
  refine .read (reads_readShift _ _) fun result => ?_
  rcases result with ⟨_ | shift, rest⟩
  · exact .pure rfl
  · refine .read (reads_reportExtra _ _) fun _ => ?_
    refine .read (reads_modifyContext fun _ => rfl) fun _ => ?_
    exact .branch rfl fun _ => .pure rfl

theorem growing_analyseSpacer (node : Node) :
    GrowingAtMostOne anchor (analyseSpacer node anchor) := by
  rw [analyseSpacer]
  rcases take? .number node.children with ⟨_ | number, rest⟩
  · exact .read (reads_report _ (by simp)) fun _ => .pure rfl
  · refine .read (reads_realValue _) fun width => ?_
    refine .read (quiet_staffOptions _ _) fun result => ?_
    refine .branch rfl fun handle => ?_
    exact (Growing.analyseEach (fun _ _ node known =>
      growing_attachment known node) _).bind fun _ _ _ => .pure rfl

theorem growing_analyseNewSystem (node : Node) :
    GrowingOne anchor (analyseNewSystem node anchor) := by
  rw [analyseNewSystem]
  refine .read (reads_reportExtra _ _) fun _ => ?_
  exact growing_addObject node rfl

theorem growing_analyseMetronome (node : Node) :
    GrowingOne anchor (analyseMetronome node anchor) := by
  rw [analyseMetronome]
  refine .read (reads_readMetronome _ _) fun result => ?_
  rcases result with ⟨_ | mark, rest⟩
  · exact growing_addObject node rfl
  · refine .read (quiet_optionalWord _ _) fun result => ?_
    exact growing_addMark node _ fun _ => rfl

end Analyser

end LdpScore
