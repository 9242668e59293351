import LdpScore.Proofs.Analysis.Document
import LdpScore.Proofs.Score.Leaving

/-!
# Parts of an analysis beside the music

Marks, texts, options and all other elements that are neither notes nor rests leave
the music as it is, and so does reading the element of a note or rest.  Such a part
of an analysis is `Leaving`: it does not touch the music below any bound that lies
inside the score, whatever the score is like.  Nor does it add a note or a rest, or
forget which note was the last one.
-/

namespace LdpScore

/-- The music below a bound is left as it is, and what waits goes on waiting. -/
structure Analysis.Leaves
    (bound : Handle) (before after : Analysis) : Prop where
  model : before.draft.model.Leaves bound after.draft.model
  pending : after.pending = before.pending

namespace Analysis.Leaves

variable {bound : Handle} {first middle last before after : Analysis}

theorem trans
    (earlier : Leaves bound first middle) (later : Leaves bound middle last) :
    Leaves bound first last :=
  ⟨earlier.model.trans later.model, later.pending.trans earlier.pending⟩

/-- The score stays the same. -/
theorem of_model
    (model : after.draft.model = before.draft.model)
    (pending : after.pending = before.pending) :
    Leaves bound before after := by
  refine ⟨?_, pending⟩
  rw [model]
  exact .refl bound _

theorem of_agrees (agrees : before.Agrees after) : Leaves bound before after :=
  .of_model agrees.draft.model agrees.pending

theorem inside
    (leaves : Leaves bound before after) {handle : Handle}
    (inside : handle ≤ before.draft.model.size) :
    handle ≤ after.draft.model.size :=
  Nat.le_trans inside leaves.model.size_le

end Analysis.Leaves

/-- The music below a bound is left as it is, there are no new notes and rests, the
last note is still the last one, and whatever was reported stays. -/
structure Analysis.Aside
    (bound : Handle) (before after : Analysis) : Prop
    extends Analysis.Leaves bound before after where
  noteRests : after.draft.model.noteRests = before.draft.model.noteRests
  lastNote : after.context.lastNote = before.context.lastNote
  reports : before.draft.KeepsReports after.draft

namespace Analysis.Aside

variable {bound : Handle} {first middle last before after : Analysis}

theorem trans
    (earlier : Aside bound first middle) (later : Aside bound middle last) :
    Aside bound first last :=
  ⟨earlier.toLeaves.trans later.toLeaves,
    later.noteRests.trans earlier.noteRests,
    later.lastNote.trans earlier.lastNote,
    earlier.reports.trans later.reports⟩

theorem of_agrees (agrees : before.Agrees after) : Aside bound before after :=
  ⟨.of_agrees agrees, congrArg Model.noteRests agrees.draft.model,
    agrees.lastNote, agrees.draft.reports⟩

theorem inside
    (aside : Aside bound before after) {handle : Handle}
    (inside : handle ≤ before.draft.model.size) :
    handle ≤ after.draft.model.size :=
  aside.toLeaves.inside inside

end Analysis.Aside

namespace Analyser

variable {Value Result : Type} {bound : Handle}

/-- A step that leaves the music below a bound as it is, and returns a value with
some property. -/
def Leaving
    (bound : Handle) (action : Analyser Value) (property : Value → Prop) :
    Prop :=
  ∀ before, bound ≤ before.draft.model.size →
    Ensures action before fun value after =>
      before.Aside bound after ∧ property value

/-- A step that leaves the music below a bound as it is, whatever it returns. -/
abbrev LeavingAll (bound : Handle) (action : Analyser Value) : Prop :=
  Leaving bound action fun _ => True

namespace Leaving

variable {property : Value → Prop}

theorem of_quiet {action : Analyser Value} (quiet : Quiet action property) :
    Leaving bound action property := by
  intro before _
  exact ⟨.of_agrees (quiet before).1, (quiet before).2⟩

theorem pure {value : Value} (holds : property value) :
    Leaving bound (Pure.pure value) property :=
  .of_quiet (.pure holds)

theorem bind
    {action : Analyser Result} {next : Result → Analyser Value}
    {between : Result → Prop} (first : Leaving bound action between)
    (second : ∀ result, between result → Leaving bound (next result) property) :
    Leaving bound (action >>= next) property := by
  intro before inside
  apply (first before inside).bind
  rintro result middle ⟨aside, holds⟩
  apply (second result holds middle (aside.inside inside)).mono
  rintro value after ⟨later, holdsAfter⟩
  exact ⟨aside.trans later, holdsAfter⟩

/-- Something is read first. -/
theorem read
    {action : Analyser Result} {next : Result → Analyser Value}
    {between : Result → Prop} (first : Quiet action between)
    (second : ∀ result, between result → Leaving bound (next result) property) :
    Leaving bound (action >>= next) property :=
  (of_quiet first).bind second

theorem mono
    {action : Analyser Value} {weaker : Value → Prop}
    (leaving : Leaving bound action property)
    (implies : ∀ value, property value → weaker value) :
    Leaving bound action weaker :=
  fun before inside =>
    have facts := leaving before inside
    ⟨facts.1, implies _ facts.2⟩

/-- What a step returns may not matter. -/
theorem all
    {action : Analyser Value} (leaving : Leaving bound action property) :
    LeavingAll bound action :=
  leaving.mono fun _ _ => trivial

theorem map
    {action : Analyser Result} {between : Result → Prop}
    {change : Result → Value} (leaving : Leaving bound action between)
    (implies : ∀ result, between result → property (change result)) :
    Leaving bound (change <$> action) property :=
  fun before inside =>
    have facts := leaving before inside
    ⟨facts.1, implies _ facts.2⟩

theorem discard
    {action : Analyser Value} (leaving : Leaving bound action property) :
    LeavingAll bound (discard action) :=
  leaving.map fun _ _ => trivial

/-- The model that is read is the one at that moment. -/
theorem readModel
    {next : Model → Analyser Value}
    (each : ∀ before, bound ≤ before.draft.model.size →
      Ensures (next before.draft.model) before fun value after =>
        before.Aside bound after ∧ property value) :
    Leaving bound (model >>= next) property :=
  each

theorem analyseEach
    {analyserOf : ElementKind → Option (Node → Analyser Unit)}
    (each : ∀ kind analyser node, analyserOf kind = some analyser →
      LeavingAll bound (analyser node))
    (children : List Node) :
    LeavingAll bound (analyseEach analyserOf children) := by
  induction children with
  | nil => exact .pure trivial
  | cons child rest induction =>
      rw [Analyser.analyseEach]
      split
      · rename_i analyser isAnalyser
        obtain ⟨kind, _, known⟩ := Option.bind_eq_some_iff.mp isAnalyser
        exact (each kind analyser child known).bind fun _ _ => induction
      · exact .read (reads_reportMisplaced child) fun _ _ => induction

end Leaving


/-! ## Objects that are added and changed -/

theorem leaving_addObject
    (node : Node) (anchor : Option Handle) {content : Content}
    (plain : content.IsPlain) :
    Leaving bound (addObject node anchor content) (bound ≤ ·) := by
  intro before inside
  have isNew := before.draft.addObject_fst node.id? node.location anchor content
  have noteRests := before.draft.noteRests_addObject node.id? node.location
    anchor plain.isFresh
  rw [plain.noteRest?, Option.isSome_none, if_neg Bool.false_ne_true]
    at noteRests
  have leaves := before.draft.leaves_addObject node.id? node.location anchor
    plain.isFresh inside
  exact ⟨⟨⟨leaves, rfl⟩, noteRests, rfl,
    before.draft.prefix_assignId node.id? node.location⟩,
    Nat.le_trans inside (Nat.le_of_eq isNew.symm)⟩

/-- No object changes in kind, and none is added. -/
theorem aside_modifyContent
    {before : Analysis} {handle : Handle} {change : Content → Content}
    (leaves : before.draft.model.Leaves bound
      (before.draft.model.modifyContent handle change)) :
    Ensures (modifyModel fun model => model.modifyContent handle change) before
      fun _ after => before.Aside bound after := by
  refine ⟨⟨leaves, rfl⟩, leaves.names.noteRests_eq ?_, rfl, .refl before.draft⟩
  intro other outside isNoteRest
  have inside := isNoteRest.lt_size
  rw [Model.size_modifyContent] at inside
  exact absurd inside (Nat.not_lt.mpr outside)

/-- One object from the bound on changes, but neither in kind nor in links. -/
theorem leaving_modifyContent
    {handle : Handle} (outside : bound ≤ handle) {change : Content → Content}
    (keeps : ∀ content : Content, content.Keeps (change content)) :
    LeavingAll bound
      (modifyModel fun model => model.modifyContent handle change) := by
  intro before _
  refine ⟨aside_modifyContent (.modifyContent _ handle
    (fun _ _ => Or.inl outside) (fun content _ => (keeps content).name)
    fun content _ fresh => ?_), trivial⟩
  exact ⟨(keeps content).members?.trans fresh.members?,
    (keeps content).links.trans fresh.links⟩

theorem leaving_modifyNoteRest
    {handle : Handle} (outside : bound ≤ handle)
    (change : NoteRest → NoteRest) :
    LeavingAll bound
      (modifyModel fun model => model.modifyNoteRest handle change) :=
  leaving_modifyContent outside (.mapNoteRest change)

/-! ## Marks and texts -/

variable {anchor : Option Handle}

theorem leaving_addMark
    (node : Node) (children : List Node) {content : Appearance → Content}
    (plain : ∀ appearance, (content appearance).IsPlain) :
    Leaving bound (addMark node anchor children content) (bound ≤ ·) := by
  rw [addMark]
  refine .read (quiet_printOptions _ _) fun result _ => ?_
  refine .read (reads_reportExtra _ _) fun _ _ => ?_
  exact leaving_addObject node anchor (plain _)

theorem leaving_analyseArticulation (kind : ElementKind) (node : Node) :
    LeavingAll bound (analyseArticulation kind node anchor) := by
  rw [analyseArticulation]
  refine .read (reads_optionalPlacement _) fun result _ => ?_
  exact (leaving_addMark node _ fun _ => ⟨rfl, rfl⟩).all

theorem leaving_analyseDynamics (node : Node) :
    LeavingAll bound (analyseDynamics node anchor) := by
  rw [analyseDynamics]
  refine .read (quiet_mandatory _ _ _) fun result _ => ?_
  rcases result with ⟨_ | mark, rest⟩
  · exact .pure trivial
  · dsimp only
    split
    · refine .read (reads_optionalPlacement _) fun result _ => ?_
      exact (leaving_addMark node _ fun _ => ⟨rfl, rfl⟩).bind fun _ _ =>
        .pure trivial
    · exact .read (reads_report _ (by simp)) fun _ _ => .pure trivial

theorem leaving_analyseFermata (node : Node) :
    LeavingAll bound (analyseFermata node anchor) := by
  rw [analyseFermata]
  refine .read (reads_fermataLabels _ _) fun result _ => ?_
  exact (leaving_addMark node _ fun _ => ⟨rfl, rfl⟩).all

theorem leaving_analyseText (node : Node) :
    LeavingAll bound (analyseText node anchor) := by
  rw [analyseText]
  refine .read (quiet_mandatory _ _ _) fun result _ => ?_
  rcases result with ⟨_ | text, rest⟩
  · exact .pure trivial
  · refine .read (reads_textLocation _ _) fun appearance _ => ?_
    exact (leaving_addObject node anchor ⟨rfl, rfl⟩).bind fun _ _ => .pure trivial

theorem leaving_analyseLyric (node : Node) :
    LeavingAll bound (analyseLyric node anchor) := by
  rw [analyseLyric]
  refine .read reads_model fun current _ => ?_
  refine .read (reads_lyricLine _) fun result _ => ?_
  rcases result with ⟨line, rest⟩
  dsimp only
  split
  · exact .read (reads_report _ (by simp)) fun _ _ => .pure trivial
  · refine .read (reads_lyricOptions _) fun result _ => ?_
    refine .read (reads_choosePlacement _ _) fun placement _ => ?_
    refine .read (quiet_printOptions _ _) fun result _ => ?_
    refine .read (reads_reportExtra _ _) fun _ _ => ?_
    cases anchor.filter fun handle => (current.note? handle).isSome with
    | none => exact .read (reads_report _ (by simp)) fun _ _ => .pure trivial
    | some note =>
        exact (leaving_addObject node _ ⟨rfl, rfl⟩).bind fun _ _ => .pure trivial

/-! ## What is attached to staff objects -/

theorem leaving_attachment
    {handle : Handle} {kind : ElementKind} {analyser : Node → Analyser Unit}
    (known : attachmentAnalyser? handle kind = some analyser) (node : Node) :
    LeavingAll bound (analyser node) := by
  unfold attachmentAnalyser? at known
  split at known
  · cases known
    exact (leaving_analyseFermata node).discard
  · split at known
    · cases known
      exact (leaving_analyseDynamics node).discard
    · split at known
      · cases known
        exact (leaving_analyseText node).discard
      · split at known
        · cases known
          exact (leaving_analyseArticulation kind node).discard
        · cases known

theorem leaving_textAttachment
    {handle : Handle} {kind : ElementKind} {analyser : Node → Analyser Unit}
    (known : textAnalyser? handle kind = some analyser) (node : Node) :
    LeavingAll bound (analyser node) := by
  unfold textAnalyser? at known
  split at known
  · cases known
    exact (leaving_analyseText node).discard
  · cases known

/-! ## Staff objects -/

theorem leaving_addStaffObject
    (node : Node) {content : Content} (plain : content.IsPlain)
    (children : List Node) :
    LeavingAll bound (addStaffObject node anchor content children) := by
  rw [addStaffObject]
  refine (leaving_addObject node anchor plain).bind fun handle _ => ?_
  exact (Leaving.analyseEach (fun _ _ node known =>
    leaving_textAttachment known node) children).bind fun _ _ => .pure trivial

theorem leaving_analyseClef (node : Node) :
    LeavingAll bound (analyseClef node anchor) := by
  rw [analyseClef]
  refine .read (quiet_optionalName _ _ (fun _ => by simp) _) fun result _ => ?_
  refine .read (quiet_optionalSize _ _) fun result _ => ?_
  refine .read (quiet_staffOptions _ _) fun result _ => ?_
  refine .read (reads_modifyContext fun _ => rfl) fun _ _ => ?_
  exact leaving_addStaffObject node ⟨rfl, rfl⟩ _

theorem leaving_analyseKey (node : Node) :
    LeavingAll bound (analyseKey node anchor) := by
  rw [analyseKey]
  refine .read (quiet_optionalName _ _ (fun _ => by simp) _) fun result _ => ?_
  refine .read (quiet_staffOptions _ _) fun result _ => ?_
  refine .read (reads_modifyContext fun _ => rfl) fun _ _ => ?_
  exact leaving_addStaffObject node ⟨rfl, rfl⟩ _

theorem leaving_analyseTime (node : Node) :
    LeavingAll bound (analyseTime node anchor) := by
  rw [analyseTime]
  refine .read (quiet_optionalName _ _ (fun _ => by simp) _) fun result _ => ?_
  refine .read (quiet_timeCounts _ _ _) fun result _ => ?_
  refine .read (quiet_staffOptions _ _) fun result _ => ?_
  refine .read (reads_modifyContext fun _ => rfl) fun _ _ => ?_
  exact leaving_addStaffObject node ⟨rfl, rfl⟩ _

theorem leaving_analyseBarline (node : Node) :
    LeavingAll bound (analyseBarline node anchor) := by
  rw [analyseBarline]
  refine .read (quiet_optionalName _ _ (fun _ => by simp) _) fun result _ => ?_
  refine .read (quiet_optionalWord _ _) fun result _ => ?_
  refine .read (quiet_staffOptions _ _) fun result _ => ?_
  refine (leaving_addStaffObject node ⟨rfl, rfl⟩ _).bind fun handle _ => ?_
  exact .read (reads_modifyContext fun _ => rfl) fun _ _ => .pure trivial

theorem leaving_analyseShift (isForward : Bool) (node : Node) :
    LeavingAll bound (analyseShift isForward node anchor) := by
  rw [analyseShift]
  refine .read (reads_readShift _ _) fun result _ => ?_
  rcases result with ⟨_ | shift, rest⟩
  · exact .pure trivial
  · refine .read (reads_reportExtra _ _) fun _ _ => ?_
    refine .read (reads_modifyContext fun _ => rfl) fun _ _ => ?_
    exact (leaving_addObject node anchor ⟨rfl, rfl⟩).bind fun _ _ => .pure trivial

theorem leaving_analyseSpacer (node : Node) :
    LeavingAll bound (analyseSpacer node anchor) := by
  rw [analyseSpacer]
  rcases take? .number node.children with ⟨_ | number, rest⟩
  · exact .read (reads_report _ (by simp)) fun _ _ => .pure trivial
  · refine .read (reads_realValue _) fun width _ => ?_
    refine .read (quiet_staffOptions _ _) fun result _ => ?_
    refine (leaving_addObject node anchor ⟨rfl, rfl⟩).bind fun handle _ => ?_
    exact (Leaving.analyseEach (fun _ _ node known =>
      leaving_attachment known node) _).bind fun _ _ => .pure trivial

theorem leaving_analyseNewSystem (node : Node) :
    LeavingAll bound (analyseNewSystem node anchor) := by
  rw [analyseNewSystem]
  refine .read (reads_reportExtra _ _) fun _ _ => ?_
  exact (leaving_addObject node anchor ⟨rfl, rfl⟩).all

theorem leaving_analyseMetronome (node : Node) :
    LeavingAll bound (analyseMetronome node anchor) := by
  rw [analyseMetronome]
  refine .read (reads_readMetronome _ _) fun result _ => ?_
  rcases result with ⟨_ | mark, rest⟩
  · exact (leaving_addObject node anchor ⟨rfl, rfl⟩).all
  · refine .read (quiet_optionalWord _ _) fun result _ => ?_
    exact (leaving_addMark node _ fun _ => ⟨rfl, rfl⟩).all

/-! ## Texts of a document and of a score -/

theorem leaving_analyseTextItem (node : Node) :
    LeavingAll bound (analyseTextItem node anchor) := by
  rw [analyseTextItem]
  refine .read (quiet_mandatory _ _ _) fun result _ => ?_
  rcases result with ⟨_ | text, rest⟩
  · exact .pure trivial
  · refine .read (reads_reportExtra _ _) fun _ _ => ?_
    exact (leaving_addObject node anchor ⟨rfl, rfl⟩).bind fun _ _ => .pure trivial

theorem leaving_inline
    {handle : Handle} {kind : ElementKind} {analyser : Node → Analyser Unit}
    (known : inlineAnalyser? handle kind = some analyser) (node : Node) :
    LeavingAll bound (analyser node) := by
  unfold inlineAnalyser? at known
  split at known <;> cases known
  · exact (leaving_analyseTextItem node).discard
  · exact (leaving_addObject node _ ⟨rfl, rfl⟩).discard

theorem leaving_analyseParagraph (node : Node) :
    LeavingAll bound (analyseParagraph node anchor) := by
  rw [analyseParagraph]
  refine (leaving_addObject node anchor ⟨rfl, rfl⟩).bind fun handle _ => ?_
  exact (Leaving.analyseEach (fun _ _ node known =>
    leaving_inline known node) _).bind fun _ _ => .pure trivial

theorem leaving_analyseHeading (node : Node) :
    LeavingAll bound (analyseHeading node anchor) := by
  rw [analyseHeading]
  refine .read (quiet_mandatory _ _ _) fun result _ => ?_
  refine .read (reads_headingLevel _) fun level _ => ?_
  refine (leaving_addObject node anchor ⟨rfl, rfl⟩).bind fun handle _ => ?_
  exact (Leaving.analyseEach (fun _ _ node known =>
    leaving_inline known node) _).bind fun _ _ => .pure trivial

theorem leaving_analyseTitle (node : Node) :
    LeavingAll bound (analyseTitle node anchor) := by
  rw [analyseTitle]
  refine .read (reads_optionalAlignment _) fun result _ => ?_
  refine .read (quiet_mandatory _ _ _) fun result _ => ?_
  rcases result with ⟨_ | text, rest⟩
  · exact .pure trivial
  · refine .read (reads_textLocation _ _) fun appearance _ => ?_
    exact (leaving_addObject node anchor ⟨rfl, rfl⟩).bind fun _ _ => .pure trivial

/-- An option is added, or the one that is there is changed. -/
theorem leaving_analyseOption (node : Node) :
    LeavingAll bound (analyseOption node anchor) := by
  rw [analyseOption]
  refine .read (reads_readOption _) fun result _ => ?_
  rcases result with _ | ⟨name, value⟩
  · exact .pure trivial
  · refine .readModel fun before inside => ?_
    rcases isOption : anchor.bind fun score =>
        before.draft.model.optionHandle? score name with _ | option
    · exact ((leaving_addObject node anchor ⟨rfl, rfl⟩).bind fun _ _ =>
        .pure trivial) before inside
    · obtain ⟨score, _, found⟩ := Option.bind_eq_some_iff.mp isOption
      obtain ⟨old, oldValue, isContent⟩ := exists_option_of_optionHandle? found
      have changed : before.draft.model.Leaves bound
          (before.draft.model.modifyContent option fun _ =>
            .scoreOption name value) := by
        refine .modifyContent _ option ?_ ?_ ?_
        · intro content isOther
          rw [isContent] at isOther
          cases isOther
          refine Or.inr fun isMusic => ?_
          cases isMusic
        · intro content isOther
          rw [isContent] at isOther
          cases isOther
          rfl
        · intro content _ _
          exact ⟨rfl, rfl⟩
      exact ⟨aside_modifyContent changed, trivial⟩

/-! ## What stands before the music -/

section Heads

variable {before : Analysis} {handle : Handle}

/-- Whether an object of a given kind stands at a handle. -/
def HasKind (word : String) (handle : Handle) (state : Analysis) : Prop :=
  ∃ content, state.draft.model.content? handle = some content ∧
    content.name = word

theorem HasKind.leaves
    {word : String} {after : Analysis}
    (kind : HasKind word handle before) (leaves : before.Leaves bound after) :
    HasKind word handle after := by
  obtain ⟨content, found, named⟩ := kind
  obtain ⟨later, foundLater, same⟩ := leaves.model.names handle content found
  exact ⟨later, foundLater, same.trans named⟩

/-- A new object is one of its kind. -/
theorem aside_addObject
    (node : Node) (anchor : Option Handle) {content : Content}
    (plain : content.IsPlain) (before : Analysis) :
    Ensures (addObject node anchor content) before fun handle after =>
      before.Aside before.draft.model.size after ∧
        HasKind content.name handle after := by
  have isNew := before.draft.addObject_fst node.id? node.location anchor content
  refine ⟨(leaving_addObject node anchor plain before (Nat.le_refl _)).1, content,
    ?_, rfl⟩
  show (before.draft.addObject node.id? node.location anchor
    content).2.model.content? (before.draft.addObject node.id? node.location
      anchor content).1 = some content
  rw [isNew, Draft.content?_addObject_eq, if_pos rfl]

/-- The object of an element beside the music is replaced by one of its kind. -/
theorem aside_replaceContent
    {new : Content} (plain : new.IsPlain)
    (kind : HasKind new.name handle before) :
    Ensures (modifyModel fun model =>
        model.modifyContent handle fun _ => new) before
      fun _ after => before.Aside bound after := by
  obtain ⟨old, isOld, named⟩ := kind
  have noMusic : ¬ old.isMusic := by
    intro isMusic
    have stillMusic := Content.isMusic_of_name named.symm isMusic
    rw [Content.isMusic, plain.members?, plain.noteRest?] at stillMusic
    cases stillMusic
  have replaced : before.draft.model.Leaves bound
      (before.draft.model.modifyContent handle fun _ => new) := by
    refine .modifyContent _ handle ?_ ?_ fun _ _ _ => plain.isFresh
    · intro content found
      rw [isOld] at found
      cases found
      exact Or.inr noMusic
    · intro content found
      rw [isOld] at found
      cases found
      exact named.symm
  exact aside_modifyContent replaced

theorem leaving_optionalText
    (kind : ElementKind) (handle : Handle) (children : List Node) :
    Leaving bound (optionalText kind handle children)
      fun result => result.2 <:+ children := by
  have takes := takes_take? kind children
  rw [optionalText]
  generalize take? kind children = taken at takes ⊢
  rcases taken with ⟨_ | node, rest⟩
  · exact .pure takes.suffix
  · refine (leaving_analyseText node).bind fun result _ => ?_
    exact .read reads_model fun model _ => .pure takes.suffix

/-- What stands before the music data of an instrument leaves the music alone. -/
theorem aside_instrumentHead
    (children : List Node) (kind : HasKind "instrument" handle before)
    (inside : bound ≤ before.draft.model.size) :
    Ensures (instrumentHead handle children) before fun rest after =>
      before.Aside bound after ∧ rest <:+ children := by
  rw [instrumentHead]
  apply Ensures.bind (leaving_optionalText .instrumentName handle children before
    inside)
  rintro ⟨name, rest⟩ first ⟨toFirst, named⟩
  apply Ensures.bind (leaving_optionalText .abbreviation handle rest first
    (toFirst.inside inside))
  rintro ⟨abbreviation, rest⟩ second ⟨toSecond, abbreviated⟩
  dsimp only at named abbreviated ⊢
  have takes := takes_take? .staves rest
  generalize take? .staves rest = taken at takes ⊢
  rcases taken with ⟨staves, left⟩
  apply Ensures.bind (reads_analyseOptional reads_analyseStaves staves second)
  rintro _ third ⟨toThird, _⟩
  apply Ensures.bind (reads_context third)
  rintro context fourth ⟨toFourth, _⟩
  have aside := toFirst.trans (toSecond.trans
    (.of_agrees (toThird.trans toFourth)))
  have replaced : Ensures (modifyModel fun model =>
      model.modifyContent handle fun _ =>
        .instrument name abbreviation context.staves) fourth
      fun _ after => fourth.Aside bound after :=
    aside_replaceContent ⟨rfl, rfl⟩ (kind.leaves aside.toLeaves)
  apply replaced.bind
  intro _ last toLast
  exact ⟨aside.trans toLast, takes.suffix.trans (abbreviated.trans named)⟩

theorem leaving_leadingTitles (children : List Node) :
    Leaving bound (leadingTitles handle children)
      fun rest => rest <:+ children := by
  induction children with
  | nil => exact .pure (List.suffix_refl _)
  | cons child rest induction =>
      rw [leadingTitles]
      split
      · refine (leaving_analyseTitle child).discard.bind fun _ _ => ?_
        exact Leaving.mono induction fun _ suffix =>
          suffix.trans (List.suffix_cons child rest)
      · exact .pure (List.suffix_refl _)

theorem leaving_leadingOptions (children : List Node) :
    Leaving bound (leadingOptions handle children)
      fun rest => rest <:+ children := by
  induction children with
  | nil => exact .pure (List.suffix_refl _)
  | cons child rest induction =>
      rw [leadingOptions]
      split
      · refine (leaving_analyseOption child).discard.bind fun _ _ => ?_
        exact Leaving.mono induction fun _ suffix =>
          suffix.trans (List.suffix_cons child rest)
      · exact .pure (List.suffix_refl _)

/-- What stands before the instruments of a score leaves the music alone. -/
theorem aside_scoreHead
    (node : Node) (kind : HasKind "score" handle before)
    (inside : bound ≤ before.draft.model.size) :
    Ensures (scoreHead node handle) before fun rest after =>
      before.Aside bound after ∧ rest <:+ node.children := by
  rw [scoreHead]
  apply Ensures.bind (quiet_mandatory node .version node.children before)
  rintro ⟨version, rest⟩ first ⟨toFirst, versioned⟩
  apply Ensures.bind (reads_analyseOptional reads_analyseVersion version first)
  rintro _ second ⟨toSecond, _⟩
  apply Ensures.bind (reads_context second)
  rintro context third ⟨toThird, _⟩
  have agrees := toFirst.trans (toSecond.trans toThird)
  have aside : before.Aside bound third := .of_agrees agrees
  have suffix := versioned.suffix
  dsimp only at suffix ⊢
  have language := takes_take? .language rest
  generalize take? .language rest = taken at language ⊢
  rcases taken with ⟨languageNode, left⟩
  have replaced : Ensures (modifyModel fun model =>
      model.modifyContent handle fun _ =>
        .score (versionText context.version) (languageNode.map firstText)) third
      fun _ after => third.Aside bound after :=
    aside_replaceContent ⟨rfl, rfl⟩ (kind.leaves aside.toLeaves)
  apply replaced.bind
  intro _ fourth toFourth
  have aside := aside.trans toFourth
  apply Ensures.bind (leaving_leadingTitles left fourth (aside.inside inside))
  rintro titled fifth ⟨toFifth, titles⟩
  have aside := aside.trans toFifth
  have cursor := takes_take? .cursor titled
  generalize take? .cursor titled = taken at cursor ⊢
  rcases taken with ⟨cursorNode, others⟩
  have obsolete : ∀ child : Node,
      Reads (report child.location .obsoleteCursor) :=
    fun child => reads_report _ (by simp)
  apply Ensures.bind (reads_analyseOptional obsolete cursorNode fifth)
  rintro _ sixth ⟨toSixth, _⟩
  have aside := aside.trans (.of_agrees toSixth)
  apply Ensures.mono (leaving_leadingOptions others sixth (aside.inside inside))
  rintro optioned last ⟨toLast, options⟩
  exact ⟨aside.trans toLast, options.trans (cursor.suffix.trans
    (titles.trans (language.suffix.trans suffix)))⟩

end Heads

/-! ## The elements of notes and rests -/

section NoteRest

variable {handle : Handle} {flavor : Flavor}

theorem leaving_placeInVoice (outside : bound ≤ handle) :
    LeavingAll bound (placeInVoice handle) := by
  rw [placeInVoice]
  exact .read reads_context fun _ _ => leaving_modifyNoteRest outside _

theorem leaving_voiceProperty (outside : bound ≤ handle) (property : Node) :
    LeavingAll bound (voiceProperty handle property) := by
  have placed : ∀ voice, LeavingAll bound (do
      modifyContext fun context => { context with voice := voice }
      modifyModel fun model =>
        model.modifyNoteRest handle fun it => { it with voice := voice }) :=
    fun voice => .read (reads_modifyContext fun _ => rfl) fun _ _ =>
      leaving_modifyNoteRest outside _
  rw [voiceProperty]
  refine .read reads_context fun context _ => ?_
  refine .read (reads_propertyValue _ _) fun value _ => ?_
  cases value with
  | none => exact placed context.voice
  | some number => exact .read (reads_numberValue _ _) fun voice _ => placed voice

theorem leaving_stemProperty (outside : bound ≤ handle) (property : Node) :
    LeavingAll bound (stemProperty handle property) := by
  rw [stemProperty]
  exact .read (reads_stemValue _) fun stem _ =>
    leaving_modifyContent outside (.stem stem)

/-- Options that only notes have keep descriptors those of the note. -/
theorem leaving_noteOptions
    (outside : bound ≤ handle) (isNote : flavor ≠ .rest)
    {decorations : Decorations} (areOf : decorations.AreOf flavor handle)
    (children : List Node) :
    Leaving bound (noteOptions handle decorations children)
      fun result => result.1.AreOf flavor handle := by
  induction children generalizing decorations with
  | nil => exact .pure areOf
  | cons child rest induction =>
      rw [noteOptions]
      split
      · exact .read (quiet_analyseTie child _) fun point own =>
          induction (areOf.withTie own)
      · exact .read (quiet_analyseSlur child _) fun point own =>
          induction (areOf.withSlur own isNote)
      · exact (leaving_stemProperty outside child).bind fun _ _ =>
          induction areOf
      · exact (leaving_analyseLyric child).bind fun _ _ => induction areOf
      · exact .pure areOf

/-- Options of notes and rests keep descriptors those of the note or rest. -/
theorem leaving_noteRestOptions
    (outside : bound ≤ handle) {decorations : Decorations}
    (areOf : decorations.AreOf flavor handle) (children : List Node) :
    Leaving bound (noteRestOptions handle decorations children)
      fun result => result.1.AreOf flavor handle := by
  induction children generalizing decorations with
  | nil => exact .pure areOf
  | cons child rest induction =>
      rw [noteRestOptions]
      split
      · exact .read (quiet_analyseTuplet child _) fun point own =>
          induction (areOf.withTuplet own)
      · refine .read (reads_analyseTimeModification child)
          fun modification _ => induction ?_
        exact ⟨areOf.tie, areOf.slur, areOf.beam, areOf.tuplet,
          areOf.onlyNotes⟩
      · exact .read (quiet_analyseBeam child _) fun point own =>
          induction (areOf.withBeam own)
      · exact (leaving_voiceProperty outside child).bind fun _ _ =>
          induction areOf
      · exact .pure areOf

theorem leaving_readOptions
    (outside : bound ≤ handle) {decorations : Decorations}
    (areOf : decorations.AreOf flavor handle) (children : List Node) :
    Leaving bound (readOptions flavor handle decorations children)
      fun result => result.1.AreOf flavor handle := by
  have both : flavor ≠ .rest →
      Leaving bound (do
        let result ← noteOptions handle decorations children
        noteRestOptions handle result.1 result.2)
        fun result => result.1.AreOf flavor handle :=
    fun isNote => (leaving_noteOptions outside isNote areOf children).bind
      fun result areOfTaken => leaving_noteRestOptions outside areOfTaken result.2
  cases flavor with
  | rest => exact leaving_noteRestOptions outside areOf children
  | note => exact both (by simp)
  | chordNote => exact both (by simp)

theorem leaving_placeInTime
    (outside : bound ≤ handle) (base : Option Handle) (children : List Node) :
    LeavingAll bound (placeInTime handle base children) := by
  rw [placeInTime]
  refine .read reads_model fun model _ => ?_
  refine .read (quiet_staffOptions _ _) fun result _ => ?_
  refine .read reads_context fun context _ => ?_
  refine .read reads_model fun model _ => ?_
  exact (leaving_modifyNoteRest outside _).bind fun _ _ => .pure trivial

/-- What is known of a note or rest whose element has been read. -/
structure Introduced
    (flavor : Flavor) (before : Analysis)
    (result : Handle × NoteValue × Decorations) (after : Analysis) : Prop where
  leaves : before.Leaves before.draft.model.size after
  isNew : result.1 = before.draft.model.size
  isNote : flavor ≠ .rest → after.draft.model.IsNote result.1
  noRest : after.draft.model.IsNote result.1 → flavor ≠ .rest
  inside : result.1 < after.draft.model.size
  noteRests : after.draft.model.noteRests =
    before.draft.model.noteRests ++ [result.1]
  lastNote : after.context.lastNote = before.context.lastNote
  reports : before.draft.KeepsReports after.draft
  areOf : result.2.2.AreOf flavor result.1

/-- Reading the element of a note or rest leaves the music before it as it is. -/
theorem introduced_addNoteRest
    (node : Node) (anchor base : Option Handle) (before : Analysis) :
    Ensures (addNoteRest flavor node anchor base) before
      (Introduced flavor before) := by
  rw [addNoteRest]
  apply Ensures.bind (quiet_readPitch flavor node _ before)
  rintro ⟨pitch, rest⟩ first ⟨toFirst, _⟩
  apply Ensures.bind (quiet_readNoteValue node rest first)
  rintro ⟨value, rest⟩ second ⟨toSecond, _⟩
  have agrees := toFirst.trans toSecond
  have fresh := isFresh_noteRestContent flavor value pitch
  have sameSize : before.draft.model.size = second.draft.model.size := by
    rw [agrees.draft.model]
  let content := noteRestContent flavor value pitch
  have added : Ensures (addObject node anchor content) second
      fun handle third => second.Leaves before.draft.model.size third ∧
        handle = before.draft.model.size ∧
        third.draft.model.content? handle = some content ∧
        third.draft.model.noteRests =
          before.draft.model.noteRests ++ [handle] ∧
        third.context.lastNote = before.context.lastNote ∧
        second.draft.KeepsReports third.draft := by
    have isNew := second.draft.addObject_fst node.id? node.location anchor content
    have noteRests := second.draft.noteRests_addObject node.id? node.location
      anchor fresh
    rw [noteRest?_noteRestContent, if_pos rfl, agrees.draft.model] at noteRests
    refine ⟨⟨second.draft.leaves_addObject _ _ _ fresh
      (Nat.le_of_eq sameSize), rfl⟩, isNew.trans sameSize.symm, ?_, ?_,
      agrees.lastNote, second.draft.prefix_assignId node.id? node.location⟩
    · show (second.draft.addObject node.id? node.location anchor
        content).2.model.content? (second.draft.addObject node.id? node.location
          anchor content).1 = some content
      rw [isNew, Draft.content?_addObject_eq, if_pos rfl]
    · refine noteRests.trans ?_
      rw [← agrees.draft.model, ← isNew]
      rfl
  apply added.bind
  rintro handle third ⟨toThird, isNew, isContent, noteRests, lastNote, reports⟩
  have completed : Leaving handle (do
      let labels ← abbreviations flavor {} rest
      placeInVoice handle
      let options ← readOptions flavor handle labels.1 labels.2
      let rest ← placeInTime handle base options.2
      analyseEach (attachmentAnalyser? handle) rest
      return (handle, value, options.1))
      fun result => result.1 = handle ∧ result.2.2.AreOf flavor handle := by
    refine .read (quiet_abbreviations (Decorations.areOf_empty flavor handle) _)
      fun labels labelled => ?_
    refine (leaving_placeInVoice (Nat.le_refl handle)).bind fun _ _ => ?_
    refine (leaving_readOptions (Nat.le_refl handle) labelled.1 _).bind
      fun options areOf => ?_
    refine (leaving_placeInTime (Nat.le_refl handle) base _).bind
      fun rest _ => ?_
    refine (Leaving.analyseEach (fun _ _ node known =>
      leaving_attachment known node) _).bind fun _ _ => ?_
    exact .pure ⟨rfl, areOf⟩
  have inside := Model.lt_size_of_content? isContent
  apply Ensures.mono (completed third (Nat.le_of_lt inside))
  rintro ⟨own, decorated⟩ last ⟨aside, isOwn, areOf⟩
  obtain rfl : own = handle := isOwn
  obtain ⟨later, isLater, named⟩ := aside.model.names _ content isContent
  have whole : before.Leaves before.draft.model.size last := by
    rw [← isNew]
    rw [← isNew] at toThird
    exact (Analysis.Leaves.of_agrees agrees).trans (toThird.trans aside.toLeaves)
  have isNote_iff : last.draft.model.IsNote own ↔ content.note?.isSome := by
    rw [Model.IsNote, Model.note?, isLater, Option.bind_some,
      Content.note?_isSome_iff, named, ← Content.note?_isSome_iff]
  refine ⟨whole, isNew, fun flavored => ?_, fun isNote => ?_,
    Model.lt_size_of_content? isLater, aside.noteRests.trans noteRests,
    aside.lastNote.trans lastNote,
    .trans agrees.draft.reports (reports.trans aside.reports), areOf⟩
  · exact isNote_iff.mpr (note?_noteRestContent flavored value pitch)
  · rintro rfl
    cases isNote_iff.mp isNote

end NoteRest

end Analyser

end LdpScore
