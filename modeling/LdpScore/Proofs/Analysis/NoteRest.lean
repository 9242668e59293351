import LdpScore.Proofs.Analysis.Attachment

/-!
# Notes and rests

A note or rest is first added with all that its element says, which only edits
the score.  Then its relations are settled one after the other: each of them joins
notes and rests that wait, or the new one, and nothing else.
-/

namespace LdpScore.Analyser

variable {before : Analysis} {anchor : Option Handle}
variable {flavor : Flavor} {handle : Handle}

/-! ## Adding a note or rest -/

namespace Decorations.AreOf

variable {decorations : Decorations}

theorem withTie
    (areOf : decorations.AreOf flavor handle) {point : Option TiePoint}
    (own : ∀ given, point = some given → some handle = some given.note) :
    Decorations.AreOf { decorations with tie := point <|> decorations.tie }
      flavor handle := by
  constructor
  · cases point with
    | none => exact areOf.tie
    | some given =>
        rintro other ⟨⟩
        exact (Option.some.inj (own given rfl)).symm
  · exact areOf.slur
  · exact areOf.beam
  · exact areOf.tuplet
  · exact areOf.onlyNotes

theorem withSlur
    (areOf : decorations.AreOf flavor handle) {point : Option SlurPoint}
    (own : ∀ given, point = some given → some handle = some given.note)
    (isNote : flavor ≠ .rest) :
    Decorations.AreOf { decorations with slur := point <|> decorations.slur }
      flavor handle := by
  refine ⟨areOf.tie, ?_, areOf.beam, areOf.tuplet,
    fun isRest => absurd isRest isNote⟩
  cases point with
  | none => exact areOf.slur
  | some given =>
      rintro other ⟨⟩
      exact (Option.some.inj (own given rfl)).symm

theorem withBeam
    (areOf : decorations.AreOf flavor handle) {point : Option BeamPoint}
    (own : ∀ given, point = some given → some handle = some given.noteRest) :
    Decorations.AreOf { decorations with beam := point <|> decorations.beam }
      flavor handle := by
  constructor
  · exact areOf.tie
  · exact areOf.slur
  · cases point with
    | none => exact areOf.beam
    | some given =>
        rintro other ⟨⟩
        exact (Option.some.inj (own given rfl)).symm
  · exact areOf.tuplet
  · exact areOf.onlyNotes

theorem withTuplet
    (areOf : decorations.AreOf flavor handle) {point : Option TupletPoint}
    (own : ∀ given, point = some given → some handle = some given.noteRest) :
    Decorations.AreOf
      { decorations with tuplet := point <|> decorations.tuplet }
      flavor handle := by
  constructor
  · exact areOf.tie
  · exact areOf.slur
  · exact areOf.beam
  · cases point with
    | none => exact areOf.tuplet
    | some given =>
        rintro other ⟨⟩
        exact (Option.some.inj (own given rfl)).symm
  · exact areOf.onlyNotes

end Decorations.AreOf

theorem edits_placeInVoice (handle : Handle) (before : Analysis) :
    EditsFrom [] (placeInVoice handle) before := by
  rw [placeInVoice]
  exact .read reads_context fun _ middle _ _ =>
    edits_modifyNoteRest handle middle (fun _ => rfl) fun _ => rfl

theorem edits_voiceProperty
    (handle : Handle) (property : Node) (before : Analysis) :
    EditsFrom [] (voiceProperty handle property) before := by
  rw [voiceProperty]
  refine .read reads_context fun context first _ _ => ?_
  refine .read (reads_propertyValue _ _) fun value second _ _ => ?_
  cases value with
  | none =>
      have current : Reads (Pure.pure context.voice) := .pure trivial
      refine .read current fun voice third _ _ => ?_
      refine .read (reads_modifyContext fun _ => rfl) fun _ last _ _ => ?_
      exact edits_modifyNoteRest handle last (fun _ => rfl) fun _ => rfl
  | some number =>
      refine .read (reads_numberValue _ _) fun voice third _ _ => ?_
      refine .read (reads_modifyContext fun _ => rfl) fun _ last _ _ => ?_
      exact edits_modifyNoteRest handle last (fun _ => rfl) fun _ => rfl

theorem edits_stemProperty
    (handle : Handle) (property : Node) (before : Analysis) :
    EditsFrom [] (stemProperty handle property) before := by
  rw [stemProperty]
  refine .read (reads_stemValue _) fun stem middle _ _ => ?_
  refine edits_modifyModel handle _ middle
    (fun content _ => .stem stem content) fun content _ => ?_
  refine .mapNote ?_ content
  exact fun _ => rfl

/-- Options that only notes have keep descriptors those of the note. -/
theorem edits_noteOptions
    (isNote : flavor ≠ .rest) {decorations : Decorations}
    (areOf : decorations.AreOf flavor handle) (children : List Node)
    (inside : handle < before.draft.model.size) :
    EditsPart Prod.snd children (noteOptions handle decorations children)
      before fun result _ => result.1.AreOf flavor handle := by
  induction children generalizing decorations before with
  | nil => exact .stop rfl areOf
  | cons child rest induction =>
      have stays : ∀ {after : Analysis}, before.Agrees after →
          handle < after.draft.model.size :=
        fun agrees => agrees.hasAnchor (Model.hasAnchor_some inside) handle rfl
      rw [noteOptions]
      split
      · refine .skip (quiet_analyseTie child _)
          fun point middle agrees own => ?_
        exact induction (areOf.withTie own) (stays agrees)
      · refine .skip (quiet_analyseSlur child _)
          fun point middle agrees own => ?_
        exact induction (areOf.withSlur own isNote) (stays agrees)
      · refine .cons ((edits_stemProperty handle child before).among
          (List.nil_sublist _)) fun _ middle edits _ => ?_
        exact induction areOf (Nat.lt_of_lt_of_le inside edits.size_le)
      · rename_i isLyric
        refine .cons (addsAtMostOne_analyseLyric (beq_iff_eq.mpr isLyric)
          (Model.hasAnchor_some inside)) fun _ middle edits _ => ?_
        exact induction areOf (Nat.lt_of_lt_of_le inside edits.size_le)
      · exact .stop rfl areOf

/-- Options of notes and rests keep descriptors those of the note or rest. -/
theorem edits_noteRestOptions
    {decorations : Decorations} (areOf : decorations.AreOf flavor handle)
    (children : List Node) (before : Analysis) :
    EditsPart Prod.snd children
      (noteRestOptions handle decorations children) before
      fun result _ => result.1.AreOf flavor handle := by
  induction children generalizing decorations before with
  | nil => exact .stop rfl areOf
  | cons child rest induction =>
      rw [noteRestOptions]
      split
      · refine .skip (quiet_analyseTuplet child _) fun point middle _ own => ?_
        exact induction (areOf.withTuplet own) middle
      · refine .skip (reads_analyseTimeModification child)
          fun modification middle _ _ => ?_
        refine induction ?_ middle
        exact ⟨areOf.tie, areOf.slur, areOf.beam, areOf.tuplet,
          areOf.onlyNotes⟩
      · refine .skip (quiet_analyseBeam child _) fun point middle _ own => ?_
        exact induction (areOf.withBeam own) middle
      · refine .cons ((edits_voiceProperty handle child before).among
          (List.nil_sublist _)) fun _ middle _ _ => ?_
        exact induction areOf middle
      · exact .stop rfl areOf

/-- The options of a note come before those that it shares with rests. -/
theorem edits_readOptions
    {decorations : Decorations} (areOf : decorations.AreOf flavor handle)
    (children : List Node) (inside : handle < before.draft.model.size) :
    EditsPart Prod.snd children
      (readOptions flavor handle decorations children) before
      fun result _ => result.1.AreOf flavor handle := by
  have both : flavor ≠ .rest →
      EditsPart Prod.snd children (do
        let result ← noteOptions handle decorations children
        noteRestOptions handle result.1 result.2) before
        fun result _ => result.1.AreOf flavor handle := by
    intro isNote
    refine .follow (edits_noteOptions isNote areOf children inside)
      fun result middle _ _ areOfTaken => ?_
    exact edits_noteRestOptions areOfTaken result.2 middle
  cases flavor with
  | rest => exact edits_noteRestOptions areOf children before
  | note => exact both (by simp)
  | chordNote => exact both (by simp)

theorem edits_placeInTime
    (handle : Handle) (base : Option Handle) (children : List Node)
    (before : Analysis) :
    EditsWith [] (placeInTime handle base children) before
      fun rest _ => rest <:+ children := by
  rw [placeInTime]
  refine .read reads_model fun model first _ _ => ?_
  refine .read (quiet_staffOptions _ _) fun result second _ suffix => ?_
  refine .read reads_context fun context third _ _ => ?_
  refine .read reads_model fun model fourth _ _ => ?_
  refine .seq (edits_modifyNoteRest handle fourth (fun _ => rfl) fun _ => rfl)
    fun _ last _ _ => ?_
  exact .pure suffix

/-- What is known of a note or rest that was added. -/
structure AddedNoteRest
    (flavor : Flavor) (anchor : Option Handle) (before : Analysis)
    (result : Handle × NoteValue × Decorations) (after : Analysis) :
    Prop where
  isNew : result.1 = before.draft.model.size
  isNote : flavor ≠ .rest → after.draft.model.IsNote result.1
  isNoteRest : after.draft.model.IsNoteRest result.1
  under : after.draft.model.IsUnder anchor result.1
  areOf : result.2.2.AreOf flavor result.1

theorem isFresh_noteRestContent
    (flavor : Flavor) (value : NoteValue) (pitch : Option Pitch) :
    (noteRestContent flavor value pitch).IsFresh := by
  cases flavor <;> exact ⟨rfl, rfl⟩

theorem note?_noteRestContent
    (isNote : flavor ≠ .rest) (value : NoteValue) (pitch : Option Pitch) :
    (noteRestContent flavor value pitch).note?.isSome := by
  cases flavor with
  | rest => exact absurd rfl isNote
  | note => rfl
  | chordNote => rfl

theorem noteRest?_noteRestContent
    (flavor : Flavor) (value : NoteValue) (pitch : Option Pitch) :
    (noteRestContent flavor value pitch).noteRest?.isSome := by
  cases flavor <;> rfl

/-- A note or rest is introduced: its object is added, and apart from that the
score is only edited. -/
structure Introduces
    (flavor : Flavor) (anchor : Option Handle) (node : Node)
    (before after : Analysis) : Prop where
  builds : ∀ scope, Builds node.nodes scope scope before after
  model : Model.Extends before.draft.model after.draft.model
  lastNote : after.context.lastNote = before.context.lastNote
  parts : ∃ value pitch middle, before.Agrees middle ∧
    Analysis.Amends
      { middle with
        draft := (middle.draft.addObject node.id? node.location anchor
          (noteRestContent flavor value pitch)).2 } after

theorem Introduces.pending
    {node : Node} {after : Analysis}
    (introduces : Introduces flavor anchor node before after) :
    after.pending = before.pending := by
  obtain ⟨value, pitch, middle, agrees, amends⟩ := introduces.parts
  exact amends.pending.trans agrees.pending

/-- Adding a note or rest introduces it, and the descriptors are its own. -/
theorem introduces_addNoteRest
    (node : Node) (base : Option Handle)
    (isFrom : ∀ value pitch, (noteRestContent flavor value pitch).isFrom node)
    (anchored : before.draft.model.HasAnchor anchor) :
    Ensures (addNoteRest flavor node anchor base) before fun result after =>
      Introduces flavor anchor node before after ∧
        AddedNoteRest flavor anchor before result after := by
  rw [addNoteRest]
  apply Ensures.bind (quiet_readPitch flavor node _ before)
  rintro ⟨pitch, rest⟩ first ⟨toFirst, pitched⟩
  apply Ensures.bind (quiet_readNoteValue node rest first)
  rintro ⟨value, rest⟩ second ⟨toSecond, valued⟩
  have agrees := toFirst.trans toSecond
  have anchored := agrees.hasAnchor anchored
  have isFresh := isFresh_noteRestContent flavor value pitch
  -- The object of the note or rest is the only one that is not plain.
  apply Ensures.bind (Ensures.exactly (added_addObject node
    (noteRestContent flavor value pitch) anchored))
  rintro handle third ⟨wasAdded, added⟩
  have isThird : third =
      { second with
        draft := (second.draft.addObject node.id? node.location anchor
          (noteRestContent flavor value pitch)).2 } :=
    (congrArg Prod.snd wasAdded).symm
  have isNew : handle = before.draft.model.size := by
    rw [added.isNew, agrees.draft.model]
  have isNote : flavor ≠ .rest → third.draft.model.IsNote handle := by
    intro isNote
    rw [Model.IsNote, Model.note?, added.content]
    exact note?_noteRestContent isNote value pitch
  have isNoteRest : third.draft.model.IsNoteRest handle := by
    rw [Model.IsNoteRest, Model.noteRest?, added.content]
    exact noteRest?_noteRestContent flavor value pitch
  have completed : EditsWith (nodesOf node.children) (do
      let labels ← abbreviations flavor {} rest
      placeInVoice handle
      let options ← readOptions flavor handle labels.1 labels.2
      let rest ← placeInTime handle base options.2
      analyseEach (attachmentAnalyser? handle) rest
      return (handle, value, options.1)) third
      (AddedNoteRest flavor anchor before) := by
    refine .read
      (quiet_abbreviations (Decorations.areOf_empty flavor handle) rest)
      fun result fourth toFourth labelled => ?_
    rcases result with ⟨decorations, rest⟩
    refine Traces.among ?_
      (nodesOf_sublist (labelled.2.trans (valued.trans pitched)))
    refine .seq (edits_placeInVoice handle fourth) fun _ fifth toFifth _ => ?_
    have insideFifth : handle < fifth.draft.model.size := by
      apply Nat.lt_of_lt_of_le added.lt_size
      rw [← toFourth.draft.model]
      exact toFifth.size_le
    refine (edits_readOptions labelled.1 rest insideFifth).bind
      fun result sixth _ toSixth _ areOf => ?_
    rcases result with ⟨decorations, rest⟩
    refine .seq (edits_placeInTime handle base rest sixth)
      fun rest seventh toSeventh suffix => ?_
    refine Traces.among ?_ (nodesOf_sublist suffix)
    have persists : third.draft.model.Persists seventh.draft.model := by
      rw [← toFourth.draft.model]
      exact (toFifth.model.persists.trans toSixth.model.persists).trans
        toSeventh.model.persists
    have insideSeventh : handle < seventh.draft.model.size :=
      Nat.lt_of_lt_of_le added.lt_size persists.size_le
    rw [← List.append_nil (nodesOf _)]
    refine Traces.bind (edits_analyseEach
      (fun kind analyser child state => edits_attachment) rest insideSeventh)
      fun _ last toLast _ => ?_
    have persistsLast := persists.trans toLast.model.persists
    exact .pure ⟨isNew, fun flavored => persistsLast.isNote (isNote flavored),
      persistsLast.isNoteRest isNoteRest, persistsLast.isUnder added.under,
      areOf⟩
  apply Ensures.mono completed
  rintro result last ⟨edits, addedNoteRest⟩
  refine ⟨⟨fun scope => ?_, ?_, ?_, value, pitch, second, agrees, ?_⟩,
    addedNoteRest⟩
  · have element := Builds.element scope node anchored isFresh
      (isFrom value pitch)
    rw [← isThird] at element
    rw [Node.nodes_eq]
    exact ((Builds.of_agrees scope agrees).trans element).trans
      (edits.builds scope)
  · rw [← agrees.draft.model]
    refine Model.Extends.trans ?_ edits.model
    rw [isThird]
    exact .addObject _ _ _ anchored isFresh
  · rw [edits.lastNote, isThird]
    exact agrees.lastNote
  · rw [← isThird]
    exact edits.amends

end LdpScore.Analyser
