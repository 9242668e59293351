import LdpScore.Proofs.Analysis.Adjusting
import LdpScore.Proofs.Invariant.Harmony

/-!
# How notes sound together

A chord note takes its onset from the last note.  Between that and the moment when it
joins the chord of that note its element is read and its relations are settled.  None
of this moves a note that is there, nor the last note itself, so that the two still
start together in the end.
-/

namespace LdpScore

open Analyser

namespace Content

/-- A note or rest is placed in time. -/
theorem onset?_mapNoteRest
    {content : Content} {change : NoteRest → NoteRest} {onset : Float}
    (isNoteRest : content.noteRest?.isSome)
    (placed : ∀ noteRest, (change noteRest).onset = onset) :
    (content.mapNoteRest change).onset? = some onset := by
  cases content <;> simp_all [mapNoteRest, onset?, noteRest?]

end Content

namespace Model

theorem onset?_eq_map (model : Model) (handle : Handle) :
    model.onset? handle = (model.noteRest? handle).map NoteRest.onset := by
  rw [onset?, noteRest?, Option.map_bind]
  rfl

theorem IsNote.isNoteRest
    {model : Model} {handle : Handle} (isNote : model.IsNote handle) :
    model.IsNoteRest handle := by
  obtain ⟨own, found⟩ := Option.isSome_iff_exists.mp isNote
  obtain ⟨content, isContent, ofContent⟩ := Option.bind_eq_some_iff.mp found
  rw [IsNoteRest, noteRest?, isContent, Option.bind_some,
    Content.noteRest?_of_note? ofContent]
  rfl

theorem exists_content?_of_isNoteRest
    {model : Model} {handle : Handle} (isNoteRest : model.IsNoteRest handle) :
    ∃ content, model.content? handle = some content ∧
      content.noteRest?.isSome := by
  obtain ⟨own, found⟩ := Option.isSome_iff_exists.mp isNoteRest
  obtain ⟨content, isContent, ofContent⟩ := Option.bind_eq_some_iff.mp found
  exact ⟨content, isContent, by rw [ofContent]; rfl⟩

end Model

namespace Analyser

variable {before : Analysis}

/-! ## Relations keep the place -/

theorem adjusts_settleTies (note : Handle) (decorations : Decorations) :
    Adjusts (settleTies note decorations) := by
  have legacy : Adjusts (settleLegacyTie decorations.legacyTie note) :=
    fun _ => rfl
  rw [settleTies]
  refine legacy.bind fun _ => ?_
  split
  · exact fun _ => rfl
  · exact adjusts_pure ()

theorem adjusts_applyModification
    (noteRest : Handle) (modification : Option TimeModification) :
    Adjusts (applyModification noteRest modification) := by
  cases modification with
  | none => exact adjusts_pure ()
  | some modification => exact fun _ => rfl

theorem adjusts_settleLegacyTuplet (label : Node) (noteRest : Handle) :
    Adjusts (settleLegacyTuplet label noteRest) := by
  have read : Adjusts pending := fun _ => rfl
  rw [settleLegacyTuplet]
  dsimp only
  split
  · exact fun _ => rfl
  · split
    · exact fun _ => rfl
    · refine read.bind fun waiting => ?_
      split
      · exact fun _ => rfl
      · exact fun _ => rfl

theorem adjusts_settleTuplets
    (point : Option TupletPoint) (noteRest : Handle) (node : Node) :
    Adjusts (settleTuplets point noteRest node) := by
  unfold settleTuplets
  split
  · split
    · exact fun _ => rfl
    · exact fun _ => rfl
  · exact fun _ => rfl

theorem adjusts_tupletFactor
    (decorations : Decorations) (noteRest : Handle) (node : Node) :
    Adjusts (tupletFactor decorations noteRest node) := by
  rw [tupletFactor]
  split
  · exact adjusts_settleLegacyTuplet _ noteRest
  · exact adjusts_settleTuplets _ noteRest node

theorem adjusts_settleBeams
    (decorations : Decorations) (noteRest : Handle) (type : NoteType)
    (node : Node) :
    Adjusts (settleBeams decorations noteRest type node) := by
  have read : Adjusts pending := fun _ => rfl
  have legacy :
      Adjusts (settleLegacyBeam decorations noteRest type node) := by
    refine read.bind fun waiting => ?_
    dsimp only
    split
    · split
      · split
        · exact fun _ => rfl
        · split
          · exact fun _ => rfl
          · exact fun _ => rfl
      · split
        · exact fun _ => rfl
        · exact fun _ => rfl
      · exact fun _ => rfl
    · split
      · exact fun _ => rfl
      · exact fun _ => rfl
  rw [settleBeams]
  refine legacy.bind fun _ => ?_
  split
  · exact fun _ => rfl
  · exact adjusts_pure ()

theorem adjusts_settleSlur (decorations : Decorations) :
    Adjusts (settleSlur decorations) := by
  rw [settleSlur]
  split
  · exact fun _ => rfl
  · exact adjusts_pure ()

/-- Settling relations leaves the place in the music as it is. -/
theorem adjusts_settleRelations
    (flavor : Flavor) (node : Node) (noteRest : Handle) (type : NoteType)
    (decorations : Decorations) :
    Adjusts (settleRelations flavor node noteRest type decorations) := by
  have others : Adjusts (do
      applyModification noteRest decorations.timeModification
      let factor ← tupletFactor decorations noteRest node
      settleBeams decorations noteRest type node
      settleSlur decorations
      return factor) := by
    refine (adjusts_applyModification noteRest _).bind fun _ => ?_
    refine (adjusts_tupletFactor decorations noteRest node).bind fun factor => ?_
    refine (adjusts_settleBeams decorations noteRest type node).bind fun _ => ?_
    exact (adjusts_settleSlur decorations).bind fun _ => adjusts_pure factor
  rw [settleRelations]
  split
  · exact (adjusts_settleTies noteRest decorations).bind fun _ => others
  · exact others

/-! ## Relations keep the chords -/

/-- All that a note or rest joins at its turns leaves the notes, the rests and the
chords as they are. -/
theorem endures_action
    (note : Written) (value : NoteValue) (decorations : Decorations)
    (turn : Turn) :
    Ensures (turn.action note value decorations) before fun _ after =>
      before.draft.model.Endures after.draft.model := by
  by_cases isChord : turn = .chord
  · subst isChord
    exact .refl _
  · refine .of_adds (adds_action turn) ?_ ?_
    · cases turn <;> simp_all [Turn.word]
    · cases turn <;> simp [Turn.word]

theorem endures_settleRelations
    (note : Written) (value : NoteValue) (decorations : Decorations) :
    Ensures (settleRelations note.flavor note.node note.handle value.type
        decorations) before fun _ after =>
      before.draft.model.Endures after.draft.model :=
  turns_settleRelations value
    (fun _ state => before.draft.model.Endures state.draft.model)
    (fun turn _ endures =>
      Ensures.mono (endures_action note value decorations turn) fun _ _ later =>
        endures.trans later)
    (.refl _)

/-! ## When a chord note starts -/

/-- A note or rest is placed at the onset of the note it sounds with. -/
theorem onset_placeInTime
    {handle base : Handle} (children : List Node)
    (isNoteRest : before.draft.model.IsNoteRest handle)
    (baseIs : before.draft.model.IsNoteRest base) :
    Ensures (placeInTime handle (some base) children) before fun _ after =>
      after.draft.model.onset? handle = before.draft.model.onset? base := by
  rw [placeInTime]
  apply Ensures.readModel
  apply Ensures.bind (quiet_staffOptions _ _ before)
  rintro ⟨appearance, rest⟩ middle ⟨agrees, _⟩
  apply Ensures.readContext
  apply Ensures.readModel
  rw [← agrees.draft.model] at isNoteRest baseIs ⊢
  obtain ⟨start, isStart⟩ := Option.isSome_iff_exists.mp baseIs
  obtain ⟨own, found, ofContent⟩ := Model.exists_content?_of_isNoteRest isNoteRest
  show ((middle.draft.model.modifyContent handle (Content.mapNoteRest _)).content?
    handle).bind Content.onset? = _
  rw [Model.content?_modifyContent, found, Option.map_some, if_pos rfl,
    Option.bind_some, Model.onset?_eq_map, isStart]
  refine Content.onset?_mapNoteRest ofContent fun _ => ?_
  show (((some base).bind middle.draft.model.noteRest?).map
    NoteRest.onset).getD middle.context.onset = start.onset
  rw [Option.bind_some, isStart]
  rfl

/-- A chord note starts with the note before it. -/
theorem onset_addNoteRest
    (flavor : Flavor) (node : Node) (anchor : Option Handle) {base : Handle}
    (baseIs : before.draft.model.IsNoteRest base) :
    Ensures (addNoteRest flavor node anchor (some base)) before
      fun result after => after.draft.model.onset? result.1 =
        before.draft.model.onset? base := by
  rw [addNoteRest]
  apply Ensures.bind (quiet_readPitch flavor node _ before)
  rintro ⟨pitch, rest⟩ first ⟨toFirst, _⟩
  apply Ensures.bind (quiet_readNoteValue node rest first)
  rintro ⟨value, rest⟩ second ⟨toSecond, _⟩
  have agrees := toFirst.trans toSecond
  rw [← agrees.draft.model] at baseIs ⊢
  let content := noteRestContent flavor value pitch
  have added : Ensures (addObject node anchor content) second
      fun handle third => base < handle ∧
        third.draft.model.IsNoteRest handle ∧
        third.draft.model.content? base = second.draft.model.content? base := by
    have isNew := second.draft.addObject_fst node.id? node.location anchor content
    have isContent := second.draft.content?_addObject_eq node.id? node.location
      anchor content
    refine ⟨isNew ▸ baseIs.lt_size, ?_, ?_⟩
    · show (((second.draft.addObject node.id? node.location anchor
        content).2.model.content? (second.draft.addObject node.id? node.location
          anchor content).1).bind Content.noteRest?).isSome
      rw [isNew, isContent, if_pos rfl]
      exact noteRest?_noteRestContent flavor value pitch
    · exact (isContent base).trans (if_neg (Nat.ne_of_lt baseIs.lt_size))
  apply added.bind
  rintro handle third ⟨older, isNoteRest, sameBase⟩
  have inside := Nat.le_of_lt isNoteRest.lt_size
  apply Ensures.bind (quiet_abbreviations (Decorations.areOf_empty flavor handle)
    rest third)
  rintro labels fourth ⟨toFourth, labelled, _⟩
  have aside : third.Aside handle fourth := .of_agrees toFourth
  apply Ensures.bind (leaving_placeInVoice (Nat.le_refl handle) fourth
    (aside.inside inside))
  rintro _ fifth ⟨toFifth, _⟩
  have aside := aside.trans toFifth
  apply Ensures.bind (leaving_readOptions (Nat.le_refl handle) labelled _ fifth
    (aside.inside inside))
  rintro options sixth ⟨toSixth, _⟩
  have aside := aside.trans toSixth
  have handleIs := (aside.model.names.isNoteRest_iff isNoteRest.lt_size).mpr
    isNoteRest
  have baseThird : third.draft.model.IsNoteRest base := by
    rw [Model.IsNoteRest, Model.noteRest?, sameBase]
    exact baseIs
  have baseSixth := (aside.model.names.isNoteRest_iff baseThird.lt_size).mpr
    baseThird
  have placed : Ensures (placeInTime handle (some base) options.2) sixth
      fun _ seventh => sixth.Aside handle seventh ∧
        seventh.draft.model.onset? handle = sixth.draft.model.onset? base :=
    ⟨(leaving_placeInTime (Nat.le_refl handle) (some base) options.2 sixth
      (aside.inside inside)).1, onset_placeInTime options.2 handleIs baseSixth⟩
  apply placed.bind
  rintro left seventh ⟨toSeventh, isPlaced⟩
  have handleThen := (toSeventh.model.names.isNoteRest_iff
    handleIs.lt_size).mpr handleIs
  -- What is attached stands after the note, and so leaves its onset as it is.
  have attached : LeavingAll (handle + 1)
      (analyseEach (attachmentAnalyser? handle) left) :=
    .analyseEach (fun _ _ node known => leaving_attachment known node) left
  apply Ensures.bind (attached seventh handleThen.lt_size)
  rintro _ last ⟨toLast, _⟩
  show last.draft.model.onset? handle = second.draft.model.onset? base
  rw [toLast.model.onset? (Nat.lt_succ_self handle), isPlaced,
    aside.model.onset? older, Model.onset?, sameBase, Model.onset?]

end Analyser

/-! ## Notes and rests -/

/-- What is known of a note or rest that has been played. -/
structure Sounds
    (flavor : Flavor) (before : Analysis) (handle : Handle) (after : Analysis) :
    Prop where
  harmonious : after.draft.model.Harmonious
  names : before.draft.model.KeepsNames after.draft.model
  links : ∀ note chord, before.draft.model.chord? note = some chord →
    after.draft.model.chord? note = some chord
  noteRests : after.draft.model.noteRests =
    before.draft.model.noteRests ++ [handle]
  isNote : after.draft.model.IsNote handle ↔ flavor ≠ .rest
  lastNote : after.context.lastNote =
    if flavor = .rest then before.context.lastNote else some handle
  joins : flavor = .chordNote → ∀ last, before.context.lastNote = some last →
    ∃ chord, after.draft.model.chord? last = some chord ∧
      after.draft.model.chord? handle = some chord

namespace Analyser

/-- What is known of a note or rest whose element has been read: it is in no chord,
and with the note that it sounds with it starts at the same time. -/
theorem starts_addNoteRest
    (flavor : Flavor) (node : Node) (anchor base : Option Handle)
    (isBase : ∀ last, base = some last → before.draft.model.IsNote last) :
    Ensures (addNoteRest flavor node anchor base) before fun result after =>
      Introduced flavor before result after ∧
      ∀ last, base = some last →
        after.draft.model.onset? result.1 = before.draft.model.onset? last := by
  refine ⟨introduced_addNoteRest node anchor base before, ?_⟩
  rintro last rfl
  exact onset_addNoteRest flavor node anchor (isBase last rfl).isNoteRest

/-- A note that starts with its base joins the chord of it, and where there is no
base only the place in the music changes. -/
theorem accords_joinOrAdvance
    {base : Option Handle} {handle : Handle} (duration : Float)
    (harmonious : before.draft.model.Harmonious)
    (single : before.draft.model.chord? handle = none)
    (together : ∀ last, base = some last → before.draft.model.IsNote last ∧
      before.draft.model.IsNote handle ∧
      before.draft.model.onset? handle = before.draft.model.onset? last) :
    Ensures (joinOrAdvance base handle duration) before fun _ after =>
      before.draft.model.Accords base handle after.draft.model ∧
        after.context.lastNote = before.context.lastNote := by
  cases base with
  | none =>
      refine ⟨⟨harmonious, .refl _, fun _ _ linked => linked, rfl, ?_⟩, rfl⟩
      intro last given
      cases given
  | some last =>
      obtain ⟨lastIs, handleIs, together⟩ := together last rfl
      exact ⟨accords_joinChord harmonious lastIs handleIs single together, rfl⟩

/-- Whatever is played leaves a model harmonious, and a chord note sounds with the
last note. -/
theorem sounds_analyseNoteRest
    (flavor : Flavor) (node : Node) (anchor : Option Handle)
    (harmonious : before.draft.model.Harmonious)
    (isLast : ∀ last, before.context.lastNote = some last →
      before.draft.model.IsNote last) :
    Ensures (analyseNoteRest flavor node anchor) before
      (Sounds flavor before) := by
  rw [analyseNoteRest]
  apply Ensures.readContext
  dsimp only
  generalize isBase : (if flavor = .chordNote then before.context.lastNote
    else none) = base
  have baseIs : ∀ last, base = some last →
      before.draft.model.IsNote last ∧ flavor = .chordNote := by
    rintro last rfl
    split at isBase
    · rename_i isChordNote
      exact ⟨isLast last isBase, isChordNote⟩
    · cases isBase
  apply Ensures.bind (starts_addNoteRest flavor node anchor base
    fun last given => (baseIs last given).1)
  rintro ⟨handle, value, decorations⟩ middle ⟨introduced, starts⟩
  have leaves := introduced.leaves.model
  have keeps : before.draft.model.KeepsHarmony middle.draft.model :=
    .of_leaves leaves
  have settled : Ensures
      (settleRelations flavor node handle value.type decorations) middle
      fun _ third => middle.draft.model.Endures third.draft.model ∧
        third.context = middle.context.withSettings third.context :=
    ⟨endures_settleRelations ⟨handle, flavor, node⟩ value decorations,
      adjusts_settleRelations flavor node handle value.type decorations middle⟩
  rw [settleNoteRest, bind_assoc]
  apply settled.bind
  rintro factor third ⟨endures, samePlace⟩
  have toThird := keeps.trans endures.toKeepsHarmony leaves.size_le
  have names := leaves.names.trans endures.names
  have thirdHarmonious := harmonious.keep toThird
  have noteRests := endures.noteRests.trans introduced.noteRests
  have lastNote : third.context.lastNote = before.context.lastNote :=
    (congrArg Context.lastNote samePlace).trans introduced.lastNote
  have isNote : third.draft.model.IsNote handle ↔ flavor ≠ .rest :=
    (endures.names.isNote_iff introduced.inside).trans
      ⟨introduced.noRest, introduced.isNote⟩
  have single : third.draft.model.chord? handle = none := by
    rw [Option.eq_none_iff_forall_ne_some]
    intro chord linked
    have inside := Model.lt_size_of_chord?
      ((toThird.links handle chord).mp linked)
    exact Nat.lt_irrefl _ (introduced.isNew ▸ inside)
  have joined := accords_joinOrAdvance (value.units *
    (decorations.timeModification.map TimeModification.ratio).getD factor)
    thirdHarmonious single fun last given => by
      obtain ⟨lastIs, isChordNote⟩ := baseIs last given
      refine ⟨names.isNote lastIs, isNote.mpr (by rw [isChordNote]; decide), ?_⟩
      rw [endures.onset? handle introduced.inside, starts last given,
        toThird.onset? last lastIs.lt_size]
  rw [bind_assoc]
  apply joined.bind
  rintro _ fourth ⟨accords, sameNote⟩
  have sounds : ∀ context : Context,
      context.lastNote = (if flavor = .rest then before.context.lastNote
        else some handle) →
      Sounds flavor before handle { fourth with context := context } := by
    intro context isLastNote
    refine ⟨accords.harmonious, names.trans accords.names,
      fun note chord linked => accords.links note chord
        ((toThird.links note chord).mpr linked),
      accords.noteRests.trans noteRests,
      (accords.names.isNote_iff ?_).trans isNote, isLastNote, ?_⟩
    · exact Nat.lt_of_lt_of_le introduced.inside endures.names.size_le
    · rintro rfl last given
      refine accords.together last ?_
      rw [← isBase, if_pos rfl]
      exact given
  by_cases isRest : flavor = .rest
  · rw [if_neg (not_not.mpr isRest)]
    exact sounds fourth.context (by rw [if_pos isRest, sameNote, lastNote])
  · rw [if_pos isRest]
    exact sounds { fourth.context with lastNote := some handle }
      (by rw [if_neg isRest])

end Analyser

end LdpScore
