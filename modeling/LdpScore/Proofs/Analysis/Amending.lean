import LdpScore.Proofs.Analysis.Quiet
import LdpScore.Proofs.Score.Retention

/-!
# What elements leave to the music

Reading, marks, texts and everything else that is neither a note nor a rest leaves
the music alone: what waits goes on waiting, no note finds or loses its chord, and
whatever was reported stays so.  `Analysis.Amends` relates the states before and
after such a part of an analysis.
-/

namespace LdpScore

namespace Content

theorem chord?_eq (content : Content) :
    content.chord? = content.links.chord := by
  cases content <;> rfl

theorem chord?_mapNoteRest
    (change : NoteRest → NoteRest) (content : Content) :
    (content.mapNoteRest change).chord? = content.chord? := by
  cases content <;> rfl

/-- Only a new chord is known to its notes as theirs. -/
theorem chord?_effectOn
    {content : Content} (noChord : content.name ≠ "chord")
    (relation handle : Handle) (old : Content) :
    (content.effectOn relation handle old).chord? = old.chord? := by
  unfold effectOn
  split
  · cases old <;> rfl
  · split
    · exact chord?_mapNoteRest _ old
    · rfl
  · exact absurd rfl noChord
  · rfl

end Content

namespace Model

/-- The chord that the note at a handle takes for its own. -/
def chord? (model : Model) (handle : Handle) : Option Handle :=
  (model.content? handle).bind Content.chord?

theorem chord?_eq_bind (model : Model) (handle : Handle) :
    model.chord? handle = (model.note? handle).bind Note.chord := by
  rw [chord?, note?, Option.bind_assoc]
  rfl

/-- No note finds a chord of its own. -/
def FindsNoChord (before after : Model) : Prop :=
  ∀ handle chord, after.chord? handle = some chord →
    before.chord? handle = some chord

theorem FindsNoChord.of_map
    {before after : Model} {change : Handle → Content → Content}
    (changed : ∀ handle,
      after.content? handle = (before.content? handle).map (change handle))
    (same : ∀ handle content, before.content? handle = some content →
      (change handle content).chord? = content.chord?) :
    FindsNoChord before after := by
  intro handle chord linked
  rw [chord?, changed handle] at linked
  rw [chord?]
  cases found : before.content? handle with
  | none =>
      rw [found] at linked
      cases linked
  | some content =>
      rw [found] at linked
      rw [Option.map_some, Option.bind_some, same handle content found]
        at linked
      exact linked

theorem FindsNoChord.of_add
    {before after : Model} (content : Content)
    (change : Handle → Content → Content)
    (added : ∀ handle, after.content? handle =
      if handle = before.size then some content
      else (before.content? handle).map (change handle))
    (same : ∀ handle old, before.content? handle = some old →
      (change handle old).chord? = old.chord?)
    (noChord : content.chord? = none) :
    FindsNoChord before after := by
  intro handle chord linked
  rw [chord?, added handle] at linked
  split at linked
  · rw [Option.bind_some, noChord] at linked
    cases linked
  · rw [chord?]
    cases found : before.content? handle with
    | none =>
        rw [found] at linked
        cases linked
    | some old =>
        rw [found, Option.map_some, Option.bind_some, same handle old found]
          at linked
        exact linked

/-- Every object keeps its kind, and nothing new is a note or rest. -/
structure KeepsKinds (before after : Model) : Prop where
  old : ∀ handle content, before.content? handle = some content →
    ∃ later, after.content? handle = some later ∧ later.name = content.name
  new : ∀ handle content, after.content? handle = some content →
    before.size ≤ handle → content.noteRest? = none

/-- Kinds are kept, and no note finds a chord. -/
structure KeepsNotes (before after : Model) : Prop
    extends KeepsKinds before after where
  chords : before.FindsNoChord after

theorem Spares.keepsKinds
    {before after : Model} (spares : before.Spares after) :
    before.KeepsKinds after := by
  refine ⟨fun handle content found => ?_, fun handle content found outside =>
    (spares.new handle content found outside).1⟩
  obtain ⟨later, foundLater, retains⟩ := spares.old handle content found
  exact ⟨later, foundLater, retains.name⟩

namespace KeepsKinds

variable {first middle last before after : Model}

/-- There are notes and rests where there were some before. -/
theorem isNoteRest_iff
    (keeps : KeepsKinds before after) (handle : Handle) :
    after.IsNoteRest handle ↔ before.IsNoteRest handle := by
  constructor
  · intro isNoteRest
    obtain ⟨content, found, isSome⟩ := isNoteRest.content
    have inside : handle < before.size := by
      apply Nat.lt_of_not_le
      intro outside
      rw [keeps.new handle content found outside] at isSome
      cases isSome
    obtain ⟨old, foundOld⟩ := exists_content?_of_lt_size inside
    obtain ⟨later, foundLater, named⟩ := keeps.old handle old foundOld
    rw [found] at foundLater
    cases foundLater
    rw [Content.noteRest?_isSome_iff, named,
      ← Content.noteRest?_isSome_iff] at isSome
    rw [IsNoteRest, noteRest?, foundOld]
    exact isSome
  · intro isNoteRest
    obtain ⟨content, found, isSome⟩ := isNoteRest.content
    obtain ⟨later, foundLater, named⟩ := keeps.old handle content found
    rw [Content.noteRest?_isSome_iff, ← named,
      ← Content.noteRest?_isSome_iff] at isSome
    rw [IsNoteRest, noteRest?, foundLater]
    exact isSome

theorem trans
    (earlier : KeepsKinds first middle) (later : KeepsKinds middle last) :
    KeepsKinds first last := by
  refine ⟨fun handle content found => ?_, fun handle content found outside =>
    ?_⟩
  · obtain ⟨between, foundBetween, named⟩ := earlier.old handle content found
    obtain ⟨final, foundFinal, namedToo⟩ :=
      later.old handle between foundBetween
    exact ⟨final, foundFinal, namedToo.trans named⟩
  · have noNoteRest : ¬ last.IsNoteRest handle := by
      rw [later.isNoteRest_iff, earlier.isNoteRest_iff]
      intro isNoteRest
      exact absurd isNoteRest.lt_size (Nat.not_lt.mpr outside)
    rw [IsNoteRest, noteRest?, found] at noNoteRest
    exact Option.not_isSome_iff_eq_none.mp noNoteRest

end KeepsKinds

namespace KeepsNotes

variable {first middle last before after : Model}

theorem of_spares
    (spares : before.Spares after) (chords : before.FindsNoChord after) :
    KeepsNotes before after :=
  ⟨spares.keepsKinds, chords⟩

theorem trans
    (earlier : KeepsNotes first middle) (later : KeepsNotes middle last) :
    KeepsNotes first last :=
  ⟨earlier.toKeepsKinds.trans later.toKeepsKinds,
    fun handle chord linked =>
      earlier.chords handle chord (later.chords handle chord linked)⟩

/-- Objects are changed in place. -/
theorem of_map
    {change : Handle → Content → Content}
    (changed : ∀ handle,
      after.content? handle = (before.content? handle).map (change handle))
    (named : ∀ handle content, (change handle content).name = content.name)
    (linked : ∀ handle content,
      (change handle content).chord? = content.chord?) :
    KeepsNotes before after := by
  refine ⟨⟨fun handle content found => ?_, fun handle content found outside =>
    ?_⟩, .of_map changed fun handle content _ => linked handle content⟩
  · refine ⟨change handle content, ?_, named handle content⟩
    rw [changed handle, found, Option.map_some]
  · rw [changed handle] at found
    obtain ⟨old, foundOld, _⟩ := Option.map_eq_some_iff.mp found
    exact absurd (lt_size_of_content? foundOld) (Nat.not_lt.mpr outside)

end KeepsNotes

end Model

/-- A new relation that is no chord keeps the notes as they are. -/
theorem Draft.Creates.keepsNotes
    {content : Content} {before after : Draft}
    (created : Creates content before after)
    (isRelation : content.members?.isSome) (noChord : content.name ≠ "chord") :
    before.model.KeepsNotes after.model := by
  have noNoteRest := Content.noteRest?_eq_none_of_members? isRelation
  refine ⟨⟨fun handle old found => ?_, fun handle later found outside => ?_⟩,
    .of_add content (content.effectOn before.model.size) created.content?
      (fun handle old _ => Content.chord?_effectOn noChord _ handle old) ?_⟩
  · have isOld : handle ≠ before.model.size :=
      Nat.ne_of_lt (Model.lt_size_of_content? found)
    refine ⟨content.effectOn before.model.size handle old, ?_,
      Content.name_effectOn ..⟩
    rw [created.content? handle, if_neg isOld, found, Option.map_some]
  · rw [created.content? handle] at found
    split at found
    · cases found
      exact noNoteRest
    · obtain ⟨old, foundOld, _⟩ := Option.map_eq_some_iff.mp found
      exact absurd (Model.lt_size_of_content? foundOld)
        (Nat.not_lt.mpr outside)
  · cases content <;>
      simp_all [Content.noteRest?, Content.chord?, Content.note?]

/-- A paired relation is no chord. -/
theorem Draft.Relates.keepsNotes
    {kind : PairedRelation} {joining : List Handle} {before after : Draft}
    (relates : Relates kind joining before after) :
    before.model.KeepsNotes after.model := by
  rcases relates with silent | ⟨content, created, admitted, named, _⟩
  · rw [silent.model]
    exact .of_spares (.refl _) fun _ _ linked => linked
  · exact created.keepsNotes admitted.isRelation
      (named ▸ kind.word_ne_chord)

theorem Draft.Relates.stands
    {kind : PairedRelation} {joining : List Handle} {before after : Draft}
    (relates : Relates kind joining before after) :
    before.Stands after := by
  rcases relates with silent | ⟨content, created, _⟩
  · exact silent.stands
  · exact created.stands

/-- The music is left alone. -/
structure Analysis.Amends (before after : Analysis) : Prop where
  model : before.draft.model.Spares after.draft.model
  chords : before.draft.model.FindsNoChord after.draft.model
  pending : after.pending = before.pending
  reports : before.draft.diagnostics.toList <+: after.draft.diagnostics.toList

namespace Analysis.Amends

variable {first middle last before after : Analysis}

theorem trans
    (earlier : Amends first middle) (later : Amends middle last) :
    Amends first last :=
  ⟨earlier.model.trans later.model,
    fun handle chord linked =>
      earlier.chords handle chord (later.chords handle chord linked),
    later.pending.trans earlier.pending,
    earlier.reports.trans later.reports⟩

theorem stands (amends : Amends before after) :
    before.draft.Stands after.draft :=
  ⟨amends.model.keepsRelations, amends.reports⟩

/-- A draft is reported about, and settings change. -/
theorem of_silent
    (silent : Draft.Silent before.draft after.draft)
    (pending : after.pending = before.pending) :
    Amends before after := by
  refine ⟨?_, ?_, pending, silent.reports⟩
  · rw [silent.model]
    exact .refl _
  · rw [silent.model]
    exact fun _ _ linked => linked

theorem of_agrees (agrees : before.Agrees after) : Amends before after :=
  of_silent agrees.draft agrees.pending

/-- A plain object is added. -/
theorem addObject
    (state : Analysis) (wanted : Option Int) (location : Location)
    {anchor : Option Handle} (anchored : state.draft.model.HasAnchor anchor)
    {content : Content} (plain : content.IsPlain) :
    Amends state
      { state with
        draft := (state.draft.addObject wanted location anchor content).2 } := by
  refine ⟨state.draft.spares_addObject wanted location anchored plain, ?_, rfl,
    state.draft.prefix_assignId wanted location⟩
  refine .of_add content (fun _ old => old) (fun handle => ?_)
    (fun _ _ _ => rfl) ?_
  · rw [Draft.content?_addObject _ _ _ anchored]
    simp
  · rw [Content.chord?_eq, plain.isFresh.links]

/-- One object changes that may change. -/
theorem modifyContent
    (state : Analysis) (changed : Handle) {change : Content → Content}
    (keeps : ∀ content, state.draft.model.content? changed = some content →
      content.Keeps (change content))
    (retains : ∀ content, state.draft.model.content? changed = some content →
      content.Retains (change content)) :
    Amends state
      { state with
        draft := state.draft.mapModel fun model =>
          model.modifyContent changed change } := by
  refine ⟨.modifyContent _ _ retains, ?_, rfl, List.prefix_refl _⟩
  apply Model.FindsNoChord.of_map (Model.content?_modifyContent _ _ _)
  intro handle content found
  split
  · rename_i isChanged
    rw [Content.chord?_eq, Content.chord?_eq,
      (keeps content (isChanged ▸ found)).links]
  · rfl

/-- An object becomes the root. -/
theorem setRoot (state : Analysis) (root : Handle) :
    Amends state
      { state with
        draft := state.draft.mapModel fun model => model.setRoot root } :=
  ⟨.setRoot _ root, fun _ _ linked => linked, rfl, List.prefix_refl _⟩

end Analysis.Amends

end LdpScore
