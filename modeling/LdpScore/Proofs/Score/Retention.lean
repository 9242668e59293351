import LdpScore.Proofs.Relation.Chord

/-!
# What music leaves as it is

Only the tuplets change how long notes and rests last.  Whatever else happens to a
score, every note and rest keeps its modification and every relation but a chord
stays as it was made: `Model.Spares`.
-/

namespace LdpScore

namespace Content

/-- The modification of a note or rest, and whether the text gives it. -/
def timing? (content : Content) : Option (Option TimeModification × Bool) :=
  content.noteRest?.map fun noteRest =>
    (noteRest.timeModification, noteRest.isModificationExplicit)

/-- The modification that a tuplet applies, and its members. -/
def tuplet? : Content → Option (TimeModification × List Handle)
  | tuplet actual normal _ _ members =>
      some (⟨normal, actual⟩, members.map Prod.fst)
  | _ => none

/-- What an element becomes that is neither a note or rest nor a relation. -/
structure IsPlain (content : Content) : Prop where
  members? : content.members? = none
  noteRest? : content.noteRest? = none

/-- The chord of a note that has one. -/
def chord? (content : Content) : Option Handle :=
  content.note?.bind Note.chord

/-- A change that leaves the modification of a note or rest, and the whole of a
relation that is no chord. -/
structure Retains (old new : Content) : Prop where
  name : new.name = old.name
  timing? : new.timing? = old.timing?
  relation : old.members?.isSome → old.name ≠ "chord" → new = old

theorem tuplet?_eq_none_of_members?
    {content : Content} (noRelation : content.members? = none) :
    content.tuplet? = none := by
  cases content <;> simp_all [members?, tuplet?]

theorem tuplet?_eq_none_of_name
    {content : Content} (other : content.name ≠ "tuplet") :
    content.tuplet? = none := by
  cases content <;> simp_all [name, tuplet?]

/-- A relation is neither a note nor a rest. -/
theorem noteRest?_eq_none_of_members?
    {content : Content} (isRelation : content.members?.isSome) :
    content.noteRest? = none := by
  cases content <;> simp_all [members?, noteRest?]

theorem timing?_mapNote
    {change : Note → Note}
    (same : ∀ note, (change note).noteRest = note.noteRest)
    (content : Content) :
    (content.mapNote change).timing? = content.timing? := by
  cases content <;> simp [mapNote, timing?, noteRest?, same]

theorem mapNote_of_members?
    {content : Content} (isRelation : content.members?.isSome)
    (change : Note → Note) :
    content.mapNote change = content := by
  cases content <;> simp_all [members?, mapNote]

theorem mapNoteRest_of_members?
    {content : Content} (isRelation : content.members?.isSome)
    (change : NoteRest → NoteRest) :
    content.mapNoteRest change = content := by
  cases content <;> simp_all [members?, mapNoteRest]

theorem IsPlain.isFresh {content : Content} (plain : content.IsPlain) :
    content.IsFresh := by
  refine ⟨plain.members?, links_eq_of_name fun isNote => ?_⟩
  have isNoteRest : content.noteRest?.isSome :=
    (noteRest?_isSome_iff content).mpr (Or.inl isNote)
  rw [plain.noteRest?] at isNoteRest
  cases isNoteRest

namespace Retains

variable {first middle last : Content}

theorem refl (content : Content) : Retains content content :=
  ⟨rfl, rfl, fun _ _ => rfl⟩

theorem trans
    (earlier : Retains first middle) (later : Retains middle last) :
    Retains first last := by
  refine ⟨later.name.trans earlier.name, later.timing?.trans earlier.timing?,
    fun isRelation noChord => ?_⟩
  have same := earlier.relation isRelation noChord
  rw [← same] at isRelation noChord ⊢
  exact later.relation isRelation noChord

/-- Nothing but the chord and the ties of a note changes. -/
theorem mapNote
    {change : Note → Note}
    (same : ∀ note, (change note).noteRest = note.noteRest)
    (content : Content) :
    Retains content (content.mapNote change) :=
  ⟨name_mapNote change content, timing?_mapNote same content,
    fun isRelation _ => mapNote_of_members? isRelation change⟩

/-- Anything but its modification changes in a note or rest. -/
theorem mapNoteRest
    {change : NoteRest → NoteRest}
    (modification : ∀ noteRest,
      (change noteRest).timeModification = noteRest.timeModification)
    (explicit : ∀ noteRest,
      (change noteRest).isModificationExplicit =
        noteRest.isModificationExplicit)
    (content : Content) :
    Retains content (content.mapNoteRest change) := by
  refine ⟨name_mapNoteRest change content, ?_,
    fun isRelation _ => mapNoteRest_of_members? isRelation change⟩
  cases content <;>
    simp [Content.mapNoteRest, Content.timing?, noteRest?, modification,
      explicit]

/-- A plain object is replaced by another one of its kind. -/
theorem of_plain
    {old new : Content} (plain : new.IsPlain) (same : new.name = old.name) :
    Retains old new := by
  have noRelation : ¬ old.members?.isSome := by
    rw [members?_isSome_iff, ← same, ← members?_isSome_iff, plain.members?]
    simp
  have noNoteRest : old.noteRest? = none := by
    rw [← Option.not_isSome_iff_eq_none, noteRest?_isSome_iff, ← same,
      ← noteRest?_isSome_iff, plain.noteRest?]
    simp
  refine ⟨same, ?_, fun isRelation => absurd isRelation noRelation⟩
  rw [Content.timing?, Content.timing?, plain.noteRest?, noNoteRest]

end Retains

/-- A tuplet is retained as it is, and nothing becomes one. -/
theorem Retains.tuplet?
    {old new : Content} (retains : Retains old new) :
    new.tuplet? = old.tuplet? := by
  by_cases isTuplet : old.name = "tuplet"
  · have isRelation : old.members?.isSome := by
      rw [members?_isSome_iff, isTuplet]
      simp
    rw [retains.relation isRelation (by simp [isTuplet])]
  · rw [tuplet?_eq_none_of_name isTuplet,
      tuplet?_eq_none_of_name (retains.name ▸ isTuplet)]

/-- Only a new tuplet modifies its members. -/
theorem retains_effectOn
    {content : Content} (noTuplet : content.tuplet? = none)
    (relation handle : Handle) (old : Content) :
    old.Retains (content.effectOn relation handle old) := by
  unfold effectOn
  split
  · refine .mapNote ?_ old
    exact fun _ => rfl
  · cases noTuplet
  · split
    · refine .mapNote ?_ old
      exact fun _ => rfl
    · exact .refl old
  · exact .refl old

/-- A new relation leaves other relations alone. -/
theorem effectOn_of_members?
    {content old : Content} (isRelation : old.members?.isSome)
    (relation handle : Handle) :
    content.effectOn relation handle old = old := by
  unfold effectOn
  split
  · exact mapNote_of_members? isRelation _
  · split
    · exact mapNoteRest_of_members? isRelation _
    · rfl
  · split
    · exact mapNote_of_members? isRelation _
    · rfl
  · rfl

end Content

namespace Model

/-- Every object retains what counts in music, and nothing new is a note, a rest
or a tuplet. -/
structure Spares (before after : Model) : Prop where
  old : ∀ handle content, before.content? handle = some content →
    ∃ later, after.content? handle = some later ∧ content.Retains later
  new : ∀ handle content, after.content? handle = some content →
    before.size ≤ handle →
      content.noteRest? = none ∧ content.tuplet? = none

theorem exists_content?_of_lt_size
    {model : Model} {handle : Handle} (inside : handle < model.size) :
    ∃ content, model.content? handle = some content := by
  obtain ⟨object, found⟩ := exists_get?_of_lt_size inside
  exact ⟨object.content, content?_eq_some_iff.mpr ⟨object, found, rfl⟩⟩

namespace Spares

variable {first middle last before after : Model}

theorem refl (model : Model) : Spares model model := by
  constructor
  · intro handle content found
    exact ⟨content, found, .refl content⟩
  · intro handle content found outside
    exact absurd (lt_size_of_content? found) (Nat.not_lt.mpr outside)

theorem size_le (spares : Spares before after) :
    before.size ≤ after.size := by
  apply Nat.le_of_not_lt
  intro shrunk
  obtain ⟨content, found⟩ := exists_content?_of_lt_size shrunk
  obtain ⟨later, foundLater, _⟩ := spares.old _ content found
  exact Nat.lt_irrefl _ (lt_size_of_content? foundLater)

/-- What stands at an old handle afterwards stood there before. -/
theorem of_lt
    (spares : Spares before after) {handle : Handle} {later : Content}
    (found : after.content? handle = some later)
    (inside : handle < before.size) :
    ∃ content, before.content? handle = some content ∧
      content.Retains later := by
  obtain ⟨content, isContent⟩ := exists_content?_of_lt_size inside
  obtain ⟨other, foundOther, retains⟩ := spares.old handle content isContent
  rw [found] at foundOther
  cases foundOther
  exact ⟨content, isContent, retains⟩

theorem trans
    (earlier : Spares first middle) (later : Spares middle last) :
    Spares first last := by
  constructor
  · intro handle content found
    obtain ⟨between, foundBetween, retains⟩ :=
      earlier.old handle content found
    obtain ⟨final, foundFinal, retainsToo⟩ :=
      later.old handle between foundBetween
    exact ⟨final, foundFinal, retains.trans retainsToo⟩
  · intro handle content found outside
    by_cases inside : handle < middle.size
    · obtain ⟨between, foundBetween, retains⟩ := later.of_lt found inside
      obtain ⟨noNoteRest, noTuplet⟩ :=
        earlier.new handle between foundBetween outside
      refine ⟨?_, retains.tuplet?.trans noTuplet⟩
      rw [← Option.not_isSome_iff_eq_none, Content.noteRest?_isSome_iff,
        retains.name, ← Content.noteRest?_isSome_iff, noNoteRest]
      simp
    · exact later.new handle content found (Nat.not_lt.mp inside)

/-- Objects are changed in place. -/
theorem of_map
    {change : Handle → Content → Content}
    (changed : ∀ handle,
      after.content? handle = (before.content? handle).map (change handle))
    (retains : ∀ handle content, before.content? handle = some content →
      content.Retains (change handle content)) :
    Spares before after := by
  constructor
  · intro handle content found
    refine ⟨change handle content, ?_, retains handle content found⟩
    rw [changed handle, found, Option.map_some]
  · intro handle content found outside
    rw [changed handle] at found
    obtain ⟨old, foundOld, _⟩ := Option.map_eq_some_iff.mp found
    exact absurd (lt_size_of_content? foundOld) (Nat.not_lt.mpr outside)

theorem modifyContent
    (model : Model) (changed : Handle) {change : Content → Content}
    (retains : ∀ content, model.content? changed = some content →
      content.Retains (change content)) :
    Spares model (model.modifyContent changed change) := by
  apply of_map (content?_modifyContent model changed change)
  intro handle content found
  split
  · rename_i isChanged
    exact retains content (isChanged ▸ found)
  · exact .refl content

theorem setRoot (model : Model) (root : Handle) :
    Spares model (model.setRoot root) :=
  ⟨(refl model).old, (refl model).new⟩

/-- One object is added, which is neither a note or rest nor a tuplet, and the
others retain what counts. -/
theorem of_add
    (content : Content) (change : Handle → Content → Content)
    (added : ∀ handle, after.content? handle =
      if handle = before.size then some content
      else (before.content? handle).map (change handle))
    (retains : ∀ handle old, before.content? handle = some old →
      old.Retains (change handle old))
    (noNoteRest : content.noteRest? = none)
    (noTuplet : content.tuplet? = none) :
    Spares before after := by
  constructor
  · intro handle old found
    have isOld : handle ≠ before.size :=
      Nat.ne_of_lt (lt_size_of_content? found)
    refine ⟨change handle old, ?_, retains handle old found⟩
    rw [added handle, if_neg isOld, found, Option.map_some]
  · intro handle later found outside
    rw [added handle] at found
    split at found
    · cases found
      exact ⟨noNoteRest, noTuplet⟩
    · obtain ⟨old, foundOld, _⟩ := Option.map_eq_some_iff.mp found
      exact absurd (lt_size_of_content? foundOld) (Nat.not_lt.mpr outside)

end Spares

end Model

namespace Draft

theorem content?_addObject
    (draft : Draft) (wanted : Option Int) (location : Location)
    {anchor : Option Handle} (anchored : draft.model.HasAnchor anchor)
    (content : Content) (handle : Handle) :
    (draft.addObject wanted location anchor content).2.model.content? handle =
      if handle = draft.model.size then some content
      else draft.model.content? handle := by
  rw [Model.content?, get?_addObject _ _ _ anchored]
  split
  · rfl
  · rw [Option.map_map]
    rfl

/-- A plain object is added. -/
theorem spares_addObject
    (draft : Draft) (wanted : Option Int) (location : Location)
    {anchor : Option Handle} (anchored : draft.model.HasAnchor anchor)
    {content : Content} (plain : content.IsPlain) :
    Model.Spares draft.model
      (draft.addObject wanted location anchor content).2.model := by
  refine .of_add content (fun _ old => old) (fun handle => ?_)
    (fun _ old _ => .refl old) plain.noteRest?
    (Content.tuplet?_eq_none_of_members? plain.members?)
  rw [content?_addObject draft wanted location anchored]
  simp

theorem Creates.content?
    {content : Content} {before after : Draft}
    (created : Creates content before after) (handle : Handle) :
    after.model.content? handle =
      if handle = before.model.size then some content
      else (before.model.content? handle).map
        (content.effectOn before.model.size handle) := by
  rw [Model.content?, created.get? handle]
  split
  · rfl
  · rw [Model.content?, Option.map_map, Option.map_map]
    rfl

/-- A new relation that is no tuplet modifies nothing. -/
theorem Creates.spares
    {content : Content} {before after : Draft}
    (created : Creates content before after)
    (isRelation : content.members?.isSome)
    (noTuplet : content.tuplet? = none) :
    Model.Spares before.model after.model :=
  .of_add content (content.effectOn before.model.size) created.content?
    (fun handle old _ => Content.retains_effectOn noTuplet _ handle old)
    (Content.noteRest?_eq_none_of_members? isRelation) noTuplet

/-- A note joins a chord that is there. -/
theorem spares_joinChord
    {base note chord : Handle} {draft : Draft}
    (joined : (draft.model.note? base).bind Note.chord = some chord)
    (isChord : ∀ content, draft.model.content? chord = some content →
      content.name = "chord") :
    Model.Spares draft.model (Analyser.joinChord base note draft).model := by
  rw [Analyser.joinChord_of_joined joined]
  have included : Model.Spares draft.model
      (draft.model.includeMember chord note .chord) := by
    apply Model.Spares.of_map (Model.content?_includeMember _ _ _ _)
    intro handle content found
    split
    · rename_i isRelation
      have named := isChord content (isRelation ▸ found)
      refine ⟨Content.name_mapMembers .., ?_, fun _ noChord => ?_⟩
      · cases content <;> rfl
      · exact absurd named noChord
    · exact .refl content
  refine included.trans (Model.Spares.modifyContent _ note ?_)
  intro content _
  refine .mapNote ?_ content
  exact fun _ => rfl

end Draft

/-! ## What is settled for good -/

theorem PairedRelation.word_ne_chord (kind : PairedRelation) :
    kind.word ≠ "chord" := by
  cases kind <;> simp [word]

/-- Relations that are no chords stay as they were made. -/
def Model.KeepsRelations (before after : Model) : Prop :=
  ∀ handle content, before.content? handle = some content →
    content.members?.isSome → content.name ≠ "chord" →
      after.content? handle = some content

/-- Nothing is taken back: relations that are no chords stay, and so do
reports. -/
structure Draft.Stands (before after : Draft) : Prop where
  relations : before.model.KeepsRelations after.model
  reports : before.diagnostics.toList <+: after.diagnostics.toList

namespace Model

variable {first middle last before after : Model}

theorem KeepsRelations.refl (model : Model) : KeepsRelations model model :=
  fun _ _ found _ _ => found

theorem KeepsRelations.trans
    (earlier : KeepsRelations first middle)
    (later : KeepsRelations middle last) :
    KeepsRelations first last :=
  fun handle content found isRelation noChord =>
    later handle content (earlier handle content found isRelation noChord)
      isRelation noChord

/-- Objects are changed in place. -/
theorem KeepsRelations.of_map
    {change : Handle → Content → Content}
    (changed : ∀ handle,
      after.content? handle = (before.content? handle).map (change handle))
    (kept : ∀ handle content, content.members?.isSome →
      change handle content = content) :
    KeepsRelations before after := by
  intro handle content found isRelation _
  rw [changed handle, found, Option.map_some, kept handle content isRelation]

theorem Spares.keepsRelations (spares : Spares before after) :
    KeepsRelations before after := by
  intro handle content found isRelation noChord
  obtain ⟨later, foundLater, retains⟩ := spares.old handle content found
  rw [foundLater, retains.relation isRelation noChord]

end Model

namespace Draft

variable {first middle last before after : Draft}

theorem Stands.refl (draft : Draft) : Stands draft draft :=
  ⟨.refl _, List.prefix_refl _⟩

theorem Stands.trans
    (earlier : Stands first middle) (later : Stands middle last) :
    Stands first last :=
  ⟨earlier.relations.trans later.relations,
    earlier.reports.trans later.reports⟩

theorem Silent.stands (silent : Silent before after) :
    Stands before after := by
  refine ⟨?_, silent.reports⟩
  rw [silent.model]
  exact .refl _

theorem Stands.report
    (draft : Draft) (location : Location) (problem : Problem) :
    Stands draft (draft.report location problem) :=
  ⟨.refl _, draft.prefix_report location problem⟩

/-- A new relation leaves the others alone. -/
theorem Creates.stands
    {content : Content} (created : Creates content before after) :
    Stands before after := by
  refine ⟨fun handle old found isRelation _ => ?_, ?_⟩
  · have isOld : handle ≠ before.model.size :=
      Nat.ne_of_lt (Model.lt_size_of_content? found)
    rw [created.content?, if_neg isOld, found, Option.map_some,
      Content.effectOn_of_members? isRelation]
  · simp only [created.diagnostics, List.prefix_refl]

theorem stands_addObject
    (draft : Draft) (wanted : Option Int) (location : Location)
    {anchor : Option Handle} (anchored : draft.model.HasAnchor anchor)
    (content : Content) :
    Stands draft (draft.addObject wanted location anchor content).2 := by
  refine ⟨fun handle old found _ _ => ?_, draft.prefix_assignId wanted location⟩
  have isOld : handle ≠ draft.model.size :=
    Nat.ne_of_lt (Model.lt_size_of_content? found)
  rw [content?_addObject draft wanted location anchored, if_neg isOld]
  exact found

end Draft

end LdpScore
