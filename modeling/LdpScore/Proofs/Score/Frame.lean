import LdpScore.Proofs.Score.Membership

/-!
# What a change of a model keeps

An object keeps its parent and its kind for as long as the model lasts; that is
`Model.Persists`.  Most changes also leave every chord as it is, and then the
model after `Extends` the model before.

The links of a note lead to its ties and its chord.  `Content.Keeps` says that a
change of one object keeps its kind, its members and its links.
-/

namespace LdpScore

/-- Where the ties and the chord of a note are. -/
structure Links where
  /-- The tie that starts at the note. -/
  tieNext : Option Handle := none
  /-- The tie that ends at the note. -/
  tiePrevious : Option Handle := none
  /-- The chord of the note. -/
  chord : Option Handle := none
deriving DecidableEq, Repr

namespace Content

/-- The links of an object; only notes have any. -/
def links (content : Content) : Links :=
  match content.note? with
  | some it => ⟨it.tieNext, it.tiePrevious, it.chord⟩
  | none => {}

/-- A change that is neither of kind nor of members nor of links. -/
structure Keeps (old new : Content) : Prop where
  name : new.name = old.name
  members? : new.members? = old.members?
  links : new.links = old.links

/-- What an element becomes: neither a relation nor linked to one. -/
structure IsFresh (content : Content) : Prop where
  members? : content.members? = none
  links : content.links = {}

namespace Keeps

theorem refl (content : Content) : Keeps content content :=
  ⟨rfl, rfl, rfl⟩

theorem mapNoteRest (change : NoteRest → NoteRest) (content : Content) :
    Keeps content (content.mapNoteRest change) := by
  cases content <;> exact ⟨rfl, rfl, rfl⟩

theorem stem (stem : Stem) (content : Content) :
    Keeps content
      (content.mapNote fun note => { note with stem := stem }) := by
  cases content <;> exact ⟨rfl, rfl, rfl⟩

end Keeps

/-- An object that is no note has no links. -/
theorem links_eq_of_name
    {content : Content} (other : content.name ≠ "note") :
    content.links = {} := by
  cases content <;> simp_all [links, note?, name]

/-! ## What a new relation leaves as it is -/

@[simp]
theorem name_effectOn
    (content : Content) (relation handle : Handle) (old : Content) :
    (content.effectOn relation handle old).name = old.name := by
  unfold effectOn
  split
  · simp
  · split <;> simp
  · split <;> simp
  · rfl

@[simp]
theorem members?_effectOn
    (content : Content) (relation handle : Handle) (old : Content) :
    (content.effectOn relation handle old).members? = old.members? := by
  unfold effectOn
  split
  · simp
  · split <;> simp
  · split <;> simp
  · rfl

end Content

namespace Model

/-- Every object is still there, below the same parent and of the same kind. -/
def Persists (before after : Model) : Prop :=
  ∀ handle object, before.get? handle = some object →
    ∃ later, after.get? handle = some later ∧
      later.parent = object.parent ∧
      later.content.name = object.content.name

/-- Objects persist, and there is no chord that was not the same before. -/
structure Extends (before after : Model) : Prop where
  persists : Persists before after
  chords : ∀ handle members,
    after.content? handle = some (.chord members) →
      before.content? handle = some (.chord members)

namespace Persists

variable {first middle last before after : Model}

theorem refl (model : Model) : Persists model model := by
  intro handle object found
  exact ⟨object, found, rfl, rfl⟩

theorem trans
    (earlier : Persists first middle) (later : Persists middle last) :
    Persists first last := by
  intro handle object found
  obtain ⟨between, foundBetween, sameParent, sameName⟩ :=
    earlier handle object found
  obtain ⟨final, foundFinal, parent, name⟩ :=
    later handle between foundBetween
  exact ⟨final, foundFinal, parent.trans sameParent, name.trans sameName⟩

theorem setRoot (model : Model) (root : Handle) :
    Persists model (model.setRoot root) := by
  intro handle object found
  exact ⟨object, found, rfl, rfl⟩

theorem size_le (persists : Persists before after) :
    before.size ≤ after.size := by
  apply Nat.le_of_not_lt
  intro shrunk
  obtain ⟨object, found⟩ := exists_get?_of_lt_size shrunk
  obtain ⟨later, foundLater, _⟩ := persists _ object found
  exact Nat.lt_irrefl _ (lt_size_of_get? foundLater)

/-- The content of an object keeps its name. -/
theorem exists_content
    (persists : Persists before after) {handle : Handle} {old : Content}
    (found : before.content? handle = some old) :
    ∃ new, after.content? handle = some new ∧ new.name = old.name := by
  obtain ⟨object, foundObject, rfl⟩ := content?_eq_some_iff.mp found
  obtain ⟨later, foundLater, _, sameName⟩ :=
    persists handle object foundObject
  exact ⟨later.content, content?_eq_some_iff.mpr ⟨later, foundLater, rfl⟩,
    sameName⟩

theorem name
    (persists : Persists before after) {handle : Handle} {old new : Content}
    (isOld : before.content? handle = some old)
    (isNew : after.content? handle = some new) :
    new.name = old.name := by
  obtain ⟨later, isLater, sameName⟩ := persists.exists_content isOld
  rw [isLater] at isNew
  cases isNew
  exact sameName

theorem isNote
    (persists : Persists before after) {handle : Handle}
    (note : (before.note? handle).isSome) :
    (after.note? handle).isSome := by
  simp only [note?, content?, Option.isSome_bind, Option.any_map,
    Option.any_eq_true, Content.note?_isSome_iff] at note ⊢
  obtain ⟨object, found, isNote⟩ := note
  obtain ⟨later, foundLater, _, sameName⟩ := persists handle object found
  exact ⟨later, foundLater, sameName.trans isNote⟩

theorem isNoteRest
    (persists : Persists before after) {handle : Handle}
    (noteRest : (before.noteRest? handle).isSome) :
    (after.noteRest? handle).isSome := by
  simp only [noteRest?, content?, Option.isSome_bind, Option.any_map,
    Option.any_eq_true, Content.noteRest?_isSome_iff] at noteRest ⊢
  obtain ⟨object, found, isNoteRest⟩ := noteRest
  obtain ⟨later, foundLater, _, sameName⟩ := persists handle object found
  exact ⟨later, foundLater, sameName ▸ isNoteRest⟩

end Persists

namespace Extends

variable {first middle last : Model}

theorem refl (model : Model) : Extends model model :=
  ⟨.refl model, fun _ _ found => found⟩

theorem trans
    (earlier : Extends first middle) (later : Extends middle last) :
    Extends first last := by
  constructor
  · exact earlier.persists.trans later.persists
  · intro handle members found
    exact earlier.chords handle members (later.chords handle members found)

/-- Adding the object of an element that is no chord. -/
theorem addObject
    (draft : Draft) (wanted : Option Int) (location : Location)
    {anchor : Option Handle} (anchored : draft.model.HasAnchor anchor)
    {content : Content} (fresh : content.IsFresh) :
    Extends draft.model
      (draft.addObject wanted location anchor content).2.model := by
  constructor
  · intro handle object found
    have old : handle ≠ draft.model.size :=
      Nat.ne_of_lt (lt_size_of_get? found)
    have later :=
      Draft.get?_addObject draft wanted location anchored content handle
    rw [if_neg old, found, Option.map_some] at later
    exact ⟨_, later, rfl, rfl⟩
  · intro handle members found
    rw [content?, Draft.get?_addObject _ _ _ anchored] at found
    by_cases isNew : handle = draft.model.size
    · rw [if_pos isNew] at found
      have isChord : content = .chord members := Option.some.inj found
      have noMembers := fresh.members?
      rw [isChord] at noMembers
      cases noMembers
    · rw [if_neg isNew, Option.map_map] at found
      exact found

/-- Changing one object without changing its kind and members. -/
theorem modifyContent
    (model : Model) (changed : Handle) {change : Content → Content}
    (keeps : ∀ content, model.content? changed = some content →
      content.Keeps (change content)) :
    Extends model (model.modifyContent changed change) := by
  constructor
  · intro handle object found
    have later := get?_modifyContent model changed change handle
    rw [found, Option.map_some] at later
    refine ⟨_, later, rfl, ?_⟩
    by_cases isChanged : handle = changed
    · simp only [if_pos isChanged]
      have content : model.content? changed = some object.content := by
        rw [content?, ← isChanged, found, Option.map_some]
      exact (keeps object.content content).name
    · simp only [if_neg isChanged]
  · intro handle members found
    rw [content?_modifyContent] at found
    obtain ⟨content, foundContent, equal⟩ := Option.map_eq_some_iff.mp found
    by_cases isChanged : handle = changed
    · rw [if_pos isChanged] at equal
      have kept := keeps content (isChanged ▸ foundContent)
      rw [foundContent]
      congr 1
      rw [equal] at kept
      exact Content.eq_chord kept.name.symm kept.members?.symm
    · rw [if_neg isChanged] at equal
      rw [foundContent, equal]

end Extends

end Model

namespace Draft.Creates

variable {content : Content} {before after : Draft}

theorem persists (created : Creates content before after) :
    Model.Persists before.model after.model := by
  intro handle object found
  have old : handle ≠ before.model.size :=
    Nat.ne_of_lt (Model.lt_size_of_get? found)
  have later := created.get? handle
  rw [if_neg old, found, Option.map_some] at later
  exact ⟨_, later, rfl, Content.name_effectOn ..⟩

/-- A new relation that is no chord leaves all chords as they are. -/
theorem extendsModel
    (created : Creates content before after)
    (noChord : content.name ≠ "chord") :
    Model.Extends before.model after.model := by
  constructor
  · exact created.persists
  · intro handle members found
    rw [Model.content?, created.get? handle] at found
    by_cases isNew : handle = before.model.size
    · rw [if_pos isNew] at found
      have isChord : content = .chord members := Option.some.inj found
      exact absurd (by rw [isChord]; rfl) noChord
    · rw [if_neg isNew, Option.map_map] at found
      obtain ⟨object, foundObject, equal⟩ := Option.map_eq_some_iff.mp found
      rw [Model.content?, foundObject, Option.map_some]
      congr 1
      have sameName := congrArg Content.name equal
      have sameMembers := congrArg Content.members? equal
      simp only [Function.comp_apply, Content.name_effectOn,
        Content.members?_effectOn] at sameName sameMembers
      exact Content.eq_chord sameName sameMembers

end Draft.Creates

end LdpScore
