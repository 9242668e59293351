import LdpScore.Proofs.Analysis.Step

/-!
# Both sides of every relation

A model is `Closed` when every handle in it leads to an object, and `Balanced`
when a relation lists a member as often as the member lists the relation.  Every
step keeps both, as long as it is known that the chord of a note is a chord and
that roles fit their relations; `Model.Coherent` is all of that.
-/

namespace LdpScore

/-! ## What coherence is -/

/-- All links lead below a bound. -/
structure Links.Below (links : Links) (bound : Handle) : Prop where
  tieNext : ∀ tie, links.tieNext = some tie → tie < bound
  tiePrevious : ∀ tie, links.tiePrevious = some tie → tie < bound
  chord : ∀ chord, links.chord = some chord → chord < bound

/-- All handles that an object stores are below a bound. -/
structure Object.Below (object : Object) (bound : Handle) : Prop where
  parent : ∀ parent, object.parent = some parent → parent < bound
  children : ∀ child ∈ object.children, child < bound
  relations : ∀ relation ∈ object.relations, relation < bound
  members : ∀ member ∈ object.content.memberHandles, member < bound
  links : object.content.links.Below bound

namespace Model

/-- The members of the object at a handle; only relations have any. -/
def memberHandles (model : Model) (relation : Handle) : List Handle :=
  ((model.content? relation).map Content.memberHandles).getD []

/-- Every handle in a model is that of an object. -/
structure Closed (model : Model) : Prop where
  root : ∀ root, model.root = some root → root < model.size
  objects : ∀ handle object, model.get? handle = some object →
    object.Below model.size

/-- A relation lists a member as often as the member lists the relation. -/
def Balanced (model : Model) : Prop :=
  ∀ member relation,
    (model.relations member).count relation =
      (model.memberHandles relation).count member

/-- Every relation records only roles of its own kind. -/
def RolesFit (model : Model) : Prop :=
  ∀ handle content, model.content? handle = some content →
    ∀ entry ∈ content.members?.getD [], content.records entry.2

/-- Whether there is a chord at a handle. -/
def IsChord (model : Model) (handle : Handle) : Prop :=
  ∃ members, model.content? handle = some (.chord members)

/-- What a note takes for its chord is one, and the note belongs to it. -/
def ChordsKnown (model : Model) : Prop :=
  ∀ handle content, model.content? handle = some content →
    ∀ chord, content.links.chord = some chord →
      model.IsChord chord ∧ handle ∈ model.memberHandles chord

/-- What every model is at any time. -/
structure Coherent (model : Model) : Prop where
  closed : model.Closed
  balanced : model.Balanced
  roles : model.RolesFit
  chords : model.ChordsKnown

end Model

/-! ## Bounds -/

theorem Links.Below.mono
    {links : Links} {bound higher : Handle}
    (below : links.Below bound) (le : bound ≤ higher) :
    links.Below higher :=
  ⟨fun tie isTie => Nat.lt_of_lt_of_le (below.tieNext tie isTie) le,
    fun tie isTie => Nat.lt_of_lt_of_le (below.tiePrevious tie isTie) le,
    fun chord isChord => Nat.lt_of_lt_of_le (below.chord chord isChord) le⟩

theorem Links.below_empty (bound : Handle) : Links.Below {} bound := by
  constructor <;> exact nofun

/-- Some links were changed to lead to a relation, which is a chord if notes take
it for one. -/
structure Links.LinkedTo
    (relation : Handle) (isChord : Prop) (before after : Links) : Prop where
  tieNext : after.tieNext = before.tieNext ∨ after.tieNext = some relation
  tiePrevious :
    after.tiePrevious = before.tiePrevious ∨
      after.tiePrevious = some relation
  chord :
    after.chord = before.chord ∨ after.chord = some relation ∧ isChord

theorem Links.LinkedTo.refl
    (relation : Handle) (isChord : Prop) (links : Links) :
    LinkedTo relation isChord links links :=
  ⟨Or.inl rfl, Or.inl rfl, Or.inl rfl⟩

theorem Links.LinkedTo.below
    {relation bound : Handle} {isChord : Prop} {before after : Links}
    (linked : LinkedTo relation isChord before after)
    (below : before.Below bound) (inside : relation < bound) :
    after.Below bound := by
  constructor
  · intro tie isTie
    rcases linked.tieNext with kept | new
    · exact below.tieNext tie (kept ▸ isTie)
    · cases new.symm.trans isTie
      exact inside
  · intro tie isTie
    rcases linked.tiePrevious with kept | new
    · exact below.tiePrevious tie (kept ▸ isTie)
    · cases new.symm.trans isTie
      exact inside
  · intro chord isLink
    rcases linked.chord with kept | ⟨new, _⟩
    · exact below.chord chord (kept ▸ isLink)
    · cases new.symm.trans isLink
      exact inside

theorem Object.Below.mono
    {object : Object} {bound higher : Handle}
    (below : object.Below bound) (le : bound ≤ higher) :
    object.Below higher :=
  ⟨fun parent isParent => Nat.lt_of_lt_of_le (below.parent parent isParent) le,
    fun child listed => Nat.lt_of_lt_of_le (below.children child listed) le,
    fun relation listed =>
      Nat.lt_of_lt_of_le (below.relations relation listed) le,
    fun member listed => Nat.lt_of_lt_of_le (below.members member listed) le,
    below.links.mono le⟩

namespace Content

theorem IsFresh.memberHandles
    {content : Content} (fresh : content.IsFresh) :
    content.memberHandles = [] := by
  rw [Content.memberHandles, fresh.members?]
  rfl

theorem Keeps.memberHandles
    {old new : Content} (keeps : Keeps old new) :
    new.memberHandles = old.memberHandles := by
  rw [Content.memberHandles, Content.memberHandles, keeps.members?]

@[simp]
theorem memberHandles_effectOn
    (content : Content) (relation handle : Handle) (old : Content) :
    (content.effectOn relation handle old).memberHandles =
      old.memberHandles := by
  rw [memberHandles, memberHandles, members?_effectOn]

theorem links_mapNoteRest (change : NoteRest → NoteRest) (content : Content) :
    (content.mapNoteRest change).links = content.links := by
  cases content <;> rfl

@[simp]
theorem links_mapMembers (change : Members → Members) (content : Content) :
    (content.mapMembers change).links = content.links := by
  cases content <;> rfl

/-- A note that joins a chord is only linked to that chord. -/
theorem linkedTo_joined
    {isChord : Prop} (chord : Handle) (chordIs : isChord) (content : Content) :
    Links.LinkedTo chord isChord content.links
      (content.mapNote fun it => { it with chord := some chord }).links := by
  cases content
  case note => exact ⟨Or.inl rfl, Or.inl rfl, Or.inr ⟨rfl, chordIs⟩⟩
  all_goals exact .refl _ _ _

/-- The ends of a tie are only linked to that tie. -/
theorem linkedTo_tied
    (isChord : Prop) (relation handle start finish : Handle)
    (content : Content) :
    Links.LinkedTo relation isChord content.links
      (content.mapNote fun note =>
        { note with
          tieNext := if handle = start then some relation else note.tieNext
          tiePrevious :=
            if handle = finish then some relation
            else note.tiePrevious }).links := by
  cases content
  case note it =>
    constructor
    · by_cases isStart : handle = start <;> simp [links, note?, mapNote, isStart]
    · by_cases isFinish : handle = finish <;>
        simp [links, note?, mapNote, isFinish]
    · exact Or.inl rfl
  all_goals exact .refl _ _ _

/-- A new relation only links objects to itself, and only a chord is linked to as
one. -/
theorem linkedTo_effectOn
    (content : Content) (relation handle : Handle) (old : Content) :
    Links.LinkedTo relation
      ((∃ members, content = .chord members) ∧
        handle ∈ content.memberHandles)
      old.links (content.effectOn relation handle old).links := by
  cases content with
  | tie number color members =>
      unfold effectOn
      split
      · exact linkedTo_tied _ relation handle _ _ old
      · contradiction
      · contradiction
      · exact .refl _ _ _
  | tuplet actual normal bracket number members =>
      simp only [effectOn]
      split
      · rw [links_mapNoteRest]
        exact .refl _ _ _
      · exact .refl _ _ _
  | chord members =>
      simp only [effectOn]
      split
      · rename_i isMember
        exact linkedTo_joined relation ⟨⟨members, rfl⟩, isMember⟩ old
      · exact .refl _ _ _
  | _ => exact .refl _ _ _

end Content

namespace Content

/-- The name of the relations that record a role. -/
def relationName : Role → String
  | .tie _ _ => "tie"
  | .slur _ _ => "slur"
  | .beam _ => "beam"
  | .tuplet => "tuplet"
  | .chord => "chord"

theorem records_iff (content : Content) (role : Role) :
    content.records role ↔ content.name = relationName role := by
  cases content <;> cases role <;> simp [records, name, relationName]

end Content

namespace Model

theorem Persists.isChord
    {before after : Model} (persists : Persists before after)
    {handle : Handle} (isChord : before.IsChord handle) :
    after.IsChord handle := by
  obtain ⟨members, found⟩ := isChord
  obtain ⟨later, foundLater, sameName⟩ := persists.exists_content found
  cases later <;> simp [Content.name] at sameName
  exact ⟨_, foundLater⟩

/-- What is listed in a balanced model is a relation. -/
theorem Balanced.exists_relation
    {model : Model} (balanced : model.Balanced) {member relation : Handle}
    (listed : relation ∈ model.relations member) :
    ∃ content, model.content? relation = some content ∧
      member ∈ content.memberHandles := by
  have counted := List.count_pos_iff.mpr listed
  rw [balanced member relation, List.count_pos_iff, memberHandles] at counted
  rcases found : model.content? relation with _ | content
  · rw [found] at counted
    exact absurd counted List.not_mem_nil
  · rw [found] at counted
    exact ⟨content, rfl, counted⟩

theorem ChordsKnown.isChord
    {model : Model} (known : model.ChordsKnown) {note chord : Handle}
    (joined : (model.note? note).bind Note.chord = some chord) :
    model.IsChord chord ∧ note ∈ model.memberHandles chord := by
  obtain ⟨it, isNote, isChord⟩ := Option.bind_eq_some_iff.mp joined
  obtain ⟨content, isContent, isNote⟩ := Option.bind_eq_some_iff.mp isNote
  apply known note content isContent chord
  rw [Content.links, isNote]
  exact isChord

/-! ## Objects of elements -/

section Element

variable {draft : Draft} {anchor : Option Handle} {content : Content}

theorem content?_addObject
    (wanted : Option Int) (location : Location)
    (anchored : draft.model.HasAnchor anchor) (content : Content)
    (handle : Handle) :
    (draft.addObject wanted location anchor content).2.model.content? handle =
      if handle = draft.model.size then some content
      else draft.model.content? handle := by
  rw [Model.content?, Draft.get?_addObject _ _ _ anchored]
  split
  · rfl
  · rw [Option.map_map]
    rfl

theorem relations_addObject
    (wanted : Option Int) (location : Location)
    (anchored : draft.model.HasAnchor anchor) (content : Content)
    (handle : Handle) :
    (draft.addObject wanted location anchor content).2.model.relations handle =
      draft.model.relations handle := by
  rw [Model.relations, Model.relations, Draft.get?_addObject _ _ _ anchored]
  by_cases isNew : handle = draft.model.size
  · rw [if_pos isNew, get?_eq_none_iff.mpr (Nat.le_of_eq isNew.symm)]
  · rw [if_neg isNew]
    cases draft.model.get? handle <;> rfl

theorem memberHandles_addObject
    (wanted : Option Int) (location : Location)
    (anchored : draft.model.HasAnchor anchor) (fresh : content.IsFresh)
    (handle : Handle) :
    (draft.addObject wanted location anchor content).2.model.memberHandles
        handle =
      draft.model.memberHandles handle := by
  rw [Model.memberHandles, content?_addObject _ _ anchored,
    Model.memberHandles]
  by_cases isNew : handle = draft.model.size
  · have missing : draft.model.content? handle = none := by
      rw [Model.content?, get?_eq_none_iff.mpr (Nat.le_of_eq isNew.symm)]
      rfl
    rw [if_pos isNew, missing]
    exact fresh.memberHandles
  · rw [if_neg isNew]

/-- A new object has no members, and the others have those they had. -/
theorem content?_of_addObject
    (wanted : Option Int) (location : Location)
    (anchored : draft.model.HasAnchor anchor) (fresh : content.IsFresh)
    {handle : Handle} {found : Content}
    (isContent : (draft.addObject wanted location anchor
      content).2.model.content? handle = some found) :
    draft.model.content? handle = some found ∨ found.IsFresh := by
  rw [content?_addObject _ _ anchored] at isContent
  split at isContent
  · cases isContent
    exact Or.inr fresh
  · exact Or.inl isContent

theorem Closed.addObject
    (closed : draft.model.Closed) (wanted : Option Int) (location : Location)
    (anchored : draft.model.HasAnchor anchor) (fresh : content.IsFresh) :
    (draft.addObject wanted location anchor content).2.model.Closed := by
  have size := draft.size_addObject wanted location anchor content
  constructor
  · intro root isRoot
    rw [Draft.root_addObject] at isRoot
    rw [size]
    exact Nat.lt_succ_of_lt (closed.root root isRoot)
  · intro handle object found
    rw [Draft.get?_addObject _ _ _ anchored] at found
    rw [size]
    split at found
    · cases found
      constructor
      · intro parent isParent
        exact Nat.lt_succ_of_lt (anchored parent isParent)
      · simp
      · simp
      · dsimp only
        rw [fresh.memberHandles]
        simp
      · dsimp only
        rw [fresh.links]
        exact Links.below_empty _
    · obtain ⟨old, foundOld, rfl⟩ := Option.map_eq_some_iff.mp found
      have below := (closed.objects handle old foundOld).mono
        (Nat.le_succ draft.model.size)
      refine { below with children := fun child listed => ?_ }
      dsimp only at listed
      split at listed
      · rcases List.mem_append.mp listed with old | new
        · exact below.children child old
        · rw [List.mem_singleton.mp new]
          exact Nat.lt_succ_self _
      · exact below.children child listed

theorem Coherent.addObject
    (coherent : draft.model.Coherent) (wanted : Option Int)
    (location : Location) (anchored : draft.model.HasAnchor anchor)
    (fresh : content.IsFresh) :
    (draft.addObject wanted location anchor content).2.model.Coherent := by
  constructor
  · exact coherent.closed.addObject wanted location anchored fresh
  · intro member relation
    rw [relations_addObject _ _ anchored,
      memberHandles_addObject _ _ anchored fresh]
    exact coherent.balanced member relation
  · intro handle found isContent
    rcases content?_of_addObject wanted location anchored fresh isContent
      with old | new
    · exact coherent.roles handle found old
    · rw [new.members?]
      simp
  · intro handle found isContent chord isLink
    rcases content?_of_addObject wanted location anchored fresh isContent
      with old | new
    · have persists :=
        (Extends.addObject draft wanted location anchored fresh).persists
      obtain ⟨isChord, isMember⟩ :=
        coherent.chords handle found old chord isLink
      rw [memberHandles_addObject _ _ anchored fresh]
      exact ⟨persists.isChord isChord, isMember⟩
    · rw [new.links] at isLink
      cases isLink

end Element

/-! ## Other changes of one object -/

section Change

variable {model : Model} {changed : Handle} {change : Content → Content}

/-- A change of one object that keeps its links leaves the rest of it alone. -/
theorem exists_keeps_of_modifyContent
    (keeps : ∀ content, model.content? changed = some content →
      content.Keeps (change content))
    {handle : Handle} {object : Object}
    (found : (model.modifyContent changed change).get? handle = some object) :
    ∃ old, model.get? handle = some old ∧ old.content.Keeps object.content ∧
      object = { old with content := object.content } := by
  rw [get?_modifyContent] at found
  obtain ⟨old, foundOld, rfl⟩ := Option.map_eq_some_iff.mp found
  refine ⟨old, foundOld, ?_, rfl⟩
  dsimp only
  split
  · rename_i isChanged
    exact keeps old.content
      (content?_eq_some_iff.mpr ⟨old, isChanged ▸ foundOld, rfl⟩)
  · exact .refl _

theorem relations_modifyContent
    (model : Model) (changed : Handle) (change : Content → Content)
    (handle : Handle) :
    (model.modifyContent changed change).relations handle =
      model.relations handle := by
  rw [Model.relations, get?_modifyContent, Model.relations]
  cases model.get? handle <;> rfl

theorem memberHandles_modifyContent
    (keeps : ∀ content, model.content? changed = some content →
      content.Keeps (change content))
    (handle : Handle) :
    (model.modifyContent changed change).memberHandles handle =
      model.memberHandles handle := by
  rw [Model.memberHandles, content?_modifyContent, Model.memberHandles]
  by_cases isChanged : handle = changed
  · subst isChanged
    rcases found : model.content? handle with _ | content
    · rfl
    · simp only [if_true, Option.map_some, Option.getD_some,
        (keeps content found).memberHandles]
  · simp only [if_neg isChanged, Option.map_id']

/-- What the content of an object was before the change. -/
theorem exists_kept_of_modifyContent
    (keeps : ∀ content, model.content? changed = some content →
      content.Keeps (change content))
    {handle : Handle} {content : Content}
    (found :
      (model.modifyContent changed change).content? handle = some content) :
    ∃ old, model.content? handle = some old ∧ old.Keeps content := by
  obtain ⟨object, isObject, rfl⟩ := content?_eq_some_iff.mp found
  obtain ⟨old, foundOld, kept, _⟩ :=
    exists_keeps_of_modifyContent keeps isObject
  exact ⟨old.content, content?_eq_some_iff.mpr ⟨old, foundOld, rfl⟩, kept⟩

theorem Closed.modifyContent
    (closed : model.Closed)
    (keeps : ∀ content, model.content? changed = some content →
      content.Keeps (change content)) :
    (model.modifyContent changed change).Closed := by
  have size := model.size_modifyContent changed change
  constructor
  · intro root isRoot
    rw [size]
    exact closed.root root isRoot
  · intro handle object found
    obtain ⟨old, foundOld, kept, same⟩ :=
      exists_keeps_of_modifyContent keeps found
    have below := closed.objects handle old foundOld
    rw [same, size]
    constructor
    · exact below.parent
    · exact below.children
    · exact below.relations
    · rw [kept.memberHandles]
      exact below.members
    · rw [kept.links]
      exact below.links

theorem Coherent.modifyContent
    (coherent : model.Coherent)
    (keeps : ∀ content, model.content? changed = some content →
      content.Keeps (change content)) :
    (model.modifyContent changed change).Coherent := by
  constructor
  · exact coherent.closed.modifyContent keeps
  · intro member relation
    rw [relations_modifyContent, memberHandles_modifyContent keeps]
    exact coherent.balanced member relation
  · intro handle content isContent entry listed
    obtain ⟨old, found, kept⟩ := exists_kept_of_modifyContent keeps isContent
    rw [kept.members?] at listed
    have records := coherent.roles handle old found entry listed
    rw [Content.records_iff] at records ⊢
    exact kept.name.trans records
  · intro handle content isContent chord isLink
    have persists := (Extends.modifyContent model changed keeps).persists
    obtain ⟨old, found, kept⟩ := exists_kept_of_modifyContent keeps isContent
    rw [kept.links] at isLink
    obtain ⟨isChord, isMember⟩ := coherent.chords handle old found chord isLink
    rw [memberHandles_modifyContent keeps]
    exact ⟨persists.isChord isChord, isMember⟩

theorem Coherent.setRoot
    (coherent : model.Coherent) {root : Handle} (known : model.Knows root) :
    (model.setRoot root).Coherent := by
  refine ⟨⟨?_, coherent.closed.objects⟩, coherent.balanced, coherent.roles,
    coherent.chords⟩
  rintro _ ⟨⟩
  rcases known with inside | ⟨note, joined⟩
  · exact inside
  · obtain ⟨⟨members, found⟩, _⟩ := coherent.chords.isChord joined
    exact lt_size_of_content? found

end Change

end Model

end LdpScore
