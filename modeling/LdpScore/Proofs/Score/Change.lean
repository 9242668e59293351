import LdpScore.Score.Draft

/-!
# Changes of a model, object by object

A model is an arena, so what a change means is said by what it makes of the
object at each handle.  Every lemma here gives the object at a handle after one
kind of change in terms of the object that stood there before.  What is proved
about models later rests on these lemmas and does not look inside the arena.
-/

namespace LdpScore

namespace Content

/-! ## What the name of an object tells -/

theorem note?_isSome_iff (content : Content) :
    content.note?.isSome ↔ content.name = "note" := by
  cases content <;> simp [note?, name]

theorem noteRest?_isSome_iff (content : Content) :
    content.noteRest?.isSome ↔
      content.name = "note" ∨ content.name = "rest" := by
  cases content <;> simp [noteRest?, name]

theorem members?_isSome_iff (content : Content) :
    content.members?.isSome ↔
      content.name ∈ ["chord", "tie", "slur", "beam", "tuplet"] := by
  cases content <;> simp [members?, name]

/-- A chord is known by its name and its members. -/
theorem eq_chord
    {content : Content} {members : Members}
    (isChord : content.name = "chord")
    (listed : content.members? = some members) :
    content = .chord members := by
  cases content <;> simp_all [members?, name]

/-! ## Changes of a note or of the members keep the kind -/

@[simp]
theorem name_mapNote (change : Note → Note) (content : Content) :
    (content.mapNote change).name = content.name := by
  cases content <;> rfl

@[simp]
theorem name_mapNoteRest
    (change : NoteRest → NoteRest) (content : Content) :
    (content.mapNoteRest change).name = content.name := by
  cases content <;> rfl

@[simp]
theorem name_mapMembers
    (change : Members → Members) (content : Content) :
    (content.mapMembers change).name = content.name := by
  cases content <;> rfl

@[simp]
theorem members?_mapNote (change : Note → Note) (content : Content) :
    (content.mapNote change).members? = content.members? := by
  cases content <;> rfl

@[simp]
theorem members?_mapNoteRest
    (change : NoteRest → NoteRest) (content : Content) :
    (content.mapNoteRest change).members? = content.members? := by
  cases content <;> rfl

@[simp]
theorem members?_mapMembers
    (change : Members → Members) (content : Content) :
    (content.mapMembers change).members? = content.members?.map change := by
  cases content <;> rfl

/-- A relation is neither a note nor a rest. -/
theorem note?_eq_none_of_members?
    {content : Content} {members : Members}
    (related : content.members? = some members) :
    content.note? = none := by
  cases content <;> simp_all [members?, note?]

/-- Changing the members of a relation twice is changing them once. -/
theorem mapMembers_mapMembers
    (first second : Members → Members) (content : Content) :
    (content.mapMembers first).mapMembers second =
      content.mapMembers fun members => second (first members) := by
  cases content <;> rfl

theorem mapMembers_self (content : Content) :
    (content.mapMembers fun members => members) = content := by
  cases content <;> rfl

end Content

namespace Model

/-! ## Looking up -/

theorem get?_eq_none_iff {model : Model} {handle : Handle} :
    model.get? handle = none ↔ model.size ≤ handle := by
  simp [get?, size]

theorem lt_size_of_get?
    {model : Model} {handle : Handle} {object : Object}
    (found : model.get? handle = some object) :
    handle < model.size := by
  apply Nat.lt_of_not_le
  intro outside
  rw [get?_eq_none_iff.mpr outside] at found
  cases found

theorem exists_get?_of_lt_size
    {model : Model} {handle : Handle}
    (inside : handle < model.size) :
    ∃ object, model.get? handle = some object := by
  rw [← Option.ne_none_iff_exists']
  intro missing
  exact absurd (get?_eq_none_iff.mp missing) (Nat.not_le.mpr inside)

theorem content?_eq_some_iff
    {model : Model} {handle : Handle} {content : Content} :
    model.content? handle = some content ↔
      ∃ object, model.get? handle = some object ∧
        object.content = content := by
  simp [content?]

theorem lt_size_of_content?
    {model : Model} {handle : Handle} {content : Content}
    (found : model.content? handle = some content) :
    handle < model.size := by
  obtain ⟨object, at_handle, _⟩ := content?_eq_some_iff.mp found
  exact lt_size_of_get? at_handle

theorem content?_size (model : Model) : model.content? model.size = none := by
  rw [Option.eq_none_iff_forall_ne_some]
  intro content found
  exact Nat.lt_irrefl _ (lt_size_of_content? found)

/-! ## One object at a time -/

@[simp]
theorem size_add (model : Model) (id : Int) (content : Content) :
    (model.add id content).size = model.size + 1 := by
  simp [add, size]

@[simp]
theorem size_modify
    (model : Model) (handle : Handle) (change : Object → Object) :
    (model.modify handle change).size = model.size := by
  simp [modify, size]

@[simp]
theorem size_modifyContent
    (model : Model) (handle : Handle) (change : Content → Content) :
    (model.modifyContent handle change).size = model.size := by
  simp [modifyContent]

theorem get?_add
    (model : Model) (id : Int) (content : Content) (handle : Handle) :
    (model.add id content).get? handle =
      if handle = model.size then some { id := id, content := content }
      else model.get? handle := by
  rw [get?, add, Array.getElem?_push]
  rfl

theorem get?_modify
    (model : Model) (changed : Handle) (change : Object → Object)
    (handle : Handle) :
    (model.modify changed change).get? handle =
      if handle = changed then (model.get? handle).map change
      else model.get? handle := by
  simp only [get?, modify, Array.getElem?_modify, eq_comm]

theorem get?_modifyContent
    (model : Model) (changed : Handle) (change : Content → Content)
    (handle : Handle) :
    (model.modifyContent changed change).get? handle =
      (model.get? handle).map fun object =>
        { object with
          content :=
            if handle = changed then change object.content
            else object.content } := by
  rw [modifyContent, get?_modify]
  split
  · rfl
  · simp

theorem content?_modifyContent
    (model : Model) (changed : Handle) (change : Content → Content)
    (handle : Handle) :
    (model.modifyContent changed change).content? handle =
      (model.content? handle).map fun content =>
        if handle = changed then change content else content := by
  simp only [content?, get?_modifyContent, Option.map_map]
  rfl

end Model

end LdpScore
