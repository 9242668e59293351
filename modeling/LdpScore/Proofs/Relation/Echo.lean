import LdpScore.Proofs.Score.Growth
import LdpScore.Relation.Tie
import Mathlib.Data.Option.Basic

/-!
# The same objects further on

The objects of an instrument refer to each other by handles.  Where other objects
come first, the same music has later handles: `shift` is what becomes of an object
then.

`Model.Echoes` compares the model of an instrument alone with a model that holds
the instrument after other objects.  Every object of the first has its echo in the
second, and the other objects are as they were.  Ids are not compared, and a tie
that is numbered after its id is so in both.
-/

namespace LdpScore

/-! ## Shifting handles -/

/-- Members with later handles. -/
def shiftMembers (base : Handle) (members : Members) : Members :=
  members.map fun member => (base + member.1, member.2)

/-- A note whose ties and chord have later handles. -/
def Note.shift (base : Handle) (note : Note) : Note :=
  { note with
    tieNext := note.tieNext.map (base + ·)
    tiePrevious := note.tiePrevious.map (base + ·)
    chord := note.chord.map (base + ·) }

namespace Content

/-- An object that refers to later handles. -/
def shift (base : Handle) (content : Content) : Content :=
  (content.mapNote (Note.shift base)).mapMembers (shiftMembers base)

variable (base : Handle) (content : Content)

theorem note?_shift :
    (content.shift base).note? = content.note?.map (Note.shift base) := by
  cases content <;> rfl

theorem noteRest?_shift :
    (content.shift base).noteRest? = content.noteRest? := by
  cases content <;> rfl

theorem members?_shift :
    (content.shift base).members? =
      content.members?.map (shiftMembers base) := by
  cases content <;> rfl

theorem mapNote_shift
    {change other : Note → Note}
    (fits : ∀ note, other (note.shift base) = (change note).shift base) :
    (content.shift base).mapNote other =
      (content.mapNote change).shift base := by
  cases content
  case note it => exact congrArg Content.note (fits it)
  all_goals rfl

theorem mapNoteRest_shift (change : NoteRest → NoteRest) :
    (content.shift base).mapNoteRest change =
      (content.mapNoteRest change).shift base := by
  cases content <;> rfl

/-- Two objects are the same up to later handles; `id` and `other` are their ids. -/
inductive Echoes (base : Handle) (id other : Int) : Content → Content → Prop
  | shifted (content : Content) :
      Echoes base id other content (content.shift base)
  /-- Both are ties that are numbered after their ids. -/
  | numbered (color : Option Color) (members : Members) :
      Echoes base id other (.tie (Tie.numberOfId id) color members)
        (.tie (Tie.numberOfId other) color (shiftMembers base members))

namespace Echoes

variable {base : Handle} {id other : Int} {alone within : Content}

theorem note? (echoes : Echoes base id other alone within) :
    within.note? = alone.note?.map (Note.shift base) := by
  cases echoes with
  | shifted => exact note?_shift base alone
  | numbered => rfl

theorem noteRest? (echoes : Echoes base id other alone within) :
    within.noteRest? = alone.noteRest? := by
  cases echoes with
  | shifted => exact noteRest?_shift base alone
  | numbered => rfl

theorem members? (echoes : Echoes base id other alone within) :
    within.members? = alone.members?.map (shiftMembers base) := by
  cases echoes with
  | shifted => exact members?_shift base alone
  | numbered => rfl

theorem mapNote
    (echoes : Echoes base id other alone within) {change change' : Note → Note}
    (fits : ∀ note, change' (note.shift base) = (change note).shift base) :
    Echoes base id other (alone.mapNote change) (within.mapNote change') := by
  cases echoes with
  | shifted =>
      rw [mapNote_shift base alone fits]
      exact .shifted _
  | numbered color members => exact .numbered color members

theorem mapNoteRest
    (echoes : Echoes base id other alone within)
    (change : NoteRest → NoteRest) :
    Echoes base id other (alone.mapNoteRest change)
      (within.mapNoteRest change) := by
  cases echoes with
  | shifted =>
      rw [mapNoteRest_shift base alone]
      exact .shifted _
  | numbered color members => exact .numbered color members

theorem mapMembers
    (echoes : Echoes base id other alone within)
    {change change' : Members → Members}
    (fits : ∀ members,
      change' (shiftMembers base members) =
        shiftMembers base (change members)) :
    Echoes base id other (alone.mapMembers change)
      (within.mapMembers change') := by
  cases echoes with
  | shifted =>
      have same : (alone.shift base).mapMembers change' =
          (alone.mapMembers change).shift base := by
        cases alone <;> simp [shift, Content.mapNote, Content.mapMembers, fits]
      rw [same]
      exact .shifted _
  | numbered color members =>
      show Echoes base id other (.tie _ color (change members))
        (.tie _ color (change' (shiftMembers base members)))
      rw [fits]
      exact .numbered color (change members)

end Echoes

end Content

/-! ## Models -/

/-- Where the music of an instrument comes to stand. -/
structure Site where
  /-- How many objects there are before it. -/
  base : Handle
  /-- The parent of the instrument. -/
  anchor : Option Handle
  /-- The objects that are there before it. -/
  earlier : Handle → Option Object
  /-- What was reported before it, apart from taken ids. -/
  reports : List Diagnostic
  /-- Whether the ids are the same as those of the instrument alone. -/
  sharesIds : Prop

/-- An object of an instrument alone, and the same object at a site.  The
instrument itself is the first of its objects. -/
structure Object.Echoes
    (site : Site) (handle : Handle) (alone within : Object) : Prop where
  content : Content.Echoes site.base alone.id within.id alone.content
    within.content
  parent : within.parent =
    if handle = 0 then site.anchor else alone.parent.map (site.base + ·)
  children : within.children = alone.children.map (site.base + ·)
  relations : within.relations = alone.relations.map (site.base + ·)
  id : site.sharesIds → within.id = alone.id

/-- A model of an instrument alone, and a model that has the instrument at a
site. -/
structure Model.Echoes (site : Site) (alone within : Model) : Prop where
  started : 0 < alone.size
  size : within.size = site.base + alone.size
  earlier : ∀ handle < site.base, within.get? handle = site.earlier handle
  later : ∀ handle,
    Option.Rel (Object.Echoes site handle) (alone.get? handle)
      (within.get? (site.base + handle))

namespace Model.Echoes

variable {site : Site} {alone within : Model}

/-- Every object has its echo. -/
theorem exists_echo
    (echoes : Echoes site alone within) {handle : Handle} {object : Object}
    (found : alone.get? handle = some object) :
    ∃ copy, within.get? (site.base + handle) = some copy ∧
      Object.Echoes site handle object copy := by
  have objects := echoes.later handle
  rw [found] at objects
  generalize within.get? _ = new at objects ⊢
  cases objects with
  | some echo => exact ⟨_, rfl, echo⟩

theorem content? (echoes : Echoes site alone within) (handle : Handle) :
    Option.Rel
      (fun old new => ∃ id other, Content.Echoes site.base id other old new)
      (alone.content? handle) (within.content? (site.base + handle)) := by
  have objects := echoes.later handle
  simp only [Model.content?]
  generalize alone.get? handle = old, within.get? _ = new at objects
  cases objects with
  | none => exact .none
  | some object => exact .some ⟨_, _, object.content⟩

theorem note? (echoes : Echoes site alone within) (handle : Handle) :
    within.note? (site.base + handle) =
      (alone.note? handle).map (Note.shift site.base) := by
  have contents := echoes.content? handle
  simp only [Model.note?]
  generalize alone.content? handle = old, within.content? _ = new at contents
  cases contents with
  | none => rfl
  | some content =>
      obtain ⟨id, other, content⟩ := content
      exact content.note?

theorem noteRest? (echoes : Echoes site alone within) (handle : Handle) :
    within.noteRest? (site.base + handle) = alone.noteRest? handle := by
  have contents := echoes.content? handle
  simp only [Model.noteRest?]
  generalize alone.content? handle = old, within.content? _ = new at contents
  cases contents with
  | none => rfl
  | some content =>
      obtain ⟨id, other, content⟩ := content
      exact content.noteRest?

theorem members? (echoes : Echoes site alone within) (handle : Handle) :
    within.members? (site.base + handle) =
      (alone.members? handle).map (shiftMembers site.base) := by
  have contents := echoes.content? handle
  simp only [Model.members?]
  generalize alone.content? handle = old, within.content? _ = new at contents
  cases contents with
  | none => rfl
  | some content =>
      obtain ⟨id, other, content⟩ := content
      exact content.members?

theorem parent?
    (echoes : Echoes site alone within) {handle : Handle}
    (later : handle ≠ 0) :
    within.parent? (site.base + handle) =
      (alone.parent? handle).map (site.base + ·) := by
  have objects := echoes.later handle
  simp only [Model.parent?]
  generalize alone.get? handle = old, within.get? _ = new at objects
  cases objects with
  | none => rfl
  | some object => exact object.parent.trans (if_neg later)

/-! ### Changes -/

theorem modify
    (echoes : Echoes site alone within) (changed : Handle)
    {change change' : Object → Object}
    (fits : ∀ object copy, Object.Echoes site changed object copy →
      Object.Echoes site changed (change object) (change' copy)) :
    Echoes site (alone.modify changed change)
      (within.modify (site.base + changed) change') := by
  refine ⟨?_, ?_, fun handle before => ?_, fun handle => ?_⟩
  · rw [size_modify]
    exact echoes.started
  · rw [size_modify, size_modify]
    exact echoes.size
  · have other : handle ≠ site.base + changed :=
      Nat.ne_of_lt (Nat.lt_add_right changed before)
    rw [get?_modify, if_neg other]
    exact echoes.earlier handle before
  · have objects := echoes.later handle
    rw [get?_modify, get?_modify]
    by_cases isChanged : handle = changed
    · subst isChanged
      rw [if_pos rfl, if_pos rfl]
      generalize alone.get? handle = old, within.get? _ = new at objects
      cases objects with
      | none => exact .none
      | some object => exact .some (fits _ _ object)
    · have other : site.base + handle ≠ site.base + changed :=
        fun same => isChanged (Nat.add_left_cancel same)
      rw [if_neg isChanged, if_neg other]
      exact objects

theorem modifyContent
    (echoes : Echoes site alone within) (changed : Handle)
    {change change' : Content → Content}
    (fits : ∀ {id other : Int} {old new : Content},
      Content.Echoes site.base id other old new →
        Content.Echoes site.base id other (change old) (change' new)) :
    Echoes site (alone.modifyContent changed change)
      (within.modifyContent (site.base + changed) change') := by
  refine echoes.modify changed fun object copy echo => ?_
  exact ⟨fits echo.content, echo.parent, echo.children, echo.relations, echo.id⟩

theorem modifyNote
    (echoes : Echoes site alone within) (changed : Handle)
    {change change' : Note → Note}
    (fits : ∀ note,
      change' (note.shift site.base) = (change note).shift site.base) :
    Echoes site (alone.modifyNote changed change)
      (within.modifyNote (site.base + changed) change') :=
  echoes.modifyContent changed fun content => content.mapNote fits

theorem modifyNoteRest
    (echoes : Echoes site alone within) (changed : Handle)
    (change : NoteRest → NoteRest) :
    Echoes site (alone.modifyNoteRest changed change)
      (within.modifyNoteRest (site.base + changed) change) :=
  echoes.modifyContent changed fun content => content.mapNoteRest change

theorem detach
    (echoes : Echoes site alone within) {child : Handle}
    (later : child ≠ 0) :
    Echoes site (alone.detach child) (within.detach (site.base + child)) := by
  rw [Model.detach, Model.detach, echoes.parent? later]
  cases alone.parent? child with
  | none => exact echoes
  | some parent =>
      refine echoes.modify parent fun object copy echo => ?_
      refine ⟨echo.content, echo.parent, ?_, echo.relations, echo.id⟩
      simp only [echo.children, List.filter_map]
      refine congrArg _ (List.filter_congr fun handle _ => ?_)
      simp [bne, Nat.add_left_cancel_iff]

theorem appendChild
    (echoes : Echoes site alone within) (parent : Handle) {child : Handle}
    (later : child ≠ 0) :
    Echoes site (alone.appendChild parent child)
      (within.appendChild (site.base + parent) (site.base + child)) := by
  refine ((echoes.detach later).modify child fun object copy echo => ?_).modify
    parent fun object copy echo => ?_
  · refine ⟨echo.content, ?_, echo.children, echo.relations, echo.id⟩
    rw [if_neg later]
    rfl
  · refine ⟨echo.content, echo.parent, ?_, echo.relations, echo.id⟩
    simp [echo.children]

theorem includeMember
    (echoes : Echoes site alone within) (relation member : Handle)
    (role : Role) :
    Echoes site (alone.includeMember relation member role)
      (within.includeMember (site.base + relation) (site.base + member)
        role) := by
  rw [Model.includeMember, Model.includeMember, echoes.members?]
  cases alone.members? relation with
  | none => exact echoes
  | some members =>
      refine Echoes.modify ?_ member fun object copy echo => ?_
      · refine echoes.modifyContent relation fun content =>
          content.mapMembers fun members => ?_
        simp [shiftMembers]
      · refine ⟨echo.content, echo.parent, echo.children, ?_, echo.id⟩
        simp [echo.relations]

/-- A new object is an echo if it has the same content. -/
theorem add
    (echoes : Echoes site alone within) {id other : Int} {old new : Content}
    (content : Content.Echoes site.base id other old new)
    (sameId : site.sharesIds → other = id) :
    Echoes site (alone.add id old) (within.add other new) := by
  have started := echoes.started
  have size := echoes.size
  refine ⟨?_, ?_, fun handle before => ?_, fun handle => ?_⟩
  · rw [size_add]
    omega
  · rw [size_add, size_add, size, Nat.add_assoc]
  · have old : handle ≠ within.size :=
      Nat.ne_of_lt (size ▸ Nat.lt_add_right alone.size before)
    rw [get?_add, if_neg old]
    exact echoes.earlier handle before
  · rw [get?_add, get?_add, size]
    by_cases isNew : handle = alone.size
    · have later : handle ≠ 0 := isNew ▸ Nat.ne_of_gt started
      rw [if_pos isNew, if_pos (congrArg _ isNew)]
      refine .some ⟨content, ?_, rfl, rfl, sameId⟩
      rw [if_neg later]
      rfl
    · have other : site.base + handle ≠ site.base + alone.size :=
        fun same => isNew (Nat.add_left_cancel same)
      rw [if_neg isNew, if_neg other]
      exact echoes.later handle

end Model.Echoes

/-! ## Drafts -/

/-- What was reported so far, apart from taken ids. -/
def Draft.remarks (draft : Draft) : List Diagnostic :=
  draft.diagnostics.toList.filter fun diagnostic =>
    diagnostic.problem != .idTaken

theorem Draft.remarks_report
    (draft : Draft) (location : Location) (problem : Problem) :
    (draft.report location problem).remarks =
      draft.remarks ++ [⟨problem, location⟩].filter
        fun diagnostic => diagnostic.problem != .idTaken := by
  rw [remarks, report, Array.toList_push, List.filter_append]
  rfl

/-- A taken id is no remark. -/
theorem Draft.remarks_assignId
    (draft : Draft) (wanted : Option Int) (location : Location) :
    (draft.assignId wanted location).2.remarks = draft.remarks := by
  rw [assignId]
  rcases draft.ids.assign wanted with ⟨granted | replaced, rest⟩
  · rfl
  · exact (remarks_report _ _ _).trans (List.append_nil _)

theorem Draft.remarks_addObject
    (draft : Draft) (wanted : Option Int) (location : Location)
    (anchor : Option Handle) (content : Content) :
    (draft.addObject wanted location anchor content).2.remarks =
      draft.remarks :=
  draft.remarks_assignId wanted location

/-- A draft of an instrument alone, and one that has the instrument at a site. -/
structure Draft.Echoes (site : Site) (alone within : Draft) : Prop where
  model : Model.Echoes site alone.model within.model
  remarks : within.remarks = site.reports ++ alone.remarks
  ids : site.sharesIds → within.ids = alone.ids

/-- What a change of a draft returns, and the draft after it, in both. -/
structure Draft.EchoesWith
    {Value Value' : Type} (site : Site) (shift : Value → Value')
    (alone : Value × Draft) (within : Value' × Draft) : Prop where
  value : within.1 = shift alone.1
  draft : Draft.Echoes site alone.2 within.2

namespace Draft.Echoes

variable {site : Site} {alone within : Draft}

theorem report
    (echoes : Echoes site alone within) (location : Location)
    (problem : Problem) :
    Echoes site (alone.report location problem)
      (within.report location problem) := by
  refine ⟨echoes.model, ?_, echoes.ids⟩
  rw [remarks_report, remarks_report, echoes.remarks, List.append_assoc]

theorem mapModel
    (echoes : Echoes site alone within) {change change' : Model → Model}
    (fits : Model.Echoes site (change alone.model) (change' within.model)) :
    Echoes site (alone.mapModel change) (within.mapModel change') :=
  ⟨fits, echoes.remarks, echoes.ids⟩

theorem includeMember
    (echoes : Echoes site alone within) (relation member : Handle)
    (role : Role) :
    Echoes site (alone.includeMember relation member role)
      (within.includeMember (site.base + relation) (site.base + member)
        role) :=
  echoes.mapModel (echoes.model.includeMember relation member role)

/-- A new object under a generated id. -/
theorem create
    (echoes : Echoes site alone within) {old new : Content}
    (content : Content.Echoes site.base alone.ids.next.1 within.ids.next.1
      old new) :
    EchoesWith site (site.base + ·) (alone.create old) (within.create new) := by
  refine ⟨echoes.model.size, ?_, echoes.remarks, fun shares => ?_⟩
  · refine echoes.model.add content fun shares => ?_
    rw [echoes.ids shares]
  · exact congrArg (fun ids : IdPool => ids.next.2) (echoes.ids shares)

theorem nextId
    (echoes : Echoes site alone within) (wanted : Option Int)
    (shares : site.sharesIds) :
    within.nextId wanted = alone.nextId wanted := by
  rw [Draft.nextId, Draft.nextId, echoes.ids shares]

/-- The object of an element. -/
theorem addObject
    (echoes : Echoes site alone within) (wanted : Option Int)
    (location : Location) (anchor : Option Handle) {content : Content}
    (plain : content.shift site.base = content) :
    EchoesWith site (site.base + ·)
      (alone.addObject wanted location anchor content)
      (within.addObject wanted location (anchor.map (site.base + ·))
        content) := by
  have started : alone.model.size ≠ 0 := Nat.ne_of_gt echoes.model.started
  have added : Model.Echoes site
      (alone.model.add (alone.nextId wanted) content)
      (within.model.add (within.nextId wanted) content) := by
    refine echoes.model.add ?_ (echoes.nextId wanted)
    have shifted : Content.Echoes site.base (alone.nextId wanted)
        (within.nextId wanted) content (content.shift site.base) :=
      .shifted content
    rw [plain] at shifted
    exact shifted
  refine ⟨?_, ?_, ?_, fun shares => ?_⟩
  · rw [addObject_fst, addObject_fst]
    exact echoes.model.size
  · simp only [Draft.addObject, Draft.mapModel, model_assignId, assignId_fst]
    cases anchor with
    | none => exact added
    | some parent =>
        simp only [Option.map_some, echoes.model.size]
        exact added.appendChild parent started
  · rw [remarks_addObject, remarks_addObject]
    exact echoes.remarks
  · rw [ids_addObject, ids_addObject, echoes.ids shares]

/-- What is done for every part of a list. -/
theorem foldl
    {Part : Type} {step step' : Draft → Part → Draft} {shift : Part → Part}
    (echoes : Echoes site alone within)
    (fits : ∀ alone within part, Echoes site alone within →
      Echoes site (step alone part) (step' within (shift part)))
    (parts : List Part) :
    Echoes site (parts.foldl step alone)
      ((parts.map shift).foldl step' within) := by
  induction parts generalizing alone within with
  | nil => exact echoes
  | cons part rest induction => exact induction (fits _ _ part echoes)

/-- A new relation, and what is done with it for every part of a list. -/
theorem createFoldl
    {Part : Type} (echoes : Echoes site alone within)
    (shift : Part → Part) (step : Handle → Draft → Part → Draft)
    (fits : ∀ relation alone within part, Echoes site alone within →
      Echoes site (step relation alone part)
        (step (site.base + relation) within (shift part)))
    (empty : Content) (plain : empty.shift site.base = empty)
    (parts : List Part) :
    Echoes site
      (parts.foldl (step (alone.create empty).1) (alone.create empty).2)
      ((parts.map shift).foldl (step (within.create empty).1)
        (within.create empty).2) := by
  have created := echoes.create (.shifted empty)
  rw [plain] at created
  rw [created.value]
  exact created.draft.foldl (fits _) parts

end Draft.Echoes

end LdpScore
