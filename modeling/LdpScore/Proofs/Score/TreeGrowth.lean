import LdpScore.Proofs.Score.Tree

/-!
# How trees grow

A score `Grows` below an anchor: new trees become the last ones there, and what is
new is listed in the order in which it was created.  It grows by one object at a
time, `Model.Sprouts`, and growth below a new object makes one new tree of it,
`Model.Sprouts.branch`.  Relations come without touching the trees,
`Model.KeepsTrees`.
-/

namespace LdpScore

namespace Model

/-- The trees are the same.  There may be more relations. -/
structure KeepsTrees (before after : Model) : Prop where
  size_le : before.size ≤ after.size
  root : after.root = before.root
  isElement : after.isElement = before.isElement
  parent? : after.parent? = before.parent?
  children : after.children = before.children

/-- One more object stands below an anchor. -/
structure Sprouts
    (anchor : Option Handle) (before after : Model) : Prop where
  size : after.size = before.size + 1
  root : after.root = before.root
  isElement : ∀ handle, after.isElement handle =
    (handle == before.size || before.isElement handle)
  parent? : ∀ handle, after.parent? handle =
    if handle = before.size then anchor else before.parent? handle
  children : ∀ handle, after.children handle = before.children handle ++
    if anchor = some handle then [before.size] else []

/-- Some trees have come to stand below an anchor. -/
structure Grows
    (anchor : Option Handle) (tops : List Handle) (before after : Model) :
    Prop where
  size_le : before.size ≤ after.size
  root : after.root = before.root
  isElement : ∀ handle < before.size,
    after.isElement handle = before.isElement handle
  parent? : ∀ handle < before.size,
    after.parent? handle = before.parent? handle
  children : ∀ handle < before.size,
    after.children handle = before.children handle ++
      if anchor = some handle then tops else []
  forest : after.Forest anchor tops (after.elementsFrom before.size)
  apart : ∀ handle, before.size ≤ handle → after.isElement handle = false →
    after.parent? handle = none ∧ after.children handle = []

namespace KeepsTrees

variable {before middle after : Model}

theorem refl (model : Model) : KeepsTrees model model :=
  ⟨Nat.le_refl _, rfl, rfl, rfl, rfl⟩

theorem of_eq (same : after = before) : KeepsTrees before after :=
  same ▸ .refl before

theorem trans
    (earlier : KeepsTrees before middle) (later : KeepsTrees middle after) :
    KeepsTrees before after :=
  ⟨Nat.le_trans earlier.size_le later.size_le,
    later.root.trans earlier.root, later.isElement.trans earlier.isElement,
    later.parent?.trans earlier.parent?,
    later.children.trans earlier.children⟩

/-- Objects stay what they are as far as the trees go. -/
theorem modify
    (model : Model) (changed : Handle) {change : Object → Object}
    (isElement : ∀ object, (change object).content.members?.isNone =
      object.content.members?.isNone)
    (parent : ∀ object, (change object).parent = object.parent)
    (children : ∀ object, (change object).children = object.children) :
    KeepsTrees model (model.modify changed change) := by
  refine ⟨Nat.le_of_eq (size_modify ..).symm, rfl, ?_, ?_, ?_⟩ <;> funext handle
  · rw [Model.isElement, Model.isElement, content?, content?, get?_modify]
    split
    · cases model.get? handle with
      | none => rfl
      | some object => exact isElement object
    · rfl
  · rw [Model.parent?, Model.parent?, get?_modify]
    split
    · cases model.get? handle with
      | none => rfl
      | some object => exact parent object
    · rfl
  · rw [children_eq_getD, children_eq_getD, get?_modify]
    split
    · cases model.get? handle with
      | none => rfl
      | some object => exact children object
    · rfl

theorem modifyContent
    (model : Model) (changed : Handle) {change : Content → Content}
    (same : ∀ content, (change content).members?.isNone =
      content.members?.isNone) :
    KeepsTrees model (model.modifyContent changed change) :=
  modify model changed (fun object => same object.content) (fun _ => rfl)
    fun _ => rfl

/-- What stands in a tree is replaced by something else that does. -/
theorem replaceContent
    {model : Model} {changed : Handle} (isElement : model.isElement changed)
    {content : Content} (noRelation : content.members? = none) :
    KeepsTrees model (model.modifyContent changed fun _ => content) := by
  refine ⟨Nat.le_of_eq (size_modifyContent ..).symm, rfl, ?_, ?_, ?_⟩ <;>
    funext handle
  · rw [Model.isElement, content?_modifyContent]
    by_cases isChanged : handle = changed
    · obtain ⟨old, found, _⟩ := (Option.any_eq_true ..).mp isElement
      rw [isChanged, isElement, found, Option.map_some, if_pos rfl,
        Option.any_some, noRelation]
      rfl
    · simp only [if_neg isChanged, Option.map_id']
      rfl
  · rw [Model.parent?, get?_modifyContent, Option.bind_map]
    rfl
  · rw [children_eq_getD, children_eq_getD, get?_modifyContent,
      Option.map_map]
    rfl

theorem modifyNote
    (model : Model) (changed : Handle) (change : Note → Note) :
    KeepsTrees model (model.modifyNote changed change) :=
  modifyContent model changed fun content => by
    rw [Content.members?_mapNote]

theorem modifyNoteRest
    (model : Model) (changed : Handle) (change : NoteRest → NoteRest) :
    KeepsTrees model (model.modifyNoteRest changed change) :=
  modifyContent model changed fun content => by
    rw [Content.members?_mapNoteRest]

theorem includeMember
    (model : Model) (relation member : Handle) (role : Role) :
    KeepsTrees model (model.includeMember relation member role) := by
  rw [Model.includeMember]
  split
  · dsimp only
    generalize isJoined : model.modifyContent relation _ = joined
    have keeps : KeepsTrees model joined := by
      rw [← isJoined]
      exact modifyContent model relation fun content => by
        rw [Content.members?_mapMembers, Option.isNone_map]
    refine keeps.trans (modify joined member ?_ ?_ ?_) <;> exact fun _ => rfl
  · exact .refl model

/-- A new relation stands apart. -/
theorem add
    (model : Model) (id : Int) {content : Content}
    (isRelation : content.members?.isNone = false) :
    KeepsTrees model (model.add id content) := by
  have outside : model.size ≤ model.size := Nat.le_refl _
  refine ⟨size_add model id content ▸ Nat.le_succ _, rfl, ?_, ?_, ?_⟩ <;>
    funext handle
  · rw [Model.isElement, content?, get?_add]
    split
    · rename_i isNew
      rw [isNew, isElement_of_size_le outside]
      exact isRelation
    · rfl
  · rw [Model.parent?, get?_add]
    split
    · rename_i isNew
      rw [isNew, parent?_of_size_le outside]
      rfl
    · rfl
  · rw [children_eq_getD, get?_add]
    split
    · rename_i isNew
      rw [isNew, children_of_size_le outside]
      rfl
    · exact (children_eq_getD model handle).symm

/-- Nothing has grown. -/
theorem grows
    (keeps : KeepsTrees before after) (anchor : Option Handle) :
    Grows anchor [] before after := by
  have nothing : after.elementsFrom before.size = [] := by
    rw [List.eq_nil_iff_forall_not_mem]
    intro handle isNew
    obtain ⟨outside, isElement⟩ := mem_elementsFrom.mp isNew
    rw [keeps.isElement, isElement_of_size_le outside] at isElement
    cases isElement
  refine ⟨keeps.size_le, keeps.root, fun handle _ => by rw [keeps.isElement],
    fun handle _ => by rw [keeps.parent?], fun handle _ => ?_, ?_,
    fun handle outside _ => ?_⟩
  · rw [keeps.children, ite_self, List.append_nil]
  · rw [nothing]
    exact .nil anchor
  · rw [keeps.parent?, keeps.children, parent?_of_size_le outside,
      children_of_size_le outside]
    exact ⟨rfl, rfl⟩

end KeepsTrees

namespace Grows

variable {anchor : Option Handle} {tops moreTops : List Handle}
variable {before middle after : Model}

/-- More trees come after those that are new. -/
theorem trans
    (earlier : Grows anchor tops before middle)
    (later : Grows anchor moreTops middle after)
    (anchored : before.HasAnchor anchor) :
    Grows anchor (tops ++ moreTops) before after := by
  have inside : ∀ handle < before.size, handle < middle.size :=
    fun handle isOld => Nat.lt_of_lt_of_le isOld earlier.size_le
  -- The anchor is old, so what is new already has all its children.
  have settled : ∀ handle < middle.size, before.size ≤ handle →
      after.children handle = middle.children handle := by
    intro handle isOld outside
    have notAnchor : anchor ≠ some handle := fun isAnchor =>
      Nat.not_lt.mpr outside (anchored handle isAnchor)
    rw [later.children handle isOld, if_neg notAnchor, List.append_nil]
  constructor
  · exact Nat.le_trans earlier.size_le later.size_le
  · exact later.root.trans earlier.root
  · exact fun handle isOld => (later.isElement handle (inside handle isOld)).trans
      (earlier.isElement handle isOld)
  · exact fun handle isOld => (later.parent? handle (inside handle isOld)).trans
      (earlier.parent? handle isOld)
  · intro handle isOld
    rw [later.children handle (inside handle isOld),
      earlier.children handle isOld, List.append_assoc]
    split <;> rfl
  · rw [elementsFrom_append earlier.size_le later.size_le later.isElement]
    refine .append (earlier.forest.congr ?_ ?_) later.forest
    · intro handle listed
      exact later.parent? handle
        (lt_size_of_isElement (mem_elementsFrom.mp listed).2)
    · intro handle listed
      obtain ⟨outside, isElement⟩ := mem_elementsFrom.mp listed
      exact settled handle (lt_size_of_isElement isElement) outside
  · intro handle outside isRelation
    by_cases isOld : handle < middle.size
    · rw [later.parent? handle isOld, settled handle isOld outside]
      rw [later.isElement handle isOld] at isRelation
      exact earlier.apart handle outside isRelation
    · exact later.apart handle (Nat.not_lt.mp isOld) isRelation

/-- What comes from nothing is arranged. -/
theorem arranged
    (grows : Grows none tops before after) (nothing : before.size = 0) :
    after.Arranged tops :=
  ⟨nothing ▸ grows.forest, fun handle => grows.apart handle
    (Nat.le_trans (Nat.le_of_eq nothing) (Nat.zero_le handle))⟩

end Grows

/-- What grows below a new object makes one tree of it. -/
theorem Sprouts.branch
    {anchor : Option Handle} {tops : List Handle}
    {before middle after : Model} (sprouts : Sprouts anchor before middle)
    (grows : Grows (some before.size) tops middle after)
    (anchored : before.HasAnchor anchor) :
    Grows anchor [before.size] before after := by
  have isNew : before.size < middle.size := by
    rw [sprouts.size]
    exact Nat.lt_succ_self _
  have isElement : after.isElement before.size := by
    rw [grows.isElement _ isNew, sprouts.isElement, beq_self_eq_true,
      Bool.true_or]
  constructor
  · exact Nat.le_trans (Nat.le_of_lt isNew) grows.size_le
  · exact grows.root.trans sprouts.root
  · intro handle isOld
    rw [grows.isElement handle (Nat.lt_trans isOld isNew), sprouts.isElement,
      beq_false_of_ne (Nat.ne_of_lt isOld), Bool.false_or]
  · intro handle isOld
    rw [grows.parent? handle (Nat.lt_trans isOld isNew), sprouts.parent?,
      if_neg (Nat.ne_of_lt isOld)]
  · intro handle isOld
    have other : some before.size ≠ some handle := fun same =>
      Nat.ne_of_gt isOld (Option.some.inj same)
    rw [grows.children handle (Nat.lt_trans isOld isNew), sprouts.children,
      if_neg other, List.append_nil]
  · have listed : after.elementsFrom before.size =
        before.size :: (after.elementsFrom middle.size ++ []) := by
      rw [elementsFrom_eq_cons isElement, List.append_nil, sprouts.size]
    have below : after.children before.size = tops := by
      have notAnchor : anchor ≠ some before.size := fun isAnchor =>
        Nat.lt_irrefl _ (anchored _ isAnchor)
      rw [grows.children _ isNew, if_pos rfl, sprouts.children,
        if_neg notAnchor, children_of_size_le (Nat.le_refl _)]
      rfl
    rw [listed]
    refine .cons ?_ (below ▸ grows.forest) (.nil anchor)
    rw [grows.parent? _ isNew, sprouts.parent?, if_pos rfl]
  · intro handle outside isRelation
    refine grows.apart handle ?_ isRelation
    rw [sprouts.size]
    refine Nat.lt_of_le_of_ne outside fun same => ?_
    rw [← same, isElement] at isRelation
    cases isRelation

end Model

/-- The object of an element sprouts from its anchor. -/
theorem Draft.sprouts_addObject
    (draft : Draft) (wanted : Option Int) (location : Location)
    {anchor : Option Handle} (anchored : draft.model.HasAnchor anchor)
    {content : Content} (noRelation : content.members? = none) :
    draft.model.Sprouts anchor
      (draft.addObject wanted location anchor content).2.model := by
  have added := draft.get?_addObject wanted location anchored content
  refine ⟨draft.size_addObject wanted location anchor content,
    draft.root_addObject wanted location anchor content, fun handle => ?_,
    fun handle => ?_, fun handle => ?_⟩
  · rw [Model.isElement, Model.content?, added, Model.isElement, Model.content?]
    by_cases isNew : handle = draft.model.size
    · rw [if_pos isNew, isNew, beq_self_eq_true, Bool.true_or,
        Option.map_some, Option.any_some, noRelation]
      rfl
    · rw [if_neg isNew, beq_false_of_ne isNew, Bool.false_or, Option.map_map]
      rfl
  · rw [Model.parent?, added]
    split
    · rfl
    · rw [Option.bind_map]
      rfl
  · rw [Model.children_eq_getD, added, Model.children_eq_getD]
    split
    · rename_i isNew
      have notAnchor : anchor ≠ some handle := fun isAnchor =>
        Nat.ne_of_lt (anchored handle isAnchor) isNew
      rw [if_neg notAnchor, isNew, Model.get?_eq_none_iff.mpr (Nat.le_refl _)]
      rfl
    · cases found : draft.model.get? handle with
      | none =>
          have notAnchor : anchor ≠ some handle := fun isAnchor =>
            Nat.not_lt.mpr (Model.get?_eq_none_iff.mp found)
              (anchored handle isAnchor)
          rw [if_neg notAnchor]
          rfl
      | some object =>
          rw [Option.map_some, Option.map_some, Option.map_some,
            Option.getD_some, Option.getD_some]
          dsimp only
          split
          · rfl
          · rw [List.append_nil]

end LdpScore
