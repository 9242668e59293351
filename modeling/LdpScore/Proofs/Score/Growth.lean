import LdpScore.Proofs.Score.Change

/-!
# How a score in the making grows

An element of the text becomes one new object, under the anchor of the element if
it has one.  `Draft.get?_addObject` says what every object of the model is
afterwards, and `Draft.clashes_addObject` what is reported about the id.  A report
about anything else leaves both alone: `Draft.Silent` is that relation.
-/

namespace LdpScore

/-! ## Objects of elements -/

namespace Model

/-- Whether an anchor, if there is one, is an object of a model. -/
def HasAnchor (model : Model) (anchor : Option Handle) : Prop :=
  ∀ handle, anchor = some handle → handle < model.size

theorem hasAnchor_none (model : Model) : model.HasAnchor none := by
  intro handle impossible
  cases impossible

theorem hasAnchor_some
    {model : Model} {handle : Handle} (inside : handle < model.size) :
    model.HasAnchor (some handle) := by
  intro other equal
  cases equal
  exact inside

theorem HasAnchor.mono
    {before after : Model} {anchor : Option Handle}
    (anchored : before.HasAnchor anchor)
    (grown : before.size ≤ after.size) :
    after.HasAnchor anchor := by
  intro handle equal
  exact Nat.lt_of_lt_of_le (anchored handle equal) grown

theorem parent?_add_size
    (model : Model) (id : Int) (content : Content) :
    (model.add id content).parent? model.size = none := by
  simp [parent?, get?_add]

/-- A new object has no parent to be taken away from. -/
theorem get?_add_appendChild
    (model : Model) (id : Int) (content : Content)
    {parent : Handle} (inside : parent < model.size) (handle : Handle) :
    ((model.add id content).appendChild parent model.size).get? handle =
      if handle = model.size then
        some { id := id, content := content, parent := some parent }
      else
        (model.get? handle).map fun object =>
          { object with
            children :=
              if handle = parent then object.children ++ [model.size]
              else object.children } := by
  have parentOld : parent ≠ model.size := Nat.ne_of_lt inside
  simp only [appendChild, detach, parent?_add_size, get?_modify, get?_add]
  by_cases isNew : handle = model.size
  · subst isNew
    simp [Ne.symm parentOld]
  · by_cases isParent : handle = parent
    · subst isParent
      simp [isNew]
    · simp [isNew, isParent]

@[simp]
theorem size_detach (model : Model) (child : Handle) :
    (model.detach child).size = model.size := by
  rw [detach]
  split
  · exact size_modify ..
  · rfl

@[simp]
theorem size_appendChild (model : Model) (parent child : Handle) :
    (model.appendChild parent child).size = model.size := by
  simp [appendChild]

@[simp]
theorem root_detach (model : Model) (child : Handle) :
    (model.detach child).root = model.root := by
  rw [detach]
  split <;> rfl

@[simp]
theorem root_appendChild (model : Model) (parent child : Handle) :
    (model.appendChild parent child).root = model.root := by
  simp [appendChild, modify]

end Model

/-- Where taken ids are reported, in order. -/
def clashLocations (diagnostics : Array Diagnostic) : List Location :=
  (diagnostics.toList.filter fun diagnostic =>
    diagnostic.problem == .idTaken).map Diagnostic.location

namespace Draft

/-- The id that the next object gets if the text asks for an id or for none. -/
def nextId (draft : Draft) (wanted : Option Int) : Int :=
  (draft.ids.assign wanted).1.id

/-- Whether an id that the text asks for is taken. -/
def isClash (draft : Draft) (wanted : Option Int) : Bool :=
  wanted.any draft.ids.isTaken

/-- Where taken ids were reported so far. -/
def clashes (draft : Draft) : List Location :=
  clashLocations draft.diagnostics

theorem assignId_fst
    (draft : Draft) (wanted : Option Int) (location : Location) :
    (draft.assignId wanted location).1 = draft.nextId wanted := by
  rw [assignId, nextId]
  rcases draft.ids.assign wanted with ⟨granted | replaced, rest⟩ <;> rfl

theorem model_assignId
    (draft : Draft) (wanted : Option Int) (location : Location) :
    (draft.assignId wanted location).2.model = draft.model := by
  rw [assignId]
  rcases draft.ids.assign wanted with ⟨granted | replaced, rest⟩ <;> rfl

theorem ids_assignId
    (draft : Draft) (wanted : Option Int) (location : Location) :
    (draft.assignId wanted location).2.ids =
      (draft.ids.assign wanted).2 := by
  rw [assignId]
  rcases draft.ids.assign wanted with ⟨granted | replaced, rest⟩ <;> rfl

theorem clashes_assignId
    (draft : Draft) (wanted : Option Int) (location : Location) :
    (draft.assignId wanted location).2.clashes =
      draft.clashes ++
        if draft.isClash wanted then [location] else [] := by
  cases wanted with
  | none =>
      simp [assignId, IdPool.assign, isClash, clashes, clashLocations]
  | some id =>
      by_cases taken : draft.ids.isTaken id = true
      · simp [assignId, IdPool.assign, isClash, clashes, clashLocations,
          report, taken]
      · simp [assignId, IdPool.assign, isClash, clashes, clashLocations,
          taken]

/-- The handle of a new object is the size of the model before. -/
theorem addObject_fst
    (draft : Draft) (wanted : Option Int) (location : Location)
    (anchor : Option Handle) (content : Content) :
    (draft.addObject wanted location anchor content).1 =
      draft.model.size := by
  simp only [addObject, model_assignId]

theorem size_addObject
    (draft : Draft) (wanted : Option Int) (location : Location)
    (anchor : Option Handle) (content : Content) :
    (draft.addObject wanted location anchor content).2.model.size =
      draft.model.size + 1 := by
  cases anchor <;> simp [addObject, mapModel, model_assignId]

theorem root_addObject
    (draft : Draft) (wanted : Option Int) (location : Location)
    (anchor : Option Handle) (content : Content) :
    (draft.addObject wanted location anchor content).2.model.root =
      draft.model.root := by
  cases anchor <;>
    simp [addObject, mapModel, model_assignId, Model.add]

theorem ids_addObject
    (draft : Draft) (wanted : Option Int) (location : Location)
    (anchor : Option Handle) (content : Content) :
    (draft.addObject wanted location anchor content).2.ids =
      (draft.ids.assign wanted).2 := by
  simp [addObject, mapModel, ids_assignId]

theorem clashes_addObject
    (draft : Draft) (wanted : Option Int) (location : Location)
    (anchor : Option Handle) (content : Content) :
    (draft.addObject wanted location anchor content).2.clashes =
      draft.clashes ++
        if draft.isClash wanted then [location] else [] := by
  rw [← clashes_assignId]
  simp [addObject, mapModel, clashes]

/--
Adding the object of an element adds one object under the anchor and otherwise
changes nothing but the children of the anchor.
-/
theorem get?_addObject
    (draft : Draft) (wanted : Option Int) (location : Location)
    {anchor : Option Handle} (anchored : draft.model.HasAnchor anchor)
    (content : Content) (handle : Handle) :
    (draft.addObject wanted location anchor content).2.model.get? handle =
      if handle = draft.model.size then
        some {
          id := draft.nextId wanted
          content := content
          parent := anchor }
      else
        (draft.model.get? handle).map fun object =>
          { object with
            children :=
              if anchor = some handle then
                object.children ++ [draft.model.size]
              else object.children } := by
  cases anchor with
  | none =>
      simp only [addObject, mapModel, model_assignId, assignId_fst,
        Model.get?_add]
      simp
  | some parent =>
      have inside : parent < draft.model.size := anchored parent rfl
      simp only [addObject, mapModel, model_assignId, assignId_fst,
        Model.get?_add_appendChild _ _ _ inside, Option.some.injEq,
        eq_comm]

/-! ## Reports -/

/-- A report comes after those before it. -/
theorem prefix_report
    (draft : Draft) (location : Location) (problem : Problem) :
    draft.diagnostics.toList <+:
      (draft.report location problem).diagnostics.toList := by
  rw [report, Array.toList_push]
  exact List.prefix_append _ _

theorem prefix_assignId
    (draft : Draft) (wanted : Option Int) (location : Location) :
    draft.diagnostics.toList <+:
      (draft.assignId wanted location).2.diagnostics.toList := by
  rw [assignId]
  rcases draft.ids.assign wanted with ⟨granted | replaced, rest⟩
  · exact List.prefix_refl _
  · exact prefix_report { draft with ids := rest } location .idTaken

/-- Two drafts with the same model and ids, and the same reports of taken ids.
Whatever was reported before stays. -/
structure Silent (before after : Draft) : Prop where
  model : after.model = before.model
  ids : after.ids = before.ids
  clashes : after.clashes = before.clashes
  reports : before.diagnostics.toList <+: after.diagnostics.toList

namespace Silent

theorem refl (draft : Draft) : Silent draft draft :=
  ⟨rfl, rfl, rfl, List.prefix_refl _⟩

theorem trans
    {first middle last : Draft}
    (earlier : Silent first middle) (later : Silent middle last) :
    Silent first last :=
  ⟨later.model.trans earlier.model, later.ids.trans earlier.ids,
    later.clashes.trans earlier.clashes, earlier.reports.trans later.reports⟩

/-- A report of anything but a taken id is silent. -/
theorem report
    (draft : Draft) (location : Location)
    {problem : Problem} (other : problem ≠ .idTaken) :
    Silent draft (draft.report location problem) := by
  constructor
  · rfl
  · rfl
  · simp [Draft.clashes, clashLocations, Draft.report, other]
  · exact draft.prefix_report location problem

end Silent

/-- Whatever was reported stays. -/
def KeepsReports (before after : Draft) : Prop :=
  before.diagnostics.toList <+: after.diagnostics.toList

namespace KeepsReports

variable {first middle last before after : Draft}

theorem refl (draft : Draft) : KeepsReports draft draft :=
  List.prefix_refl _

theorem trans
    (earlier : KeepsReports first middle) (later : KeepsReports middle last) :
    KeepsReports first last :=
  List.IsPrefix.trans earlier later

theorem of_eq (same : after.diagnostics = before.diagnostics) :
    KeepsReports before after :=
  ⟨[], by rw [List.append_nil, same]⟩

theorem report (draft : Draft) (location : Location) (problem : Problem) :
    KeepsReports draft (draft.report location problem) :=
  draft.prefix_report location problem

theorem mem
    (keeps : KeepsReports before after) {diagnostic : Diagnostic}
    (reported : diagnostic ∈ before.diagnostics) :
    diagnostic ∈ after.diagnostics := by
  rw [← Array.mem_toList_iff] at reported ⊢
  exact keeps.subset reported

/-- Where nothing has been reported in the end, nothing was reported before. -/
theorem nothing
    (keeps : KeepsReports before after) (silent : after.diagnostics = #[]) :
    before.diagnostics = #[] := by
  rw [KeepsReports, silent] at keeps
  exact Array.toList_eq_nil_iff.mp (List.prefix_nil.mp keeps)

end KeepsReports

theorem mem_report (draft : Draft) (location : Location) (problem : Problem) :
    ⟨problem, location⟩ ∈ (draft.report location problem).diagnostics :=
  Array.mem_push_self

end Draft

end LdpScore
