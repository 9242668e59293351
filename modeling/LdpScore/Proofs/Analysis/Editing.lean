import LdpScore.Proofs.Analysis.Amending
import LdpScore.Proofs.Analysis.Reading
import LdpScore.Proofs.Analysis.Step
import LdpScore.Proofs.Analysis.Tracing

/-!
# Elements that join nothing

Most elements become objects without joining any notes: documents, texts, staff
objects, marks.  Their analysis `Edits` the score: it builds from its nodes
whatever the notes in scope are, and neither the open relations nor the last note
change.
-/

namespace LdpScore

/-- A score is edited: nothing is joined, and nothing else waits. -/
structure Edits
    (nodes : List Node) (before after : Analysis) : Prop where
  builds : ∀ scope, Builds nodes scope scope before after
  model : Model.Extends before.draft.model after.draft.model
  amends : before.Amends after
  lastNote : after.context.lastNote = before.context.lastNote

namespace Edits

variable {nodes more : List Node} {first before between after : Analysis}

theorem trans
    (earlier : Edits nodes before between)
    (later : Edits more between after) :
    Edits (nodes ++ more) before after := by
  constructor
  · intro scope
    exact (earlier.builds scope).trans (later.builds scope)
  · exact earlier.model.trans later.model
  · exact earlier.amends.trans later.amends
  · exact later.lastNote.trans earlier.lastNote

theorem mono
    (edits : Edits nodes before after) (part : nodes.Sublist more) :
    Edits more before after :=
  ⟨fun scope => (edits.builds scope).mono part, edits.model, edits.amends,
    edits.lastNote⟩

theorem of_agrees (agrees : before.Agrees after) : Edits [] before after := by
  constructor
  · intro scope
    exact .of_agrees scope agrees
  · rw [agrees.draft.model]
    exact .refl _
  · exact .of_agrees agrees
  · exact agrees.lastNote

instance : Tracing Edits where
  of_agrees := of_agrees
  trans := trans
  mono := mono

theorem pending (edits : Edits nodes before after) :
    after.pending = before.pending :=
  edits.amends.pending

theorem size_le (edits : Edits nodes before after) :
    before.draft.model.size ≤ after.draft.model.size :=
  edits.model.persists.size_le

end Edits

theorem Analysis.Agrees.hasAnchor
    {before after : Analysis} (agrees : before.Agrees after)
    {anchor : Option Handle}
    (anchored : before.draft.model.HasAnchor anchor) :
    after.draft.model.HasAnchor anchor := by
  rw [agrees.draft.model]
  exact anchored

namespace Analyser

variable {Value Result : Type}

/-- A step edits the score from some nodes, and a condition holds afterwards. -/
abbrev EditsWith
    (nodes : List Node) (action : Analyser Value) (before : Analysis)
    (post : Value → Analysis → Prop) : Prop :=
  Traces Edits nodes action before post

/-- A step only edits the score, from some nodes. -/
abbrev EditsFrom
    (nodes : List Node) (action : Analyser Value) (before : Analysis) : Prop :=
  EditsWith nodes action before fun _ _ => True

theorem EditsWith.discard
    {nodes : List Node} {action : Analyser Value} {before : Analysis}
    {post : Value → Analysis → Prop}
    (edits : EditsWith nodes action before post) :
    EditsFrom nodes (discard action) before :=
  Traces.discard edits fun _ _ _ => trivial

/-- A step edits the score from the first of some children, and returns among
others the children that it has left. -/
abbrev EditsPart
    (left : Value → List Node) (children : List Node)
    (action : Analyser Value) (before : Analysis)
    (post : Value → Analysis → Prop) : Prop :=
  TracesPart Edits left children action before post

/-- A step edits the score and returns one of its objects. -/
abbrev AddsOne
    (nodes : List Node) (action : Analyser Handle) (before : Analysis) :
    Prop :=
  EditsWith nodes action before fun handle after =>
    handle < after.draft.model.size

/-- A step edits the score and returns one of its objects or nothing. -/
abbrev AddsAtMostOne
    (nodes : List Node) (action : Analyser (Option Handle))
    (before : Analysis) :
    Prop :=
  EditsWith nodes action before fun result after =>
    after.draft.model.HasAnchor result

theorem AddsOne.some
    {nodes : List Node} {action : Analyser Handle} {before : Analysis}
    (adds : AddsOne nodes action before) :
    AddsAtMostOne nodes (some <$> action) before :=
  adds.map fun _ _ inside => Model.hasAnchor_some inside

/-! ## Single objects -/

/-- What is known of an object that was added for an element. -/
structure Added
    (anchor : Option Handle) (content : Content) (before : Analysis)
    (handle : Handle) (after : Analysis) : Prop where
  isNew : handle = before.draft.model.size
  content : after.draft.model.content? handle = some content
  under : after.draft.model.IsUnder anchor handle

theorem Added.lt_size
    {anchor : Option Handle} {content : Content} {before after : Analysis}
    {handle : Handle} (added : Added anchor content before handle after) :
    handle < after.draft.model.size :=
  Model.lt_size_of_content? added.content

/-- The object of an element is added, whatever it is. -/
theorem added_addObject
    (node : Node) {anchor : Option Handle} (content : Content)
    {before : Analysis} (anchored : before.draft.model.HasAnchor anchor) :
    Ensures (addObject node anchor content) before
      (Added anchor content before) := by
  have created := Draft.get?_addObject before.draft node.id? node.location
    anchored content before.draft.model.size
  rw [if_pos rfl] at created
  have isNew := Draft.addObject_fst before.draft node.id? node.location
    anchor content
  refine ⟨?_, ?_, ?_⟩
  · exact isNew
  · show Model.content? _
      (before.draft.addObject node.id? node.location anchor content).1 = _
    rw [isNew]
    exact congrArg (Option.map Object.content) created
  · show Model.IsUnder _ _
      (before.draft.addObject node.id? node.location anchor content).1
    rw [isNew]
    exact ⟨_, created, rfl⟩

theorem edits_addObject
    (node : Node) {anchor : Option Handle} {content : Content}
    {before : Analysis} (anchored : before.draft.model.HasAnchor anchor)
    (plain : content.IsPlain) (isFrom : content.isFrom node) :
    EditsWith [node] (addObject node anchor content) before
      (Added anchor content before) := by
  refine ⟨⟨?_, ?_, ?_, rfl⟩, added_addObject node content anchored⟩
  · intro scope
    exact .element scope node anchored plain.isFresh isFrom
  · exact .addObject _ _ _ anchored plain.isFresh
  · exact .addObject before _ _ anchored plain

/-- The object of an element is all that is added. -/
theorem addsOne_addObject
    (node : Node) {anchor : Option Handle} {content : Content}
    {before : Analysis} (anchored : before.draft.model.HasAnchor anchor)
    (plain : content.IsPlain) (isFrom : content.isFrom node) :
    AddsOne node.nodes (addObject node anchor content) before :=
  (edits_addObject node anchored plain isFrom).mono
    node.singleton_sublist_nodes fun _ _ _ added => added.lt_size

/-- Changing one object without changing its kind, what it is joined with or how
long it lasts. -/
theorem edits_modifyModel
    (handle : Handle) (change : Content → Content) (before : Analysis)
    (keeps : ∀ content, before.draft.model.content? handle = some content →
      content.Keeps (change content))
    (retains : ∀ content, before.draft.model.content? handle = some content →
      content.Retains (change content)) :
    EditsFrom [] (modifyModel fun model => model.modifyContent handle change)
      before := by
  refine ⟨⟨?_, ?_, ?_, rfl⟩, trivial⟩
  · intro scope
    exact .single fun earlier =>
      .revise ⟨before, scope, earlier⟩ handle change keeps
  · exact .modifyContent _ _ keeps
  · exact .modifyContent before handle keeps retains

/-- Changing anything but the modification of a note or rest. -/
theorem edits_modifyNoteRest
    (handle : Handle) {change : NoteRest → NoteRest} (before : Analysis)
    (modification : ∀ noteRest,
      (change noteRest).timeModification = noteRest.timeModification)
    (explicit : ∀ noteRest,
      (change noteRest).isModificationExplicit =
        noteRest.isModificationExplicit) :
    EditsFrom [] (modifyModel fun model => model.modifyNoteRest handle change)
      before :=
  edits_modifyModel handle _ before
    (fun content _ => .mapNoteRest change content)
    fun content _ => .mapNoteRest modification explicit content

/-- What edits for every child edits for all of them. -/
theorem edits_analyseEach
    {analyserOf : ElementKind → Option (Node → Analyser Unit)}
    {anchor : Handle}
    (each : ∀ kind analyser node before, analyserOf kind = some analyser →
      node.is kind → anchor < before.draft.model.size →
        EditsFrom node.nodes (analyser node) before)
    (children : List Node) {before : Analysis}
    (inside : anchor < before.draft.model.size) :
    EditsFrom (nodesOf children) (analyseEach analyserOf children) before := by
  have all : EditsWith (nodesOf children) (analyseEach analyserOf children)
      before fun _ after => anchor < after.draft.model.size := by
    refine Traces.analyseEach ?_ ?_ children inside
    · intro before after agrees inside
      rw [agrees.draft.model]
      exact inside
    · intro kind analyser node before known isKind inside
      refine (each kind analyser node before known isKind inside).mono
        (List.Sublist.refl _) fun _ after edits _ => ?_
      exact Nat.lt_of_lt_of_le inside edits.size_le
  exact all.mono (List.Sublist.refl _) fun _ _ _ _ => trivial

/-- An element becomes an object, and some of its children are edited below it. -/
theorem edits_addObject_analyseEach
    (node : Node) {anchor : Option Handle} {content : Content}
    {before : Analysis} (anchored : before.draft.model.HasAnchor anchor)
    (plain : content.IsPlain) (isFrom : content.isFrom node)
    {analyserOf : Handle → ElementKind → Option (Node → Analyser Unit)}
    (each : ∀ handle kind analyser child state,
      analyserOf handle kind = some analyser → child.is kind →
        handle < state.draft.model.size →
          EditsFrom child.nodes (analyser child) state)
    {children : List Node} (suffix : children <:+ node.children)
    (result : Handle → Value) {post : Value → Analysis → Prop}
    (returns : ∀ handle after, handle < after.draft.model.size →
      post (result handle) after) :
    EditsWith node.nodes
      (do
        let handle ← addObject node anchor content
        analyseEach (analyserOf handle) children
        return result handle)
      before post := by
  rw [Node.nodes_eq]
  refine (edits_addObject node anchored plain isFrom).bind
    fun handle middle _ added => ?_
  refine Traces.among ?_ (nodesOf_sublist suffix)
  have below := edits_analyseEach (each handle) children added.lt_size
  rw [← List.append_nil (nodesOf children)]
  refine below.bind fun _ later edits _ => .pure ?_
  exact returns handle later (Nat.lt_of_lt_of_le added.lt_size edits.size_le)

end Analyser

end LdpScore
