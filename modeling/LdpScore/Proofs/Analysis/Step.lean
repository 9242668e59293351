import LdpScore.Proofs.Analysis.Quiet
import LdpScore.Proofs.Relation.Chord
import LdpScore.Proofs.Relation.Curve
import Mathlib.Logic.Relation

/-!
# What an analysis can do

Whatever an element means, its analysis changes the score in one of a few ways.
`Step` lists them with all that is known when they happen, and `Run` is a series
of steps.  What holds of every analysed score is proved for one step and then
holds after every run.

A `Stage` is the state of an analysis with two things that the program does not
record: the music data whose notes can be joined at the moment, and where each
object comes from.
-/

namespace LdpScore

/-- Whether an object is one that an element of some kind becomes. -/
def Content.isOf : Content → ElementKind → Bool
  | document _ _, kind => kind == .document
  | body, kind => kind == .content
  | paragraph, kind => kind == .paragraph
  | heading _, kind => kind == .heading
  | textItem _, kind => kind == .textItem || kind == .string
  | score _ _, kind => kind == .score
  | title _ _ _, kind => kind == .title
  | scoreOption _ _, kind => kind == .option
  | instrument _ _ _, kind => kind == .instrument
  | musicData, kind => kind == .musicData
  | note _, kind => kind == .note || kind == .chordNote
  | rest _, kind => kind == .rest
  | clef _ _ _, kind => kind == .clef
  | keySignature _ _, kind => kind == .key
  | timeSignature _ _ _ _, kind => kind == .time
  | barline _ _ _ _, kind => kind == .barline
  | goBackForward isForward _, kind =>
      kind == if isForward then .goForward else .goBack
  | spacer _ _, kind => kind == .spacer
  | systemBreak, kind => kind == .newSystem
  | metronome _ _ _, kind => kind == .metronome
  | articulation own _ _, kind => kind == own
  | fermata _ _ _, kind => kind == .fermata
  | dynamics _ _ _, kind => kind == .dynamics
  | scoreText _ _, kind =>
      kind == .text || kind == .instrumentName || kind == .abbreviation
  | lyric _ _ _ _ _ _, kind => kind == .lyric
  | _, _ => false

/-- Whether an object is one that a node becomes. -/
def Content.isFrom (content : Content) (node : Node) : Bool :=
  node.kind?.any content.isOf

theorem Content.isFrom_of_is
    {content : Content} {node : Node} {kind : ElementKind}
    (isKind : node.is kind) (isOf : content.isOf kind) :
    content.isFrom node := by
  rw [isFrom, beq_iff_eq.mp isKind]
  exact isOf

namespace Pending

/-- The notes and rests whose descriptors wait, relation by relation. -/
def members (pending : Pending) : List Handle :=
  pending.ties.map TiePoint.note ++ LegacyTie.members pending.legacyTie ++
    pending.slurs.map SlurPoint.note ++
    pending.beams.map BeamPoint.noteRest ++
    pending.legacyBeam.map BeamPoint.noteRest ++
    pending.tuplets.map TupletPoint.noteRest

end Pending

/-- Whether a later note or rest may still be joined with the one at a handle. -/
def Analysis.Awaits (state : Analysis) (handle : Handle) : Prop :=
  handle ∈ state.pending.members ∨ state.context.lastNote = some handle

/-- Whether an object stands directly below a given parent, or below none. -/
def Model.IsUnder
    (model : Model) (parent : Option Handle) (handle : Handle) : Prop :=
  ∃ object, model.get? handle = some object ∧ object.parent = parent

/-- Whether a handle is that of an object, or of what a note takes for its
chord. -/
def Model.Knows (model : Model) (handle : Handle) : Prop :=
  handle < model.size ∨
    ∃ note, (model.note? note).bind Note.chord = some handle

theorem Model.Persists.isUnder
    {before after : Model} (persists : Model.Persists before after)
    {parent : Option Handle} {handle : Handle}
    (under : before.IsUnder parent handle) :
    after.IsUnder parent handle := by
  obtain ⟨object, found, isParent⟩ := under
  obtain ⟨later, foundLater, sameParent, _⟩ := persists handle object found
  exact ⟨later, foundLater, sameParent.trans isParent⟩

/-- The state of an analysis, the parent of the notes that are joined at the
moment, and the nodes that the objects come from.  Relations come from none. -/
structure Stage where
  state : Analysis
  scope : Option Handle
  origins : List (Option Node)

namespace Stage

/-- The score in the making. -/
abbrev draft (stage : Stage) : Draft :=
  stage.state.draft

/-- The model in the making. -/
abbrev model (stage : Stage) : Model :=
  stage.state.draft.model

/-- A stage with another draft. -/
def withDraft (stage : Stage) (draft : Draft) : Stage :=
  { stage with state := { stage.state with draft := draft } }

/-- Whether an object can be joined: it waits, or it is in scope. -/
def CanJoin (stage : Stage) (handle : Handle) : Prop :=
  stage.state.Awaits handle ∨ stage.model.IsUnder stage.scope handle

end Stage

/-- What an analysis can do at once. -/
inductive Stage.Step : Stage → Stage → Prop where
  /-- Settings change, and other objects in scope wait. -/
  | attend (stage : Stage) {after : Analysis}
      (silent : Draft.Silent stage.draft after.draft)
      (awaited : ∀ handle, after.Awaits handle → stage.CanJoin handle) :
      Step stage { stage with state := after }
  /-- While nothing waits, other notes come into scope. -/
  | enter (stage : Stage) (scope : Option Handle)
      (nothing : ∀ handle, ¬ stage.state.Awaits handle) :
      Step stage { stage with scope := scope }
  /-- A node becomes an object. -/
  | element (stage : Stage) (node : Node) (anchor : Option Handle)
      (content : Content)
      (anchored : stage.model.HasAnchor anchor)
      (fresh : content.IsFresh) (isFrom : content.isFrom node) :
      Step stage
        { stage.withDraft
            (stage.draft.addObject node.id? node.location anchor content).2 with
          origins := stage.origins ++ [some node] }
  /-- An object changes, but neither its kind nor what it is joined with. -/
  | revise (stage : Stage) (handle : Handle) (change : Content → Content)
      (keeps : ∀ content, stage.model.content? handle = some content →
        content.Keeps (change content)) :
      Step stage
        (stage.withDraft
          (stage.draft.mapModel fun model =>
            model.modifyContent handle change))
  /-- Objects are joined by a new relation. -/
  | relate (stage : Stage) {after : Draft} (content : Content)
      (created : Draft.Creates content stage.draft after)
      (admitted : stage.model.Admits content)
      (listed : ∀ member ∈ content.memberHandles, stage.CanJoin member) :
      Step stage
        { stage.withDraft after with origins := stage.origins ++ [none] }
  /-- A note joins the chord of the last one. -/
  | sound (stage : Stage) {base note chord : Handle}
      (waits : stage.state.Awaits base)
      (joined : (stage.model.note? base).bind Note.chord = some chord)
      (isNote : stage.model.IsNote note)
      (inScope : stage.model.IsUnder stage.scope note)
      (newest : stage.model.ChordsBelow note) :
      Step stage
        (stage.withDraft (Analyser.joinChord base note stage.draft))
  /-- An object becomes the root. -/
  | root (stage : Stage) (handle : Handle) (known : stage.model.Knows handle) :
      Step stage
        (stage.withDraft
          (stage.draft.mapModel fun model => model.setRoot handle))

/-- A series of steps. -/
abbrev Stage.Run : Stage → Stage → Prop :=
  Relation.ReflTransGen Step

/-- What holds at first and is kept by every step holds after every run. -/
theorem Stage.Run.preserves
    {invariant : Stage → Prop}
    (step : ∀ {before after}, Step before after →
      invariant before → invariant after)
    {first last : Stage} (run : Run first last)
    (holds : invariant first) :
    invariant last := by
  induction run with
  | refl => exact holds
  | tail _ next induction => exact step next induction

/--
An analysis runs from one state to another while the notes in scope change as
given, and the objects that it adds come from some of the nodes in a list, in
their order.
-/
def Builds
    (nodes : List Node) (scope scopeAfter : Option Handle)
    (before after : Analysis) : Prop :=
  ∃ origins : List (Option Node),
    (origins.filterMap id).Sublist nodes ∧
      ∀ earlier, Stage.Run ⟨before, scope, earlier⟩
        ⟨after, scopeAfter, earlier ++ origins⟩

namespace Builds

variable {nodes more : List Node} {scope scopeBetween scopeAfter : Option Handle}
variable {before between after : Analysis}

theorem trans
    (first : Builds nodes scope scopeBetween before between)
    (second : Builds more scopeBetween scopeAfter between after) :
    Builds (nodes ++ more) scope scopeAfter before after := by
  obtain ⟨origins, listed, run⟩ := first
  obtain ⟨later, listedLater, runLater⟩ := second
  refine ⟨origins ++ later, ?_, fun earlier => ?_⟩
  · rw [List.filterMap_append]
    exact listed.append listedLater
  · rw [← List.append_assoc]
    exact (run earlier).trans (runLater (earlier ++ origins))

theorem mono
    (builds : Builds nodes scope scopeAfter before after)
    (part : nodes.Sublist more) :
    Builds more scope scopeAfter before after := by
  obtain ⟨origins, listed, run⟩ := builds
  exact ⟨origins, listed.trans part, run⟩

/-- A single step that adds no object. -/
theorem single
    (step : ∀ earlier, Stage.Step ⟨before, scope, earlier⟩
      ⟨after, scopeAfter, earlier⟩) :
    Builds [] scope scopeAfter before after := by
  refine ⟨[], List.Sublist.slnil, fun earlier => ?_⟩
  rw [List.append_nil]
  exact .single (step earlier)

/-- Reading builds nothing. -/
theorem of_agrees
    (scope : Option Handle) (agrees : before.Agrees after) :
    Builds [] scope scope before after := by
  refine single fun earlier =>
    .attend ⟨before, scope, earlier⟩ agrees.draft fun handle waits => ?_
  unfold Analysis.Awaits at waits
  rw [agrees.pending, agrees.lastNote] at waits
  exact Or.inl waits

theorem element
    (scope : Option Handle) (node : Node) {anchor : Option Handle}
    {content : Content} (anchored : before.draft.model.HasAnchor anchor)
    (fresh : content.IsFresh) (isFrom : content.isFrom node) :
    Builds [node] scope scope before
      { before with
        draft := (before.draft.addObject node.id? node.location anchor
          content).2 } := by
  refine ⟨[some node], List.Sublist.refl _, fun earlier => ?_⟩
  exact .single
    (.element ⟨before, scope, earlier⟩ node anchor content anchored
      fresh isFrom)

theorem relate
    {scope : Option Handle} {kind : PairedRelation} {joining : List Handle}
    {later : Draft} (relates : Draft.Relates kind joining before.draft later)
    (canJoin : ∀ member ∈ joining,
      before.Awaits member ∨ before.draft.model.IsUnder scope member) :
    Builds [] scope scope before { before with draft := later } := by
  rcases relates with silent | ⟨content, created, admitted, _, listed⟩
  · exact single fun earlier =>
      .attend ⟨before, scope, earlier⟩ silent
        fun handle waits => Or.inl waits
  · refine ⟨[none], List.Sublist.slnil, fun earlier => ?_⟩
    exact .single
      (.relate ⟨before, scope, earlier⟩ content created admitted
        fun member isMember => canJoin member (listed isMember))

end Builds

end LdpScore
