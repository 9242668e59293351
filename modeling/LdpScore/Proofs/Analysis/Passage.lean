import LdpScore.Proofs.Analysis.Performing
import LdpScore.Proofs.Analysis.Run

/-!
# The passage of an analysis through the music

From the point of view of the music an analysis does one of two things: either it
leaves the music as it is, or it reads the element of a note or rest and settles its
relations turn by turn.  `Passage.Step` says so for every state whatever, and it says
exactly what is done: nothing but a turn joins objects.

A `Passage` keeps a record of the notes and rests that have been heard, each with
what its options ask for.
-/

namespace LdpScore

open Analyser

/-- A note or rest whose element has been read: its value, and what its options
ask for. -/
structure Heard extends Written where
  value : NoteValue
  decorations : Decorations
  reads : toWritten.Reads value decorations

/-- The state of an analysis, the notes and rests heard so far in order, and the one
that is being settled, with the turn that comes next. -/
structure Passage where
  state : Analysis
  heard : List Heard
  due : Option (Heard × Turn)

namespace Passage

/-- The model in the making. -/
abbrev model (passage : Passage) : Model :=
  passage.state.draft.model

/-- The relations that are still open. -/
abbrev pending (passage : Passage) : Pending :=
  passage.state.pending

/-- What is done at once. -/
inductive Step : Passage → Passage → Prop where
  /-- The music is left as it is. -/
  | aside (state : Analysis) (heard : List Heard) {after : Analysis}
      (leaves : state.Leaves state.draft.model.size after) :
      Step ⟨state, heard, none⟩ ⟨after, heard, none⟩
  /-- The element of a note or rest is read. -/
  | hear (state : Analysis) (heard : List Heard) (note : Heard)
      {after : Analysis}
      (introduced : Introduced note.flavor state
        (note.handle, note.value, note.decorations) after) :
      Step ⟨state, heard, none⟩
        ⟨after, heard ++ [note], some (note, Turn.first note.flavor)⟩
  /-- A note or rest has its next turn. -/
  | turn (state : Analysis) (heard : List Heard) (note : Heard) (turn : Turn) :
      Step ⟨state, heard, some (note, turn)⟩
        ⟨((turn.action note.toWritten note.value note.decorations).run
          state).run.2, heard, some (note, turn.next)⟩
  /-- A note joins the chord of another one. -/
  | sound (state : Analysis) (heard : List Heard) (note : Heard) (base : Handle) :
      Step ⟨state, heard, some (note, .chord)⟩
        ⟨{ state with draft := joinChord base note.handle state.draft }, heard,
          some (note, .chord)⟩
  /-- A note or rest is finished. -/
  | finish (state : Analysis) (heard : List Heard) (note : Heard)
      (context : Context) :
      Step ⟨state, heard, some (note, .chord)⟩
        ⟨{ state with context := context }, heard, none⟩
  /-- What waits is given up. -/
  | flush (state : Analysis) (heard : List Heard) :
      Step ⟨state, heard, none⟩ ⟨(clearPending.run state).run.2, heard, none⟩

/-- A series of steps. -/
abbrev Run : Passage → Passage → Prop :=
  Relation.ReflTransGen Step

/-- What holds at first and is kept by every step holds after every run. -/
theorem Run.preserves
    {invariant : Passage → Prop}
    (step : ∀ {before after}, Step before after →
      invariant before → invariant after)
    {first last : Passage} (run : Run first last) (holds : invariant first) :
    invariant last := by
  induction run with
  | refl => exact holds
  | tail _ next induction => exact step next induction

end Passage

/-- An analysis passes from one state to another, and the notes and rests that are
heard on the way come from some of the nodes in a list, in their order. -/
def Passes (nodes : List Node) (before after : Analysis) : Prop :=
  ∃ heard : List Heard,
    (heard.map fun note => note.node).Sublist nodes ∧
      ∀ earlier, Passage.Run ⟨before, earlier, none⟩
        ⟨after, earlier ++ heard, none⟩

namespace Passes

variable {nodes : List Node} {before after : Analysis}

/-- A single step at which nothing is heard. -/
theorem single
    (step : ∀ heard, Passage.Step ⟨before, heard, none⟩ ⟨after, heard, none⟩) :
    Passes nodes before after := by
  refine ⟨[], List.nil_sublist nodes, fun earlier => ?_⟩
  rw [List.append_nil]
  exact .single (step earlier)

theorem of_leaves (leaves : before.Leaves before.draft.model.size after) :
    Passes nodes before after :=
  single fun heard => .aside before heard leaves

instance : Tracing Passes where
  of_agrees agrees := .of_leaves (.of_agrees agrees)
  trans := by
    rintro nodes more first middle last ⟨heard, listed, run⟩
      ⟨later, listedLater, runLater⟩
    refine ⟨heard ++ later, ?_, fun earlier => ?_⟩
    · rw [List.map_append]
      exact listed.append listedLater
    · rw [← List.append_assoc]
      exact (run earlier).trans (runLater (earlier ++ heard))
  mono := by
    rintro nodes more before after ⟨heard, listed, run⟩ part
    exact ⟨heard, listed.trans part, run⟩

/-- At first nothing is heard. -/
theorem join
    {first middle last : Analysis} (earlier : Passes [] first middle)
    (later : Passes nodes middle last) :
    Passes nodes first last :=
  Tracing.trans earlier later

end Passes

namespace Analyser

variable {Value : Type} {nodes : List Node} {before : Analysis}
variable {anchor : Option Handle}

/-- A step passes over some nodes. -/
abbrev PassesOver
    (nodes : List Node) (action : Analyser Value) (before : Analysis) : Prop :=
  Traces Passes nodes action before fun _ _ => True

/-! ## Notes and rests -/

/-- The turns of a note or rest that have been taken. -/
def Took
    (note : Heard) (start turn : Turn) (before after : Analysis) : Prop :=
  ∀ heard, Passage.Run ⟨before, heard, some (note, start)⟩
    ⟨after, heard, some (note, turn)⟩

/-- One more turn is taken. -/
theorem Took.take
    {note : Heard} {start turn : Turn} {state : Analysis}
    (took : Took note start turn before state) :
    Ensures (turn.action note.toWritten note.value note.decorations) state
      fun _ after => Took note start turn.next before after :=
  fun heard => (took heard).tail (.turn state heard note turn)

/-- Every relation but the chord has its turn. -/
theorem took_settleRelations (note : Heard) (before : Analysis) :
    Ensures
      (settleRelations note.flavor note.node note.handle note.value.type
        note.decorations) before
      fun _ after => Took note (Turn.first note.flavor) .chord before after := by
  have start : Took note (Turn.first note.flavor) (Turn.first note.flavor) before
      before := fun _ => .refl
  exact turns_settleRelations note.value
    (fun turn state => Took note (Turn.first note.flavor) turn before state)
    (fun _ _ took => took.take) start

/-- A note or rest is settled. -/
theorem took_settleNoteRest
    (note : Heard) (base : Option Handle) (before : Analysis) :
    Ensures
      (settleNoteRest note.flavor note.node base note.handle note.value
        note.decorations) before
      fun _ after => ∀ heard, Passage.Run
        ⟨before, heard, some (note, Turn.first note.flavor)⟩
        ⟨after, heard, none⟩ := by
  have finished : ∀ (state : Analysis) (context : Context),
      (∀ heard, Passage.Run
        ⟨before, heard, some (note, Turn.first note.flavor)⟩
        ⟨state, heard, some (note, .chord)⟩) →
      ∀ heard, Passage.Run
        ⟨before, heard, some (note, Turn.first note.flavor)⟩
        ⟨{ state with context := context }, heard, none⟩ :=
    fun state context run heard =>
      (run heard).tail (.finish state heard note context)
  rw [settleNoteRest]
  apply Ensures.bind (took_settleRelations note before)
  intro factor middle took
  -- Joining a chord is a step of its own; moving on only changes the context.
  cases base with
  | none =>
      by_cases isNote : note.flavor ≠ .rest
      · rw [if_pos isNote]
        exact finished middle _ took
      · rw [if_neg isNote]
        exact finished middle _ took
  | some base =>
      have sounded := fun heard =>
        (took heard).tail (.sound middle heard note base)
      by_cases isNote : note.flavor ≠ .rest
      · rw [if_pos isNote]
        exact finished _ _ sounded
      · rw [if_neg isNote]
        exact finished _ _ sounded

theorem passes_analyseNoteRest
    (flavor : Flavor) (node : Node) (before : Analysis) :
    PassesOver [node] (analyseNoteRest flavor node anchor) before := by
  rw [analyseNoteRest]
  refine .readContext ?_
  apply Ensures.bind (Ensures.exactly
    (introduced_addNoteRest node anchor _ before))
  rintro ⟨handle, value, decorations⟩ middle ⟨wasRead, introduced⟩
  let note : Heard :=
    ⟨⟨handle, flavor, node⟩, value, decorations, anchor, _, before,
      congrArg Prod.fst wasRead⟩
  apply Ensures.bind (took_settleNoteRest note _ middle)
  intro _ last settled
  refine ⟨⟨[note], List.Sublist.refl _, fun earlier => ?_⟩, trivial⟩
  have heard : Passage.Step ⟨before, earlier, none⟩
      ⟨middle, earlier ++ [note], some (note, Turn.first flavor)⟩ :=
    .hear before earlier note introduced
  exact (settled (earlier ++ [note])).head heard

end Analyser

/-! ## Whole trees -/

/-- A performance is a passage through the notes and rests that are played. -/
theorem Performs.passes
    {cues : List Cue} {before after : Analysis}
    (performs : Performs cues before after) :
    Passes (Cue.nodes cues) before after := by
  induction performs with
  | done state => exact Tracing.of_agrees (.refl state)
  | aside aside _ induction =>
      exact .join (.of_leaves aside.toLeaves) induction
  | @flush _ first _ _ induction =>
      exact .join (.single fun heard => .flush first heard) induction
  | @start _ first _ _ induction =>
      have started : Passes [] first
          { first with context := first.context.startInstrument } :=
        .of_leaves (.of_model rfl rfl)
      exact started.join induction
  | play anchor _ induction =>
      exact Tracing.trans (Analyser.passes_analyseNoteRest _ _ _).1 induction

namespace Analyser

/-- An analysis passes over the nodes of its tree. -/
theorem passes_analyseNode (node : Node) (before : Analysis) :
    PassesOver node.nodes (analyseNode node anchor) before :=
  ⟨Tracing.mono (performing_analyseNode node before).passes node.nodes_cues,
    trivial⟩

/-- An analysis passes over a whole tree, and in the end nothing waits. -/
theorem passes_analyseRoot (root : Node) :
    Traces Passes root.nodes (analyseRoot root) {} fun _ after =>
      after.pending = {} := by
  have nothing : Ensures (analyseRoot root) {} fun _ after =>
      after.pending = {} := by
    have first : Ensures (analyseNode root none) {} fun _ _ => True := trivial
    rw [analyseRoot]
    apply first.bind
    intro result _ _
    cases result <;> rfl
  exact ⟨Tracing.mono (performs_analyse root).passes root.nodes_cues, nothing⟩

end Analyser

/-- The passage at which an analysis starts. -/
def Passage.start : Passage :=
  ⟨{}, [], none⟩

/-- The end of the passage of a tree: nothing waits, and the model is there.  The
notes and rests come from nodes of the tree, in the order of the tree. -/
structure Passage.IsLast (last : Passage) (root : Node) (model : Model) : Prop where
  run : Passage.start.Run last
  idle : last.due = none
  nothing : last.pending = {}
  isModel : last.model = model
  listed : (last.heard.map fun note => note.node).Sublist root.nodes

/-- Every analysed score comes about by passing over its tree. -/
theorem Passage.exists_last (root : Node) :
    ∃ last, IsLast last root (analyse root).1 := by
  obtain ⟨⟨heard, listed, run⟩, nothing⟩ := Analyser.passes_analyseRoot root
  exact ⟨_, run [], rfl, nothing, rfl, listed⟩

/-- A text that is accepted is that of a tree that was passed over. -/
theorem Passage.exists_last_of_accepted
    {source file : String} {model : Model}
    (accepted : (analyseSource source file).result = .ok model) :
    ∃ root last, (Node.read (Token.lex source file)).result = .ok root ∧
      IsLast last root model := by
  obtain ⟨root, isTree, rfl, _⟩ := exists_tree_of_accepted accepted
  obtain ⟨last, isLast⟩ := exists_last root
  exact ⟨root, last, isTree, isLast⟩

end LdpScore
