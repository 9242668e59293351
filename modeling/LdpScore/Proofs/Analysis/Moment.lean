import LdpScore.Proofs.Analysis.Settling

/-!
# The moments of an analysis

At most one note or rest is in the making at a time.  First its object is added
and its element is read; then its relations are settled, kind by kind, each at a
`Turn` of its own; and then the next element comes.  Apart from that an analysis
only amends the score, or gives up what waits at the end of an instrument.

`Moment.Step` lists what can happen from one moment to the next.  Unlike
`Stage.Step` it keeps to the program: every turn does what the analysis does at
it.  `Focus` and the notes and rests written so far are not recorded by the
program.
-/

namespace LdpScore

open Analyser

/-- A note or rest of the text, and the object that it becomes. -/
structure Written where
  handle : Handle
  flavor : Flavor
  node : Node

/-- What is settled next of a note or rest. -/
inductive Turn where
  | legacyTie
  | tie
  | modification
  | tuplets
  | legacyBeam
  | beam
  | slur
  | chord
deriving DecidableEq

namespace Turn

/-- Rests have no ties to settle. -/
def first : Flavor → Turn
  | .rest => .modification
  | _ => .legacyTie

def next : Turn → Turn
  | .legacyTie => .tie
  | .tie => .modification
  | .modification => .tuplets
  | .tuplets => .legacyBeam
  | .legacyBeam => .beam
  | .beam => .slur
  | .slur => .chord
  | .chord => .chord

/-- What the analysis does at a turn.  The chord comes last, with the time. -/
def action
    (note : Written) (value : NoteValue) (decorations : Decorations) :
    Turn → Analyser Unit
  | .legacyTie => settleLegacyTie decorations.legacyTie note.handle
  | .tie => offerTie decorations
  | .modification => applyModification note.handle decorations.timeModification
  | .tuplets => discard (tupletFactor decorations note.handle note.node)
  | .legacyBeam =>
      settleLegacyBeam decorations note.handle value.type note.node
  | .beam => offerBeam decorations
  | .slur => settleSlur decorations
  | .chord => pure ()

/-! The bounds of what waits: a kind that has had its turn may have the object in
the making among those that wait. -/

def tiesBound (handle : Handle) : Turn → Handle
  | .legacyTie => handle
  | _ => handle + 1

def tupletsBound (handle : Handle) : Turn → Handle
  | .legacyTie | .tie | .modification | .tuplets => handle
  | _ => handle + 1

def beamsBound (handle : Handle) : Turn → Handle
  | .beam | .slur | .chord => handle + 1
  | _ => handle

def slursBound (handle : Handle) : Turn → Handle
  | .chord => handle + 1
  | _ => handle

/-- What is known of a note or rest when its turn comes. -/
structure Due
    (turn : Turn) (note : Written) (decorations : Decorations)
    (state : Analysis) : Prop where
  isNote : note.flavor ≠ .rest → state.draft.model.IsNote note.handle
  isNoteRest : state.draft.model.IsNoteRest note.handle
  areOf : decorations.AreOf note.flavor note.handle
  ready : state.pending.Ready state.draft.model (turn.tiesBound note.handle)
    (turn.tupletsBound note.handle) (turn.beamsBound note.handle)
    (turn.slursBound note.handle)
  comes : note.flavor = .rest → turn ≠ .legacyTie ∧ turn ≠ .tie

end Turn

/-- Reading the element of a note or rest gives its value and decorations. -/
def Written.Reads
    (note : Written) (value : NoteValue) (decorations : Decorations) : Prop :=
  ∃ anchor base state,
    ((addNoteRest note.flavor note.node anchor base).run state).run.1 =
      (note.handle, value, decorations)

/-- Which note or rest is in the making. -/
inductive Focus where
  | between
  | reading (note : Written)
  | settling (note : Written) (value : NoteValue) (decorations : Decorations)
      (turn : Turn)

/-- A moment of an analysis: its state, the notes and rests written so far in
order, and the one in the making. -/
structure Moment where
  state : Analysis
  written : List Written
  focus : Focus

namespace Moment

/-- The score in the making. -/
abbrev draft (moment : Moment) : Draft :=
  moment.state.draft

/-- The model in the making. -/
abbrev model (moment : Moment) : Model :=
  moment.state.draft.model

/-- What can happen from one moment to the next. -/
inductive Step : Moment → Moment → Prop where
  /-- The music is left alone. -/
  | amend (moment : Moment) {after : Analysis}
      (amends : moment.state.Amends after) :
      Step moment { moment with state := after }
  /-- The object of a note or rest is added. -/
  | write (state : Analysis) (written : List Written) (note : Written)
      (anchor : Option Handle) (value : NoteValue) (pitch : Option Pitch)
      (anchored : state.draft.model.HasAnchor anchor)
      (isNew : note.handle = state.draft.model.size)
      (isFrom : (noteRestContent note.flavor value pitch).isFrom note.node) :
      Step ⟨state, written, .between⟩
        ⟨{ state with
            draft := (state.draft.addObject note.node.id? note.node.location
              anchor (noteRestContent note.flavor value pitch)).2 },
          written ++ [note], .reading note⟩
  /-- The element of a note or rest has been read. -/
  | read (state : Analysis) (written : List Written) (note : Written)
      (value : NoteValue) (decorations : Decorations)
      (reads : note.Reads value decorations) :
      Step ⟨state, written, .reading note⟩
        ⟨state, written,
          .settling note value decorations (Turn.first note.flavor)⟩
  /-- A note or rest has its next turn. -/
  | turn (state : Analysis) (written : List Written) (note : Written)
      (value : NoteValue) (decorations : Decorations) (turn : Turn)
      (due : turn.Due note decorations state) :
      Step ⟨state, written, .settling note value decorations turn⟩
        ⟨((turn.action note value decorations).run state).run.2, written,
          .settling note value decorations turn.next⟩
  /-- A note joins the chord of another one, or both make a chord. -/
  | sound (state : Analysis) (written : List Written) (note : Written)
      (value : NoteValue) (decorations : Decorations) (base : Handle)
      (baseIs : state.draft.model.IsNote base)
      (isNote : state.draft.model.IsNote note.handle) :
      Step ⟨state, written, .settling note value decorations .chord⟩
        ⟨{ state with draft := joinChord base note.handle state.draft },
          written, .settling note value decorations .chord⟩
  /-- A note or rest is finished. -/
  | finish (state : Analysis) (written : List Written) (note : Written)
      (value : NoteValue) (decorations : Decorations) :
      Step ⟨state, written, .settling note value decorations .chord⟩
        ⟨state, written, .between⟩
  /-- What waits is given up. -/
  | flush (state : Analysis) (written : List Written) :
      Step ⟨state, written, .between⟩
        ⟨(clearPending.run state).run.2, written, .between⟩

/-- A series of steps. -/
abbrev Run : Moment → Moment → Prop :=
  Relation.ReflTransGen Step

/-- What holds at first and is kept by every step holds after every run. -/
theorem Run.preserves
    {invariant : Moment → Prop}
    (step : ∀ {before after}, Step before after →
      invariant before → invariant after)
    {first last : Moment} (run : Run first last)
    (holds : invariant first) :
    invariant last := by
  induction run with
  | refl => exact holds
  | tail _ next induction => exact step next induction

end Moment

/-- An analysis goes on from one state to another, between notes and rests, and
those that it writes come from some of the nodes in a list, in their order. -/
def Advances (nodes : List Node) (before after : Analysis) : Prop :=
  ∃ written : List Written,
    (written.map Written.node).Sublist nodes ∧
      ∀ earlier, Moment.Run ⟨before, earlier, .between⟩
        ⟨after, earlier ++ written, .between⟩

namespace Advances

variable {nodes more : List Node} {before between after : Analysis}

theorem trans
    (first : Advances nodes before between)
    (second : Advances more between after) :
    Advances (nodes ++ more) before after := by
  obtain ⟨written, listed, run⟩ := first
  obtain ⟨later, listedLater, runLater⟩ := second
  refine ⟨written ++ later, ?_, fun earlier => ?_⟩
  · rw [List.map_append]
    exact listed.append listedLater
  · rw [← List.append_assoc]
    exact (run earlier).trans (runLater (earlier ++ written))

theorem mono
    (advances : Advances nodes before after) (part : nodes.Sublist more) :
    Advances more before after := by
  obtain ⟨written, listed, run⟩ := advances
  exact ⟨written, listed.trans part, run⟩

/-- A single step that writes nothing. -/
theorem single
    (step : ∀ written, Moment.Step ⟨before, written, .between⟩
      ⟨after, written, .between⟩) :
    Advances nodes before after := by
  refine ⟨[], List.nil_sublist nodes, fun earlier => ?_⟩
  rw [List.append_nil]
  exact .single (step earlier)

theorem of_amends (amends : before.Amends after) :
    Advances nodes before after :=
  single fun written => .amend ⟨before, written, .between⟩ amends

theorem flush (state : Analysis) :
    Advances nodes state (clearPending.run state).run.2 :=
  single fun written => .flush state written

end Advances

namespace Analyser

variable {scope : Option Handle} {note : Written} {value : NoteValue}
variable {decorations : Decorations}

/-! ## The turns of a note or rest -/

/-- What every turn hands on to the next one has come to the chord when all other
relations have been settled. -/
theorem turns_settleRelations
    (value : NoteValue) (comes : Turn → Analysis → Prop)
    (take : ∀ turn state, comes turn state →
      Ensures (turn.action note value decorations) state fun _ after =>
        comes turn.next after)
    {before : Analysis} (starts : comes (Turn.first note.flavor) before) :
    Ensures
      (settleRelations note.flavor note.node note.handle value.type decorations)
      before fun _ after => comes .chord after := by
  have groups : ∀ state, comes .modification state → Ensures
      (settleGroups note.node note.handle value.type decorations) state
      fun _ after => comes .chord after := by
    intro state modification
    apply Ensures.bind (take _ _ modification)
    intro _ modified tuplets
    have grouped : Ensures (tupletFactor decorations note.handle note.node)
        modified fun _ after => comes .legacyBeam after := take _ _ tuplets
    apply grouped.bind
    intro factor grouped legacyBeam
    rw [settleBeams_eq, bind_assoc]
    apply Ensures.bind (take _ _ legacyBeam)
    intro _ beamed beam
    apply Ensures.bind (take _ _ beam)
    intro _ beamed slur
    exact Ensures.bind (take _ _ slur) fun _ last chord => chord
  rw [settleRelations_eq]
  split
  · rename_i isRest
    rw [isRest] at starts
    exact groups before starts
  · rename_i isNote
    have isFirst : Turn.first note.flavor = .legacyTie := by
      cases isFlavor : note.flavor with
      | rest => exact absurd isFlavor isNote
      | note => rfl
      | chordNote => rfl
    rw [isFirst] at starts
    rw [settleTies_eq, bind_assoc]
    apply Ensures.bind (take _ _ starts)
    intro _ tied tie
    apply Ensures.bind (take _ _ tie)
    exact fun _ tied modification => groups tied modification

/-- A note or rest has had its turns from one up to another. -/
structure Reaches
    (scope : Option Handle) (note : Written) (value : NoteValue)
    (decorations : Decorations) (start turn : Turn)
    (before after : Analysis) : Prop where
  joins : Analysis.Joins scope [] before after
  due : turn.Due note decorations after
  under : after.draft.model.IsUnder scope note.handle
  run : ∀ written, Moment.Run
    ⟨before, written, .settling note value decorations start⟩
    ⟨after, written, .settling note value decorations turn⟩

/-- Every turn of a note or rest joins objects and leaves what waits ready for the
next one. -/
theorem joins_action
    (value : NoteValue) {turn : Turn} {state : Analysis}
    (due : turn.Due note decorations state)
    (under : state.draft.model.IsUnder scope note.handle) :
    JoinsUntil scope (turn.next.tiesBound note.handle)
      (turn.next.tupletsBound note.handle) (turn.next.beamsBound note.handle)
      (turn.next.slursBound note.handle) (turn.action note value decorations)
      state := by
  cases turn with
  | legacyTie =>
      exact joins_settleLegacyTie _
        (due.isNote fun isRest => (due.comes isRest).1 rfl) under due.ready
  | tie =>
      exact joins_offerTie
        (due.isNote fun isRest => (due.comes isRest).2 rfl) under
        due.areOf.tie due.ready
  | modification => exact joins_applyModification _ due.ready
  | tuplets =>
      exact Traces.discard (joins_tupletFactor note.node due.isNoteRest under
        due.areOf.tuplet due.ready) fun _ _ ready => ready
  | legacyBeam =>
      exact joins_settleLegacyBeam decorations value.type note.node
        due.isNoteRest under due.ready
  | beam => exact joins_offerBeam due.isNoteRest under due.areOf.beam due.ready
  | slur =>
      refine joins_settleSlur (fun slurred => due.isNote fun isRest => ?_)
        under due.areOf.slur due.ready
      rw [due.areOf.onlyNotes isRest] at slurred
      cases slurred
  | chord => exact .pure due.ready

namespace Reaches

variable {start turn : Turn} {before state : Analysis}

theorem refl
    (due : turn.Due note decorations state)
    (under : state.draft.model.IsUnder scope note.handle) :
    Reaches scope note value decorations turn turn state state :=
  ⟨Tracing.of_agrees (.refl state), due, under, fun _ => .refl⟩

/-- One more turn is taken. -/
theorem take
    (reaches : Reaches scope note value decorations start turn before state) :
    Ensures (turn.action note value decorations) state fun _ after =>
      Reaches scope note value decorations start turn.next before after := by
  have due := reaches.due
  obtain ⟨joins, ready⟩ :=
    joins_action value due reaches.under
  have persists := joins.model.persists
  refine ⟨Tracing.trans reaches.joins joins, ?_,
    persists.isUnder reaches.under, fun written => ?_⟩
  · refine ⟨fun isNote => persists.isNote (due.isNote isNote),
      persists.isNoteRest due.isNoteRest, due.areOf, ready, fun isRest => ?_⟩
    have comes := due.comes isRest
    cases turn <;> simp_all [Turn.next]
  · exact (reaches.run written).tail
      (.turn state written note value decorations turn due)

end Reaches

end Analyser

end LdpScore
