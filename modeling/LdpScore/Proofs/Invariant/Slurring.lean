import LdpScore.Proofs.Invariant.Passing
import LdpScore.Proofs.Relation.Queue

/-!
# What slurs are made of

A stop ends the wait of every slur descriptor with its number, whether there is a
start among them or not.  So a slur joins the note where it starts with the note
where it stops, or it has the last one only: then nothing but continuations led to
its stop.  `Slur.Joins` says so, and that nothing else occurs is an invariant of all
passages.
-/

namespace LdpScore

open Analyser Pairing

namespace Slur

/-- The members of a slur, given the descriptors that waited for its stop. -/
inductive Joins (front : List SlurPoint) (stop : SlurPoint) : Members → Prop where
  | both (start : SlurPoint) (isFront : start ∈ front)
      (starts : start.phase = .start) (ordered : start.note < stop.note) :
      Joins front stop
        [(start.note, .slur true start.bezier),
          (stop.note, .slur false stop.bezier)]
  | stopOnly (continues : ∀ point ∈ front, point.phase = .continue) :
      Joins front stop [(stop.note, .slur false stop.bezier)]

/-- Of those that wait only the starts become members. -/
theorem filterMap_inclusion?
    {front : List SlurPoint} (unstopped : ∀ point ∈ front, point.phase ≠ .stop) :
    front.filterMap inclusion? =
      (startsOf front).map fun point => (point.note, .slur true point.bezier) := by
  induction front with
  | nil => rfl
  | cons point rest induction =>
      obtain ⟨noStop, others⟩ := List.forall_mem_cons.mp unstopped
      have later := induction others
      have own : phase point = point.phase := rfl
      rw [List.filterMap_cons, inclusion?, startsOf, List.filter_cons, ← startsOf,
        later, own]
      cases isPhase : point.phase with
      | start => rfl
      | «continue» => rfl
      | stop => exact absurd isPhase noStop

/-- A chain makes a slur of its start and its stop, or of its stop alone. -/
theorem joins_of_completed
    {given : SlurPoint → Prop} {front : List SlurPoint} {stop : SlurPoint}
    (completed : Completed given front stop) :
    Joins front stop ((front ++ [stop]).filterMap inclusion?) := by
  have isChain := completed.isChain
  have unstopped : ∀ point ∈ front, point.phase ≠ .stop :=
    fun point isFront => isChain.unstopped _ (List.mem_map_of_mem isFront)
  have stops : inclusion? stop = some (stop.note, .slur false stop.bezier) := by
    have isStop : stop.phase = .stop := isChain.stops
    rw [inclusion?, isStop]
  have numbers : ∀ point ∈ startsOf front, number point = stop.number :=
    fun point listed => isChain.number _
      (List.mem_map_of_mem (List.mem_filter.mp listed).1)
  rw [List.filterMap_append, filterMap_inclusion? unstopped, List.filterMap_cons,
    stops]
  rcases eq_nil_or_singleton completed.starts numbers with none | ⟨start, single⟩
  · rw [none]
    refine .stopOnly fun point isFront => ?_
    have noStart := List.filter_eq_nil_iff.mp none point isFront
    have noStop := unstopped point isFront
    change ¬ (point.phase == .start) = true at noStart
    cases isPhase : point.phase <;> simp_all
  · rw [single]
    obtain ⟨isFront, isStart⟩ := List.mem_filter.mp
      (single ▸ List.mem_singleton_self start : start ∈ startsOf front)
    refine .both start isFront (beq_iff_eq.mp isStart) ?_
    have rising := isChain.rising
    rw [List.map_append, List.map_singleton, List.map_map,
      List.pairwise_append] at rising
    exact rising.2.2 _ (List.mem_map_of_mem isFront) _ (List.mem_singleton_self _)

end Slur

/-- A slur of descriptors that were given, numbered after its stop. -/
def Content.IsSlurOf (given : SlurPoint → Prop) (content : Content) : Prop :=
  ∃ front stop color members, Completed given front stop ∧
    Slur.Joins front stop members ∧ content = .slur stop.number color members

theorem Content.IsSlurOf.mono
    {given more : SlurPoint → Prop} {content : Content}
    (isSlur : content.IsSlurOf given)
    (implies : ∀ point, given point → more point) :
    content.IsSlurOf more := by
  obtain ⟨front, stop, color, members, completed, joins, isContent⟩ := isSlur
  refine ⟨front, stop, color, members, { completed with given := ?_ }, joins,
    isContent⟩
  exact fun point listed => implies point (completed.given point listed)

/-- What a chain makes is a slur of its descriptors. -/
theorem Slur.creates_of_completed
    {given : SlurPoint → Prop} {front : List SlurPoint} {stop : SlurPoint}
    (completed : Completed given front stop) {draft : Draft}
    (inside : ∀ point ∈ front ++ [stop], point.note < draft.model.size) :
    ∃ content, draft.Creates content (linkChain (front ++ [stop]) draft) ∧
      content.IsSlurOf given := by
  obtain ⟨start, isStart⟩ : ∃ start, (front ++ [stop]).head? = some start := by
    cases front <;> exact ⟨_, rfl⟩
  exact ⟨_, creates_linkChain isStart List.getLast?_concat inside,
    front, stop, start.color, _, completed, joins_of_completed completed, rfl⟩

namespace Passage

/-- A descriptor of a slur is what a note asks for. -/
def GivesSlur (heard : List Heard) (point : SlurPoint) : Prop :=
  ∃ note ∈ heard, note.handle = point.note ∧ note.decorations.slur = some point

theorem GivesSlur.mono
    {earlier later : List Heard} (grows : earlier <+: later) (point : SlurPoint)
    (gives : GivesSlur earlier point) :
    GivesSlur later point := by
  obtain ⟨note, isHeard, rest⟩ := gives
  exact ⟨note, grows.subset isHeard, rest⟩

/-- The slurs of a passage, and what waits to become one. -/
structure Slurred (passage : Passage) : Prop where
  queued : Queued (GivesSlur passage.heard) (passage.bound .slur)
    passage.pending.slurs
  made : ∀ slur content, passage.model.content? slur = some content →
    content.name = "slur" → content.IsSlurOf (GivesSlur passage.heard)

/-- Without the turn of the slurs, those that wait go on waiting. -/
theorem Step.pending_slurs
    {before after : Passage} (step : Step before after)
    (omitted : before.Omits "slur") :
    after.pending.slurs = [] ∨ after.pending.slurs = before.pending.slurs := by
  refine step.pending_cases Pending.slurs .slur ?_ fun note turn isDue => ?_
  · intro turn earlier later other changes
    cases changes <;> first | rfl | exact absurd rfl other
  · intro isOwn
    exact omitted note turn isDue (congrArg Turn.word isOwn)

theorem Step.slurred_of_omits
    {before after : Passage} (step : Step before after)
    (orderly : before.Orderly) (omitted : before.Omits "slur")
    (slurred : before.Slurred) :
    after.Slurred := by
  have grows := GivesSlur.mono step.heard_prefix
  constructor
  · rcases step.pending_slurs omitted with none | same
    · rw [none]
      exact .nil _ _
    · rw [same]
      exact slurred.queued.mono (step.bound_le orderly .slur) grows
  · intro slur content found named
    have omits := step.omits orderly omitted fun content named =>
      (Content.members?_isSome_iff content).mpr (by simp [named])
    exact (slurred.made slur content ((omits.same slur content named).mp found)
      named).mono grows

/-- At the turn of the slurs a slur is made of what was given, or none. -/
theorem slurred_settleSlur
    {state : Analysis} {heard : List Heard} {note : Heard}
    (orderly : Orderly ⟨state, heard, some (note, .slur)⟩)
    (slurred : Slurred ⟨state, heard, some (note, .slur)⟩) :
    Slurred ⟨((settleSlur note.decorations).run state).run.2, heard,
      some (note, .chord)⟩ := by
  have isHeard : note ∈ heard := orderly.due_mem rfl
  have queued : Queued (GivesSlur heard) note.handle state.pending.slurs :=
    slurred.queued
  rw [settleSlur]
  cases isPoint : note.decorations.slur with
  | none =>
      exact ⟨queued.mono (Nat.le_succ note.handle) fun _ => id, slurred.made⟩
  | some point =>
      have isOwn : point.note = note.handle :=
        (orderly.areOf note isHeard).slur point isPoint
      have isGiven : GivesSlur heard point := ⟨note, isHeard, isOwn.symm, isPoint⟩
      obtain ⟨stillQueued, settling⟩ :=
        queued.settle isOwn isGiven Slur.linkChain .slur state.draft
      rw [← Slur.add_eq_settleWith] at stillQueued settling
      refine ⟨stillQueued, fun slur content found named => ?_⟩
      change (Slur.add state.pending.slurs point
        state.draft).2.model.content? slur = some content at found
      generalize Slur.add state.pending.slurs point state.draft = result
        at settling found
      cases settling with
      | idle rest after same =>
          rw [same] at found
          exact slurred.made slur content found named
      | linked front rest completed listed =>
          have inside : ∀ other ∈ front ++ [point],
              other.note < state.draft.model.size := by
            intro other isOther
            obtain ⟨giver, isGiver, isOwner, _⟩ := completed.given other isOther
            rw [← isOwner]
            exact orderly.inside giver isGiver
          obtain ⟨made, created, isSlur⟩ :=
            Slur.creates_of_completed completed inside
          have isRelation : content.members?.isSome :=
            (Content.members?_isSome_iff content).mpr (by simp [named])
          rcases created.relation_cases found isRelation with ⟨_, rfl⟩ | isOld
          · exact isSlur
          · exact slurred.made slur content isOld named

/-- A slur is always one of descriptors that notes ask for. -/
theorem Step.slurred
    {before after : Passage} (step : Step before after)
    (orderly : before.Orderly) (slurred : before.Slurred) :
    after.Slurred := by
  by_cases omitted : before.Omits "slur"
  · exact step.slurred_of_omits orderly omitted slurred
  · obtain ⟨note, turn, isDue, isOwn⟩ := exists_turn_of_not_omits omitted
    have isSlur : turn = .slur := by
      cases turn <;> first | rfl | simp [Turn.word] at isOwn
    subst isSlur
    cases step with
    | turn state heard other =>
        cases isDue
        exact slurred_settleSlur orderly slurred
    | _ => cases isDue

theorem Run.slurred {passage : Passage} (run : start.Run passage) :
    passage.Slurred := by
  induction run with
  | refl =>
      refine ⟨.nil _ _, fun slur content found => ?_⟩
      exact absurd (Model.lt_size_of_content? found) (Nat.not_lt_zero slur)
  | tail run step induction => exact step.slurred (Run.orderly run) induction

/-- Only notes give slurs. -/
theorem GivesSlur.isNote
    {passage : Passage} (orderly : passage.Orderly) {point : SlurPoint}
    (gives : GivesSlur passage.heard point) :
    passage.model.IsNote point.note := by
  obtain ⟨note, isHeard, isOwn, isPoint⟩ := gives
  rw [← isOwn]
  refine orderly.isNote note isHeard fun isRest => ?_
  rw [(orderly.areOf note isHeard).onlyNotes isRest] at isPoint
  cases isPoint

end Passage

/--
A slur comes from a stop and the descriptors of its number that waited for it.  For
every text that is accepted and every slur of its model, the notes of these
descriptors rise.  If there was a start among them, then the slur has exactly two
members, the note where it starts and a later one where it stops; if there were only
continuations, it has the one where it stops.
-/
theorem slurs_analyseSource
    (source file : String) {model : Model}
    (accepted : (analyseSource source file).result = .ok model) :
    ∃ root last, (Node.read (Token.lex source file)).result = .ok root ∧
      Passage.IsLast last root model ∧
      ∀ slur number color members,
        model.content? slur = some (.slur number color members) →
          (∀ entry ∈ members, model.IsNote entry.1) ∧
          ∃ front stop, Completed (Passage.GivesSlur last.heard) front stop ∧
            stop.number = number ∧ Slur.Joins front stop members := by
  obtain ⟨root, last, isTree, isLast⟩ := Passage.exists_last_of_accepted accepted
  refine ⟨root, last, isTree, isLast, fun slur number color members found => ?_⟩
  rw [← isLast.isModel] at found ⊢
  obtain ⟨front, stop, _, _, completed, joins, ⟨⟩⟩ :=
    isLast.run.slurred.made slur _ found rfl
  have isNote : ∀ point ∈ front ++ [stop], last.model.IsNote point.note :=
    fun point listed => (completed.given point listed).isNote isLast.run.orderly
  refine ⟨?_, front, stop, completed, rfl, joins⟩
  have stopIs := isNote stop (List.mem_append_right _ (List.mem_singleton_self _))
  cases joins with
  | both start isFront =>
      refine List.forall_mem_cons.mpr ⟨?_, List.forall_mem_singleton.mpr stopIs⟩
      exact isNote start (List.mem_append_left _ isFront)
  | stopOnly => exact List.forall_mem_singleton.mpr stopIs

/-- A slur that continues at a note between has the two notes at its ends. -/
theorem slurs_over_three_notes :
    ∃ model root last,
      (analyseSource
        ("(musicData (n c4 q (slur 1 start)) (n d4 q (slur 1 continue)) " ++
          "(n e4 q (slur 1 stop)))") "").result = .ok model ∧
      (model.content? 4).map Content.members? = some (some
        [(1, .slur true none), (3, .slur false none)]) ∧
      Passage.IsLast last root model ∧
      ∀ slur number color members,
        model.content? slur = some (.slur number color members) →
          (∀ entry ∈ members, model.IsNote entry.1) ∧
          ∃ front stop, Completed (Passage.GivesSlur last.heard) front stop ∧
            stop.number = number ∧ Slur.Joins front stop members := by
  obtain ⟨model, accepted, members⟩ := exists_model_of_any
    (fun model => (model.content? 4).map Content.members? = some (some
      [(1, .slur true none), (3, .slur false none)]))
    (by decide +kernel : (analyseSource
      ("(musicData (n c4 q (slur 1 start)) (n d4 q (slur 1 continue)) " ++
        "(n e4 q (slur 1 stop)))") "").result.toOption.any _)
  obtain ⟨root, last, _, isLast, slurs⟩ := slurs_analyseSource _ _ accepted
  exact ⟨model, root, last, accepted, of_decide_eq_true members, isLast, slurs⟩

/-- A slur that only continues before it stops has one member, and nothing tells of
it. -/
theorem not_all_slurs_of_two_notes :
    ¬ ∀ source file model, (analyseSource source file).result = .ok model →
      ∀ slur content, model.content? slur = some content →
        content.name = "slur" → content.memberHandles.length = 2 := by
  intro two
  obtain ⟨model, accepted, checked⟩ := exists_model_of_any
    (fun model => (model.content? 3).any fun content =>
      content.name == "slur" && content.memberHandles == [2])
    (by decide +kernel : (analyseSource
      "(musicData (n c4 q (slur 1 continue)) (n d4 q (slur 1 stop)))"
      "").result.toOption.any _)
  obtain ⟨content, found, isSlur⟩ := Option.any_eq_true _ _ |>.mp checked
  obtain ⟨named, members⟩ := Bool.and_eq_true_iff.mp isSlur
  have length := two _ _ model accepted 3 content found (beq_iff_eq.mp named)
  rw [beq_iff_eq.mp members] at length
  exact absurd length (by decide)

end LdpScore
