import LdpScore.Proofs.Analysis.Asking
import LdpScore.Proofs.Analysis.Leaving
import LdpScore.Proofs.Analysis.Tupling

/-!
# Two ways to stop a tuplet

Where a legacy label and an option with a number mean the same tuplet they offer
descriptors that complete the same chain.  With the option the note or rest then
joins the tuplets that stay open; with the label it does not, and that is all they
differ in.
-/

namespace LdpScore

open Analyser

/-! ## Descriptors that stop a tuplet -/

namespace Tuplet

variable {pending : List TupletPoint} {number : Int} {noteRest : Handle}

/-- The tuplet that was opened last waits under its number. -/
theorem exists_waiting_of_innermostOpen?
    (isOpen : innermostOpen? pending = some number) :
    ∃ start rest, pending.filter (fun other => other.number == number) =
      start :: rest := by
  obtain ⟨start, isLast, isNumber⟩ := Option.map_eq_some_iff.mp isOpen
  have waits : start ∈ pending :=
    (List.mem_filter.mp (List.mem_of_getLast? isLast)).1
  have listed : start ∈ pending.filter fun other => other.number == number :=
    List.mem_filter.mpr ⟨waits, beq_iff_eq.mpr isNumber⟩
  exact List.exists_cons_of_ne_nil (List.ne_nil_of_mem listed)

/-- A stop on a note or rest without descriptors completes the chain of what waits
under its number. -/
theorem offer_of_stops
    {point start : TupletPoint} {rest : List TupletPoint}
    (stops : point.Stops number noteRest)
    (earlier : ∀ other ∈ pending, other.noteRest ≠ noteRest)
    (waiting : pending.filter (fun other => other.number == number) =
      start :: rest) :
    Pairing.offer pending point = .complete (start :: rest ++ [point]) := by
  have notTaken : pending.find? (fun other =>
      Pairing.member other == Pairing.member point &&
        Pairing.sameNumber point other) = none := by
    refine List.find?_eq_none.mpr fun other waits both => ?_
    have same := beq_iff_eq.mp (Bool.and_eq_true_iff.mp both).1
    exact earlier other waits (same.trans stops.isOwn)
  have isStop : Pairing.phase point = .stop := stops.isStop
  have waiting : pending.filter (Pairing.sameNumber point) = start :: rest := by
    rw [← waiting, ← stops.isNumber]
    rfl
  rw [Pairing.offer, notTaken]
  dsimp only
  rw [isStop]
  dsimp only
  rw [waiting]
  rfl

/-- Who stops a tuplet does not matter to it, but for the note or rest. -/
theorem linkChain_of_stops
    {first second : TupletPoint}
    (firstStops : first.Stops number noteRest)
    (secondStops : second.Stops number noteRest)
    (start : TupletPoint) (rest : List TupletPoint) (draft : Draft) :
    linkChain (start :: rest ++ [first]) draft =
      linkChain (start :: rest ++ [second]) draft := by
  have sameLast : ∀ tuplet modification draft,
      includePoint tuplet modification draft first =
        includePoint tuplet modification draft second := by
    intro tuplet modification draft
    rw [includePoint, includePoint, firstStops.isOwn, secondStops.isOwn]
  simp only [linkChain, List.cons_append, List.foldl_cons, List.foldl_append,
    List.foldl_nil, sameLast]

/-- Two stops of an open tuplet do the same. -/
theorem add_of_stops
    {first second : TupletPoint}
    (firstStops : first.Stops number noteRest)
    (secondStops : second.Stops number noteRest)
    (earlier : ∀ other ∈ pending, other.noteRest ≠ noteRest)
    (isOpen : innermostOpen? pending = some number) (draft : Draft) :
    add pending first draft = add pending second draft := by
  obtain ⟨start, rest, waiting⟩ := exists_waiting_of_innermostOpen? isOpen
  have sameLeft : (pending.filter fun other => !Pairing.sameNumber first other) =
      pending.filter fun other => !Pairing.sameNumber second other := by
    apply List.filter_congr
    intro other _
    have sameNumber : first.number = second.number :=
      firstStops.isNumber.trans secondStops.isNumber.symm
    exact congrArg (fun number => !(other.number == number)) sameNumber
  rw [add_eq_settleWith, add_eq_settleWith,
    Pairing.settleWith_of_complete linkChain .tuplet draft
      (offer_of_stops firstStops earlier waiting),
    Pairing.settleWith_of_complete linkChain .tuplet draft
      (offer_of_stops secondStops earlier waiting),
    sameLeft, linkChain_of_stops firstStops secondStops start rest draft]

/-- What waits after an open tuplet has been stopped. -/
theorem add_fst_of_stops
    {point : TupletPoint} (stops : point.Stops number noteRest)
    (earlier : ∀ other ∈ pending, other.noteRest ≠ noteRest)
    (isOpen : innermostOpen? pending = some number) (draft : Draft) :
    (add pending point draft).1 =
      pending.filter fun other => other.number != number := by
  obtain ⟨start, rest, waiting⟩ := exists_waiting_of_innermostOpen? isOpen
  rw [add_eq_settleWith, Pairing.settleWith_of_complete linkChain .tuplet draft
    (offer_of_stops stops earlier waiting), ← stops.isNumber]
  rfl

end Tuplet

/-! ## Steps that overlook tuplets -/

/-- Other tuplets are open. -/
def Analysis.withTuplets
    (state : Analysis) (tuplets : List TupletPoint) : Analysis :=
  { state with pending := { state.pending with tuplets := tuplets } }

namespace Analyser

variable {Value Result : Type}

/-- A step that does the same whatever tuplets are open, and leaves them open. -/
def OverlooksTuplets (action : Analyser Value) : Prop :=
  ∀ (state : Analysis) (tuplets : List TupletPoint),
    (action.run (state.withTuplets tuplets)).run =
      ((action.run state).run.1, (action.run state).run.2.withTuplets tuplets)

namespace OverlooksTuplets

theorem pure (value : Value) : OverlooksTuplets (Pure.pure value) :=
  fun _ _ => rfl

theorem bind
    {action : Analyser Result} {next : Result → Analyser Value}
    (first : OverlooksTuplets action)
    (second : ∀ result, OverlooksTuplets (next result)) :
    OverlooksTuplets (action >>= next) := by
  intro state tuplets
  refine Eq.trans ?_ (second (action.run state).run.1 (action.run state).run.2
    tuplets)
  exact congrArg (fun result => ((next result.1).run result.2).run)
    (first state tuplets)

/-- What is still open may be read, apart from the tuplets. -/
theorem readPending
    {next : Pending → Analyser Value}
    (same : ∀ (waiting : Pending) (tuplets : List TupletPoint),
      next { waiting with tuplets := tuplets } = next waiting)
    (overlooks : ∀ waiting, OverlooksTuplets (next waiting)) :
    OverlooksTuplets (pending >>= next) := by
  intro state tuplets
  have sameNext : next (state.withTuplets tuplets).pending =
      next state.pending := same state.pending tuplets
  show ((next (state.withTuplets tuplets).pending).run
    (state.withTuplets tuplets)).run = _
  rw [sameNext]
  exact overlooks state.pending state tuplets

variable {action : Analyser Value}

theorem tuplets_eq (overlooks : OverlooksTuplets action) (state : Analysis) :
    (action.run state).run.2.pending.tuplets = state.pending.tuplets :=
  congrArg (fun result => result.2.pending.tuplets)
    (overlooks state state.pending.tuplets)

/-- A note or rest can as well join the open tuplets after such a step. -/
theorem joinTuplets
    (overlooks : OverlooksTuplets action) (state : Analysis) (noteRest : Handle)
    (location : Location) :
    (action.run (state.joinTuplets noteRest location)).run =
      ((action.run state).run.1,
        (action.run state).run.2.joinTuplets noteRest location) := by
  refine (overlooks state
    (Tuplet.join state.pending.tuplets noteRest location)).trans ?_
  rw [← overlooks.tuplets_eq state]
  rfl

end OverlooksTuplets

theorem overlooksTuplets_report (location : Location) (problem : Problem) :
    OverlooksTuplets (report location problem) :=
  fun _ _ => rfl

theorem overlooksTuplets_modifyContext (change : Context → Context) :
    OverlooksTuplets (modifyContext change) :=
  fun _ _ => rfl

theorem overlooksTuplets_settleTies (note : Handle) (decorations : Decorations) :
    OverlooksTuplets (settleTies note decorations) := by
  have legacy : OverlooksTuplets
      (settleLegacyTie decorations.legacyTie note) := by
    intro state tuplets
    rw [settleLegacyTie]
    cases decorations.legacyTie <;> rfl
  refine legacy.bind fun _ => ?_
  cases decorations.tie with
  | none => exact .pure ()
  | some point => exact fun _ _ => rfl

theorem overlooksTuplets_applyModification
    (noteRest : Handle) (modification : Option TimeModification) :
    OverlooksTuplets (applyModification noteRest modification) := by
  cases modification with
  | none => exact .pure ()
  | some modification => exact fun _ _ => rfl

theorem overlooksTuplets_settleLegacyBeam
    (decorations : Decorations) (noteRest : Handle) (type : NoteType)
    (node : Node) :
    OverlooksTuplets (settleLegacyBeam decorations noteRest type node) := by
  rw [settleLegacyBeam]
  refine .readPending (fun _ _ => rfl) fun waiting => ?_
  dsimp only
  split
  · split
    · split
      · exact overlooksTuplets_report _ _
      · split <;> exact fun _ _ => rfl
    · split
      · exact fun _ _ => rfl
      · exact overlooksTuplets_report _ _
    · exact overlooksTuplets_report _ _
  · split
    · exact fun _ _ => rfl
    · exact .pure ()

theorem overlooksTuplets_settleBeams
    (decorations : Decorations) (noteRest : Handle) (type : NoteType)
    (node : Node) :
    OverlooksTuplets (settleBeams decorations noteRest type node) := by
  refine (overlooksTuplets_settleLegacyBeam decorations noteRest type
    node).bind fun _ => ?_
  cases decorations.beam with
  | none => exact .pure ()
  | some point => exact fun _ _ => rfl

theorem overlooksTuplets_settleSlur (decorations : Decorations) :
    OverlooksTuplets (settleSlur decorations) := by
  rw [settleSlur]
  cases decorations.slur with
  | none => exact .pure ()
  | some point => exact fun _ _ => rfl

theorem overlooksTuplets_joinOrAdvance
    (base : Option Handle) (noteRest : Handle) (duration : Float) :
    OverlooksTuplets (joinOrAdvance base noteRest duration) := by
  cases base with
  | none => exact fun _ _ => rfl
  | some base => exact fun _ _ => rfl

/-! ## Settling a note or rest that stops a tuplet -/

/-- A step leaves some tuplets, and another one does the same, but then a note or
rest joins those that are open. -/
structure JoinsAfter
    (noteRest : Handle) (location : Location) (tuplets : List TupletPoint)
    (joining action : Analyser Value) (state : Analysis) : Prop where
  joins : (joining.run state).run =
    Prod.map id (fun after : Analysis => after.joinTuplets noteRest location)
      (action.run state).run
  left : (action.run state).run.2.pending.tuplets = tuplets

namespace JoinsAfter

variable {noteRest : Handle} {location : Location} {tuplets : List TupletPoint}
variable {state : Analysis}

/-- It is the same if it joins before a step that overlooks tuplets. -/
theorem followed
    {joining action : Analyser Result} {next : Result → Analyser Value}
    (joins : JoinsAfter noteRest location tuplets joining action state)
    (overlooks : ∀ result, OverlooksTuplets (next result)) :
    JoinsAfter noteRest location tuplets (joining >>= next) (action >>= next)
      state where
  joins := (run_bind joins.joins).trans
    ((overlooks _).joinTuplets _ noteRest location)
  left := ((overlooks _).tuplets_eq _).trans joins.left

/-- Something else may be done first. -/
theorem preceded
    {first : Analyser Result} {joining action : Result → Analyser Value}
    (joins : JoinsAfter noteRest location tuplets
      (joining (first.run state).run.1) (action (first.run state).run.1)
      (first.run state).run.2) :
    JoinsAfter noteRest location tuplets (first >>= joining) (first >>= action)
      state :=
  ⟨joins.joins, joins.left⟩

end JoinsAfter

section Settling

variable {flavor : Flavor} {node : Node} {handle : Handle} {number : Int}
variable {decorations : Decorations} {point : TupletPoint} {state : Analysis}

/-- The label offers a descriptor that stops the tuplet that was opened last. -/
theorem run_tupletFactor_stopLabel
    (innermost : Tuplet.innermostOpen? state.pending.tuplets = some number)
    (decorations : Decorations) (handle : Handle) (node : Node) :
    ∃ point : TupletPoint, point.Stops number handle ∧
      ((tupletFactor (decorations.withLabel stopLabel) handle node).run
        state).run =
        (Tuplet.openRatio state.pending.tuplets, state.offerTuplet point) := by
  have isStop : stopLabel.text.toList.tail = ['-'] := by decide
  have isLabel : (decorations.withLabel stopLabel).legacyTuplet =
      some stopLabel := rfl
  rw [tupletFactor, isLabel]
  dsimp only
  rw [settleLegacyTuplet, if_pos isStop]
  exact ⟨_, ⟨rfl, congrArg (fun found => found.getD 0) innermost, rfl⟩, rfl⟩

/-- An option offers its descriptor, and then the note or rest joins the tuplets
that stay open. -/
theorem run_tupletFactor_withTuplet
    (asksNoTuplet : decorations.AsksNoTuplet) (isStop : point.phase = .stop)
    (state : Analysis) :
    ((tupletFactor (decorations.withTuplet point) handle node).run state).run =
      (Tuplet.openRatio state.pending.tuplets,
        (state.offerTuplet point).joinTuplets handle node.location) := by
  have noLabel : (decorations.withTuplet point).legacyTuplet = none :=
    asksNoTuplet.1
  have isPoint : (decorations.withTuplet point).tuplet = some point := rfl
  rw [tupletFactor, noLabel, isPoint]
  dsimp only
  rw [settleTuplets, isStop]
  rfl

/-- At the turn of the tuplets the option differs from the label by what is
joined. -/
theorem joinsAfter_tupletFactor
    (asksNoTuplet : decorations.AsksNoTuplet) (stops : point.Stops number handle)
    (earlier : ∀ other ∈ state.pending.tuplets, other.noteRest ≠ handle)
    (innermost : Tuplet.innermostOpen? state.pending.tuplets = some number)
    (node : Node) :
    JoinsAfter handle node.location
      (state.pending.tuplets.filter fun other => other.number != number)
      (tupletFactor (decorations.withTuplet point) handle node)
      (tupletFactor (decorations.withLabel stopLabel) handle node) state := by
  obtain ⟨other, otherStops, labelled⟩ :=
    run_tupletFactor_stopLabel innermost decorations handle node
  have same : state.offerTuplet point = state.offerTuplet other := by
    rw [Analysis.offerTuplet, Analysis.offerTuplet,
      Tuplet.add_of_stops stops otherStops earlier innermost]
  constructor
  · rw [labelled, run_tupletFactor_withTuplet asksNoTuplet stops.isStop, same]
    rfl
  · rw [labelled]
    exact Tuplet.add_fst_of_stops otherStops earlier innermost state.draft

/-- Whether the option or the label is settled, all other relations are settled
alike. -/
theorem joinsAfter_settleRelations
    (asksNoTuplet : decorations.AsksNoTuplet) (stops : point.Stops number handle)
    (earlier : ∀ other ∈ state.pending.tuplets, other.noteRest ≠ handle)
    (innermost : Tuplet.innermostOpen? state.pending.tuplets = some number)
    (flavor : Flavor) (node : Node) (type : NoteType) :
    JoinsAfter handle node.location
      (state.pending.tuplets.filter fun other => other.number != number)
      (settleRelations flavor node handle type (decorations.withTuplet point))
      (settleRelations flavor node handle type (decorations.withLabel stopLabel))
      state := by
  have groups : ∀ state : Analysis,
      (∀ other ∈ state.pending.tuplets, other.noteRest ≠ handle) →
      Tuplet.innermostOpen? state.pending.tuplets = some number →
      JoinsAfter handle node.location
        (state.pending.tuplets.filter fun other => other.number != number)
        (settleGroups node handle type (decorations.withTuplet point))
        (settleGroups node handle type (decorations.withLabel stopLabel))
        state := by
    intro state earlier innermost
    have keeps := (overlooksTuplets_applyModification handle
      decorations.timeModification).tuplets_eq state
    rw [← keeps] at earlier innermost ⊢
    refine .preceded (.followed (joinsAfter_tupletFactor asksNoTuplet stops
      earlier innermost node) fun factor => ?_)
    refine (overlooksTuplets_settleBeams decorations handle type node).bind
      fun _ => ?_
    exact (overlooksTuplets_settleSlur decorations).bind fun _ => .pure factor
  rw [settleRelations_eq, settleRelations_eq]
  split
  · exact groups state earlier innermost
  · have keeps :=
      (overlooksTuplets_settleTies handle decorations).tuplets_eq state
    rw [← keeps] at earlier innermost ⊢
    exact .preceded (groups _ earlier innermost)

theorem joinsAfter_settleNoteRest
    (asksNoTuplet : decorations.AsksNoTuplet) (stops : point.Stops number handle)
    (earlier : ∀ other ∈ state.pending.tuplets, other.noteRest ≠ handle)
    (innermost : Tuplet.innermostOpen? state.pending.tuplets = some number)
    (flavor : Flavor) (node : Node) (base : Option Handle) (value : NoteValue) :
    JoinsAfter handle node.location
      (state.pending.tuplets.filter fun other => other.number != number)
      (settleNoteRest flavor node base handle value
        (decorations.withTuplet point))
      (settleNoteRest flavor node base handle value
        (decorations.withLabel stopLabel)) state := by
  refine .followed (joinsAfter_settleRelations asksNoTuplet stops earlier
    innermost flavor node value.type) fun factor => ?_
  refine (overlooksTuplets_joinOrAdvance base handle _).bind fun _ => ?_
  split
  · exact overlooksTuplets_modifyContext _
  · exact .pure ()

end Settling

/-! ## Two elements that stop a tuplet -/

/-- The parts of an element, which are the same for every handle. -/
def partsOf (flavor : Flavor) (node : Node) : Parts :=
  Written.parts ⟨0, flavor, node⟩

/-- Two elements of a note or rest say the same, but the first stops a tuplet with a
label and the second with an option.  Nothing else is said about tuplets. -/
structure EndsAlike
    (flavor : Flavor) (number : String) (byLabel byOption : Node) : Prop where
  sameId : byOption.id? = byLabel.id?
  parts : ∃ (plain : Parts) (early late front back : List Node),
    plain.Plain ∧ plain.abbreviations = early ++ late ∧
      plain.options = front ++ back ∧
      partsOf flavor byLabel =
        { plain with abbreviations := early ++ stopLabel :: late } ∧
      partsOf flavor byOption =
        { plain with options := front ++ stopOption number :: back }

section Elements

variable {flavor : Flavor} {anchor base : Option Handle}

/-- Besides its parts the id and the place of an element matter. -/
theorem addParts_congr
    {first second : Node} (sameId : first.id? = second.id?)
    (sameLocation : first.location = second.location) (parts : Parts) :
    addParts flavor first anchor base parts =
      addParts flavor second anchor base parts := by
  simp only [addParts, beginParts, addObject, sameId, sameLocation]

/-- Of the element only its place matters to its relations. -/
theorem settleNoteRest_congr
    {first second : Node} (sameLocation : first.location = second.location)
    (handle : Handle) (value : NoteValue) (decorations : Decorations) :
    settleNoteRest flavor first base handle value decorations =
      settleNoteRest flavor second base handle value decorations := by
  simp only [settleNoteRest, settleRelations, tupletFactor, settleTuplets,
    settleBeams, settleLegacyBeam, sameLocation]

/-- An element is added part by part if it has parts like those of an element with
abbreviations. -/
theorem addNoteRest_eq_addParts
    {first second : Node}
    (abbreviated : (partsOf flavor first).abbreviations ≠ [])
    (sameRequired : (partsOf flavor second).required =
      (partsOf flavor first).required) :
    addNoteRest flavor second anchor base =
      addParts flavor second anchor base (partsOf flavor second) := by
  have complete := Written.length_required ⟨0, flavor, first⟩ abbreviated
  refine addNoteRest_eq ⟨0, flavor, second⟩ ?_ anchor base
  exact (congrArg List.length sameRequired).trans complete

/-- What is read of two elements that end a tuplet alike: the same, but the first
asks with a label to stop a tuplet and the second with a descriptor. -/
theorem EndsAlike.exists_read
    {number : String} {value : Int} {byLabel byOption : Node}
    (alike : EndsAlike flavor number byLabel byOption)
    (sameLocation : byOption.location = byLabel.location)
    (isNumber : signedInterval.read? number = some value)
    (anchor base : Option Handle) (state : Analysis) :
    ∃ (handle : Handle) (noteValue : NoteValue) (decorations : Decorations)
      (after : Analysis) (point : TupletPoint),
      decorations.AsksNoTuplet ∧
      point.Stops
        (if lastVersionWithoutTupletNumbers < state.context.version then value
        else 0) handle ∧
      ((addNoteRest flavor byLabel anchor base).run state).run =
        ((handle, noteValue, decorations.withLabel stopLabel), after) ∧
      ((addNoteRest flavor byOption anchor base).run state).run =
        ((handle, noteValue, decorations.withTuplet point), after) := by
  obtain ⟨plain, early, late, front, back, isPlain, isAbbreviated, isOptioned,
    labelParts, optionParts⟩ := alike.parts
  have abbreviated : (partsOf flavor byLabel).abbreviations ≠ [] := by
    rw [labelParts]
    simp
  have sameRequired : (partsOf flavor byOption).required =
      (partsOf flavor byLabel).required := by
    rw [labelParts, optionParts]
  have areLabels : ∀ label ∈ early, label.isLabel := by
    intro label listed
    refine Written.isLabel_of_mem_abbreviations ⟨0, flavor, byLabel⟩ ?_
    show label ∈ (partsOf flavor byLabel).abbreviations
    rw [labelParts]
    exact List.mem_append_left _ listed
  have areOptions : ∀ option ∈ front, option.isOption := by
    intro option listed
    refine Written.isOption_of_mem_options ⟨0, flavor, byOption⟩ ?_
    show option ∈ (partsOf flavor byOption).options
    rw [optionParts]
    exact List.mem_append_left _ listed
  let adding := addParts flavor byLabel anchor base plain
  have asks : (adding.run state).run.1.2.2.AsksNoTuplet :=
    asksNoTuplet_addParts isPlain state
  have labelled : addNoteRest flavor byLabel anchor base =
      asking (Decorations.withLabel stopLabel) <$> adding := by
    rw [addNoteRest_eq_addParts abbreviated rfl, labelParts]
    exact addParts_stopLabel isPlain isAbbreviated areLabels
  obtain ⟨point, stops, optioned⟩ : ∃ point : TupletPoint,
      point.Stops
        (if lastVersionWithoutTupletNumbers < state.context.version then value
        else 0) (adding.run state).run.1.1 ∧
      ((addNoteRest flavor byOption anchor base).run state).run =
        ((asking (Decorations.withTuplet point) <$> adding).run state).run := by
    rw [addNoteRest_eq_addParts abbreviated sameRequired, optionParts,
      addParts_congr alike.sameId sameLocation]
    exact run_addParts_stopOption isPlain isOptioned areOptions isNumber state
  exact ⟨_, _, _, _, point, asks, stops,
    congrArg (fun action => (action.run state).run) labelled, optioned⟩

/-- A note or rest that stops the tuplet that was opened last by its number does
what it does with a label, and then it joins the tuplets that stay open. -/
theorem joinsAfter_analyseNoteRest
    {number : String} {value : Int} {byLabel byOption : Node} {state : Analysis}
    (alike : EndsAlike flavor number byLabel byOption)
    (sameLocation : byOption.location = byLabel.location)
    (earlier : ∀ other ∈ state.pending.tuplets,
      other.noteRest < state.draft.model.size)
    (innermost : Tuplet.innermostOpen? state.pending.tuplets = some value)
    (isNumber : signedInterval.read? number = some value)
    (counts : lastVersionWithoutTupletNumbers < state.context.version ∨
      value = 0) :
    JoinsAfter state.draft.model.size byLabel.location
      (state.pending.tuplets.filter fun other => other.number != value)
      (analyseNoteRest flavor byOption anchor)
      (analyseNoteRest flavor byLabel anchor) state := by
  have settled : ∀ base : Option Handle,
      JoinsAfter state.draft.model.size byLabel.location
        (state.pending.tuplets.filter fun other => other.number != value)
        (do
          let added ← addNoteRest flavor byOption anchor base
          settleNoteRest flavor byOption base added.1 added.2.1 added.2.2
          return added.1)
        (do
          let added ← addNoteRest flavor byLabel anchor base
          settleNoteRest flavor byLabel base added.1 added.2.1 added.2.2
          return added.1) state := by
    intro base
    obtain ⟨handle, noteValue, decorations, after, point, asksNoTuplet, stops,
      labelled, optioned⟩ :=
      alike.exists_read sameLocation isNumber anchor base state
    have introduced : Introduced flavor state
        (handle, noteValue, decorations.withLabel stopLabel) after := by
      have added : Introduced flavor state
          ((addNoteRest flavor byLabel anchor base).run state).run.1
          ((addNoteRest flavor byLabel anchor base).run state).run.2 :=
        introduced_addNoteRest byLabel anchor base state
      rwa [labelled] at added
    have isNew : handle = state.draft.model.size := introduced.isNew
    have sameTuplets : after.pending.tuplets = state.pending.tuplets :=
      congrArg Pending.tuplets introduced.leaves.pending
    have stops : point.Stops value handle := by
      rcases counts with isNewer | rfl
      · rwa [if_pos isNewer] at stops
      · rwa [ite_self] at stops
    rw [← sameTuplets] at earlier innermost ⊢
    have notOwn : ∀ other ∈ after.pending.tuplets, other.noteRest ≠ handle :=
      fun other waits => isNew ▸ Nat.ne_of_lt (earlier other waits)
    have settled := (joinsAfter_settleNoteRest asksNoTuplet stops notOwn
      innermost flavor byLabel base noteValue).followed fun _ => .pure handle
    rw [← isNew]
    constructor
    · rw [run_bind labelled, run_bind optioned]
      dsimp only
      rw [settleNoteRest_congr sameLocation]
      exact settled.joins
    · rw [run_bind labelled]
      exact settled.left
  rw [analyseNoteRest, analyseNoteRest]
  exact .preceded (settled _)

end Elements

end Analyser

end LdpScore
