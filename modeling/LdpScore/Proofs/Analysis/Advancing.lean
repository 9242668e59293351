import LdpScore.Proofs.Analysis.Spreading
import LdpScore.Proofs.Analysis.Tupling
import LdpScore.Proofs.Notation.Duration
import LdpScore.Proofs.Score.Clock

/-!
# How an analysis moves the clock

`Moves` lists the motions of the clock that an analysis makes, read off its steps:
notes and rests, barlines, cursor moves and the start of an instrument make one
each, and nothing else moves the clock.

Notes and rests move the clock forward by their written value, modified by their
tuplets, and cursor moves go by what is written in them.  The counts of the tuplets
that are open fit into 32 bits, whatever is written, and as long as this holds none of
these durations is below zero: every element is `Advancing`.
-/

namespace LdpScore

/-- The counts of all open tuplets fit into 32 bits. -/
def Analysis.TupletsFit (state : Analysis) : Prop :=
  ∀ point ∈ state.pending.tuplets, CountsFit point

theorem CountsFit.isLimited {point : TupletPoint} (fits : CountsFit point) :
    point.modification.IsLimited :=
  ⟨fits.normal, fits.actual⟩

namespace Tuplet

theorem countsFit_add
    {pending : List TupletPoint} {point : TupletPoint} (draft : Draft)
    (fit : ∀ other ∈ pending, CountsFit other) (fits : CountsFit point) :
    ∀ other ∈ (add pending point draft).1, CountsFit other := by
  rw [add_eq_settleWith, Pairing.settleWith_fst]
  cases Pairing.offer pending point with
  | rejected reason => exact fit
  | waiting =>
      intro other waits
      rcases List.mem_append.mp waits with old | new
      · exact fit other old
      · exact List.mem_singleton.mp new ▸ fits
  | complete chain =>
      intro other remains
      exact fit other (List.mem_filter.mp remains).1

/-- Who joins an open tuplet takes over its counts. -/
theorem countsFit_join
    {pending : List TupletPoint} (fit : ∀ other ∈ pending, CountsFit other)
    (noteRest : Handle) (location : Location) :
    ∀ other ∈ join pending noteRest location, CountsFit other := by
  intro other waits
  rcases List.mem_append.mp waits with old | new
  · exact fit other old
  · obtain ⟨start, isStart, rfl⟩ := List.mem_map.mp new
    have startFits := fit start (List.mem_filter.mp isStart).1
    exact ⟨startFits.actual, startFits.normal⟩

end Tuplet

namespace Analyser

variable {Value Result : Type}

/-! ## Motions -/

/-- The motions of the clock that a step makes, from some state on. -/
inductive Moves :
    {Value : Type} → Analyser Value → Analysis → List (Clock.Motion Float) →
      Prop where
  | plain {Value : Type} {action : Analyser Value} (before : Analysis) :
      IsPlain action → Moves action before []
  | settle (change : Pending → Draft → Pending × Draft) (before : Analysis) :
      Moves (settle change) before []
  | start (before : Analysis) :
      Moves (modifyContext Context.startInstrument) before [.start]
  | move (motion : Clock.Motion Float) (before : Analysis) :
      Moves
        (modifyContext fun context =>
          { context with clock := motion.apply context.clock })
        before [motion]
  | bind {Value Result : Type} {action : Analyser Result}
      {next : Result → Analyser Value} {before : Analysis}
      {earlier later : List (Clock.Motion Float)} :
      Moves action before earlier →
        Moves (next (action.run before).run.1) (action.run before).run.2 later →
          Moves (action >>= next) before (earlier ++ later)

theorem IsPlain.unmoved
    {action : Analyser Value} (plain : IsPlain action) (before : Analysis) :
    (action.run before).run.2.context.clock = before.context.clock ∧
      (action.run before).run.2.pending = before.pending := by
  induction plain generalizing before with
  | bind _ _ first second =>
      obtain ⟨firstClock, firstPending⟩ := first before
      obtain ⟨secondClock, secondPending⟩ := second _ _
      exact ⟨secondClock.trans firstClock, secondPending.trans firstPending⟩
  | modifyContext still => exact ⟨still before.context, rfl⟩
  | _ => exact ⟨rfl, rfl⟩

/-- The clock is where the motions have moved it. -/
theorem Moves.clock_eq_run
    {action : Analyser Value} {before : Analysis} {motions : List (Clock.Motion Float)}
    (moves : Moves action before motions) :
    (action.run before).run.2.context.clock = before.context.clock.run motions := by
  induction moves with
  | plain before plain => exact (plain.unmoved before).1
  | settle change before => rfl
  | start before => rfl
  | move motion before => rfl
  | bind _ _ first second =>
      rw [Clock.run_append, ← first]
      exact second

/-! ## Steps that do not move by less than nothing -/

/-- While the counts of the open tuplets fit, a step moves the clock by no duration
below zero, and what it returns has a property. -/
def AdvancingTo (property : Value → Prop) (action : Analyser Value) : Prop :=
  ∀ before, before.TupletsFit →
    ∃ motions, Moves action before motions ∧
      (∀ motion ∈ motions, motion.IsNonneg) ∧
      (action.run before).run.2.TupletsFit ∧ property (action.run before).run.1

/-- A step that moves the clock by no duration below zero. -/
abbrev Advancing (action : Analyser Value) : Prop :=
  AdvancingTo (fun _ => True) action

theorem AdvancingTo.bind
    {between : Result → Prop} {property : Value → Prop}
    {action : Analyser Result} {next : Result → Analyser Value}
    (first : AdvancingTo between action)
    (second : ∀ result, between result → AdvancingTo property (next result)) :
    AdvancingTo property (action >>= next) := by
  intro before fit
  obtain ⟨earlier, moves, nonneg, fitBetween, holds⟩ := first before fit
  obtain ⟨later, movesLater, nonnegLater, facts⟩ := second _ holds _ fitBetween
  refine ⟨earlier ++ later, moves.bind movesLater, ?_, facts⟩
  intro motion listed
  rcases List.mem_append.mp listed with isEarlier | isLater
  · exact nonneg motion isEarlier
  · exact nonnegLater motion isLater

theorem IsPlain.advancingTo
    {property : Value → Prop} {action : Analyser Value}
    (plain : IsPlain action) (yields : Yields action property) :
    AdvancingTo property action := by
  intro before fit
  refine ⟨[], .plain before plain, by simp, ?_, yields before⟩
  unfold Analysis.TupletsFit
  rw [(plain.unmoved before).2]
  exact fit

theorem IsPlain.advancing
    {action : Analyser Value} (plain : IsPlain action) : Advancing action :=
  plain.advancingTo fun _ => trivial

theorem advancingTo_pure {property : Value → Prop} {value : Value}
    (holds : property value) : AdvancingTo property (pure value) :=
  (IsPlain.pure value).advancingTo (.pure holds)

theorem advancing_pure (value : Value) : Advancing (pure value) :=
  advancingTo_pure trivial

theorem advancing_report (location : Location) (problem : Problem) :
    Advancing (report location problem) :=
  (IsPlain.report location problem).advancing

theorem advancing_settle
    {change : Pending → Draft → Pending × Draft}
    (fit : ∀ pending draft, (∀ point ∈ pending.tuplets, CountsFit point) →
      ∀ point ∈ (change pending draft).1.tuplets, CountsFit point) :
    Advancing (settle change) := by
  intro before fitBefore
  exact ⟨[], .settle change before, by simp,
    fit before.pending before.draft fitBefore, trivial⟩

theorem advancing_move (motion : Clock.Motion Float) (nonneg : motion.IsNonneg) :
    Advancing (modifyContext fun context =>
      { context with clock := motion.apply context.clock }) := by
  intro before fit
  exact ⟨[motion], .move motion before, by simpa using nonneg, fit, trivial⟩

end Analyser

open Decimal

/-! ## What is read -/

namespace Analyser

theorem yields_noteValue (node : Node) :
    Yields (noteValue node) fun value => value.dots < 256 := by
  rw [noteValue]
  split
  · rename_i value isValue
    exact .pure (NoteValue.dots_of_ofText? isValue)
  · exact .after fun _ => .pure (by decide)

theorem yields_readNoteValue_dots (node : Node) (children : List Node) :
    Yields (readNoteValue node children) fun result => result.1.dots < 256 := by
  rw [readNoteValue]
  refine .after fun result => ?_
  rcases result with ⟨_ | label, rest⟩
  · exact .pure (Nat.zero_lt_succ _)
  · exact (yields_noteValue label).bind fun value few => .pure few

theorem yields_addNoteRest_dots
    (flavor : Flavor) (node : Node) (anchor base : Option Handle) :
    Yields (addNoteRest flavor node anchor base) fun result =>
      result.2.1.dots < 256 := by
  rw [addNoteRest]
  refine .after fun pitched => ?_
  refine (yields_readNoteValue_dots node _).bind fun valued few => ?_
  refine .after fun handle => .after fun abbreviated => .after fun _ => ?_
  exact .after fun read => .after fun rest => .after fun _ => .pure few

theorem isLimited_modificationOf?
    {node : Node} {modification : TimeModification}
    (isOf : modificationOf? node = some modification) : modification.IsLimited := by
  have usual : 1 ≤ maxCount := by decide
  unfold modificationOf? at isOf
  split at isOf
  · split at isOf
    · cases isOf
      exact ⟨countOf_le usual, countOf_le usual⟩
    · cases isOf
  · cases isOf

theorem yields_realValue (node : Node) :
    Yields (realValue node) fun value =>
      ∃ sign, sign? value.toModel.unpack = some sign := by
  rw [realValue]
  split
  · rename_i number isNumber
    obtain ⟨fraction, _, rfl⟩ := Option.map_eq_some_iff.mp isNumber
    exact .pure (exists_sign?_toFloat32 fraction)
  · exact .after fun _ => .pure ⟨_, rfl⟩

end Analyser

namespace Written.Says

variable {note : Written} {decorations : Analyser.Decorations}

theorem isLimited {modification : TimeModification} (decorated : note.Says decorations)
    (given : decorations.timeModification = some modification) :
    modification.IsLimited := by
  have isLast : note.modification? = some modification :=
    decorated.timeModification.symm.trans given
  obtain ⟨child, _, isOf⟩ := List.mem_filterMap.mp (List.mem_of_getLast? isLast)
  exact Analyser.isLimited_modificationOf? isOf

theorem countsFit {point : TupletPoint} (decorated : note.Says decorations)
    (isPoint : decorations.tuplet = some point) : CountsFit point := by
  obtain ⟨child, _, _, state, gives⟩ := decorated.givesTuplet isPoint
  exact (Analyser.yields_analyseTuplet child (some note.handle) state point gives).fits

end Written.Says

namespace Analyser

/-! ## Settling the relations of a note or rest -/

section NoteRest

variable (noteRest : Handle) {decorations : Decorations}

theorem advancing_settleTies : Advancing (settleTies noteRest decorations) := by
  have legacy : Advancing (settleLegacyTie decorations.legacyTie noteRest) :=
    advancing_settle fun _ _ fit => fit
  refine legacy.bind fun _ _ => ?_
  cases decorations.tie with
  | none => exact advancing_pure ()
  | some point => exact advancing_settle fun _ _ fit => fit

theorem advancing_settleTuplet {point : TupletPoint} (fits : CountsFit point) :
    Advancing (settleTuplet point) :=
  advancing_settle fun _ draft fit => Tuplet.countsFit_add draft fit fits

theorem advancing_joinTuplets (location : Location) :
    Advancing (joinTuplets noteRest location) :=
  advancing_settle fun _ _ fit => Tuplet.countsFit_join fit noteRest location

theorem advancingTo_openRatio : AdvancingTo IsPlus openRatio := by
  intro before fit
  have plain : IsPlain openRatio := IsPlain.pending.bind fun _ => .pure _
  refine ⟨[], .plain before plain, by simp, fit, ?_⟩
  exact Tuplet.isPlus_openRatio fun point isOpen => (fit point isOpen).isLimited

theorem advancing_legacyTuplet
    (label : Node) (phase : Phase) (number : Int) {actual normal : Nat}
    (fits : actual ≤ maxCount ∧ normal ≤ maxCount) :
    AdvancingTo CountsFit (legacyTuplet label phase number actual normal noteRest) :=
  (IsPlain.context.bind fun _ => .pure _).advancingTo
    (.after fun _ => .pure ⟨fits.1, fits.2⟩)

theorem advancingTo_settleLegacyTuplet (label : Node) :
    AdvancingTo IsPlus (settleLegacyTuplet label noteRest) := by
  rw [settleLegacyTuplet]
  dsimp only
  split
  · refine advancingTo_openRatio.bind fun ratio plus => ?_
    refine IsPlain.pending.advancing.bind fun pending _ => ?_
    refine (advancing_legacyTuplet noteRest _ _ _ (by decide)).bind fun point fits => ?_
    exact (advancing_settleTuplet fits).bind fun _ _ => advancingTo_pure plus
  · split
    · exact (advancing_report _ _).bind fun _ _ => advancingTo_openRatio
    · rename_i actual normal isLabel
      have counts : label.labelCounts? = some (actual,
          if normal = 0 then (Tuplet.defaultNormal? actual).getD 0 else normal) := by
        rw [Node.labelCounts?, isLabel]
        rfl
      refine IsPlain.pending.advancing.bind fun pending _ => ?_
      split
      · exact (advancing_report _ _).bind fun _ _ => advancingTo_openRatio
      · refine (advancing_legacyTuplet noteRest _ _ _
          (labelCounts?_le counts)).bind fun point fits => ?_
        exact (advancing_settleTuplet fits).bind fun _ _ => advancingTo_openRatio

theorem advancingTo_settleTuplets
    {point : Option TupletPoint} (fits : ∀ given, point = some given → CountsFit given)
    (node : Node) :
    AdvancingTo IsPlus (settleTuplets point noteRest node) := by
  have join := advancing_joinTuplets noteRest node.location
  unfold settleTuplets
  cases point with
  | none => exact join.bind fun _ _ => advancingTo_openRatio
  | some point =>
      have settled := advancing_settleTuplet (fits point rfl)
      dsimp only
      split
      · refine advancingTo_openRatio.bind fun ratio plus => ?_
        refine settled.bind fun _ _ => ?_
        exact join.bind fun _ _ => advancingTo_pure plus
      · refine join.bind fun _ _ => ?_
        exact settled.bind fun _ _ => advancingTo_openRatio

theorem advancing_settleBeams (type : NoteType) (node : Node) :
    Advancing (settleBeams decorations noteRest type node) := by
  have joined : ∀ location, Advancing (joinLegacyBeam noteRest location) :=
    fun _ => advancing_settle fun _ _ fit => fit
  have closed : ∀ location, Advancing (closeLegacyBeam noteRest location) :=
    fun _ => advancing_settle fun _ _ fit => fit
  have legacy : Advancing (settleLegacyBeam decorations noteRest type node) := by
    refine IsPlain.pending.advancing.bind fun pending _ => ?_
    dsimp only
    split
    · split
      · split
        · exact advancing_report _ _
        · split
          · exact (advancing_report _ _).bind fun _ _ => joined _
          · exact joined _
      · split
        · exact closed _
        · exact advancing_report _ _
      · exact advancing_report _ _
    · split
      · exact joined _
      · exact advancing_pure ()
  refine legacy.bind fun _ _ => ?_
  cases decorations.beam with
  | none => exact advancing_pure ()
  | some point => exact advancing_settle fun _ _ fit => fit

theorem advancing_settleSlur : Advancing (settleSlur decorations) := by
  rw [settleSlur]
  cases decorations.slur with
  | none => exact advancing_pure ()
  | some point => exact advancing_settle fun _ _ fit => fit

end NoteRest

section Written

variable {note : Written} {decorations : Decorations}

theorem advancingTo_settleRelations
    (decorated : note.Says decorations) (type : NoteType) :
    AdvancingTo IsPlus
      (settleRelations note.flavor note.node note.handle type decorations) := by
  have factored : AdvancingTo IsPlus (tupletFactor decorations note.handle note.node) := by
    rw [tupletFactor]
    split
    · exact advancingTo_settleLegacyTuplet note.handle _
    · exact advancingTo_settleTuplets note.handle
        (fun point isPoint => decorated.countsFit isPoint) note.node
  have settled : AdvancingTo IsPlus (do
      applyModification note.handle decorations.timeModification
      let factor ← tupletFactor decorations note.handle note.node
      settleBeams decorations note.handle type note.node
      settleSlur decorations
      return factor) := by
    refine (isPlain_applyModification note.handle _).advancing.bind fun _ _ => ?_
    refine factored.bind fun factor plus => ?_
    refine (advancing_settleBeams note.handle type note.node).bind fun _ _ => ?_
    exact advancing_settleSlur.bind fun _ _ => advancingTo_pure plus
  rw [settleRelations]
  dsimp only
  split
  · exact (advancing_settleTies note.handle).bind fun _ _ => settled
  · exact settled

/-- The factor is that of the modification that the element itself gives, or else
that of the tuplets. -/
theorem advancing_settleNoteRest
    (base : Option Handle) {value : NoteValue} (few : value.dots < 256)
    (decorated : note.Says decorations) :
    Advancing
      (settleNoteRest note.flavor note.node base note.handle value decorations) := by
  refine (advancingTo_settleRelations decorated _).bind fun tupletFactor plus => ?_
  have factor : IsPlus
      ((decorations.timeModification.map TimeModification.ratio).getD tupletFactor) := by
    cases given : decorations.timeModification with
    | none => exact plus
    | some modification => exact (decorated.isLimited given).isPositive_ratio.isPlus
  have duration := ((NoteValue.isPositive_units few).mul factor).nonneg
  have moved : Advancing (joinOrAdvance base note.handle (value.units *
      (decorations.timeModification.map TimeModification.ratio).getD tupletFactor)) := by
    rw [joinOrAdvance.eq_def]
    cases base with
    | none => exact advancing_move (.advance _) duration
    | some base => exact advancing_settle fun _ _ fit => fit
  have placed : IsPlain (modifyContext fun context =>
      { context with lastNote := some note.handle }) := .modifyContext fun _ => rfl
  refine moved.bind fun _ _ => ?_
  split
  · exact placed.advancing
  · exact advancing_pure ()

end Written

/-! ## Cursor moves -/

end Analyser

/-- The motion of the clock that a shift stands for. -/
def TimeShift.motion (isForward : Bool) : TimeShift → Clock.Motion Float
  | .toStart => .goToMeasureStart
  | .toEnd => .goToMeasureEnd
  | .by units => if isForward then .advance units else .goBack units

namespace Analyser

theorem apply_motion (isForward : Bool) (shift : TimeShift) (clock : Clock Float) :
    (shift.motion isForward).apply clock = TimeShift.apply isForward shift clock := by
  cases shift with
  | «by» units => cases isForward <;> rfl
  | _ => rfl

theorem isNonneg_motion {isForward : Bool} {units : Float} (nonneg : 0 ≤ units) :
    (TimeShift.motion isForward (.by units)).IsNonneg := by
  cases isForward <;> exact nonneg

theorem isNonneg_labelShift {isForward : Bool} {text : String} {shift : TimeShift}
    (read : labelShift isForward text = .ok shift) :
    (shift.motion isForward).IsNonneg := by
  unfold labelShift at read
  split at read
  · cases read
    trivial
  · cases read
  · cases read
    trivial
  · cases read
  · split at read
    · rename_i value isValue
      cases read
      have few := NoteValue.dots_of_ofText? isValue
      exact isNonneg_motion (NoteValue.isPositive_units few).isPlus.nonneg
    · cases read

/-- What is read for a shift below zero is reported instead. -/
theorem yields_readShift (isForward : Bool) (node : Node) :
    Yields (readShift isForward node) fun result =>
      ∀ shift, result.1 = some shift → (shift.motion isForward).IsNonneg := by
  have noShift : ∀ shift : TimeShift,
      none = some shift → (shift.motion isForward).IsNonneg := by
    rintro shift ⟨⟩
  rw [readShift]
  split
  · exact .after fun _ => .pure noShift
  · rename_i child rest _
    split
    · split
      · rename_i shift isShift
        refine .pure fun other same => ?_
        cases same
        exact isNonneg_labelShift isShift
      · exact .after fun _ => .pure noShift
    · split
      · refine (yields_realValue child).bind fun amount isNumber => ?_
        obtain ⟨sign, signed⟩ := isNumber
        split
        · exact .after fun _ => .pure noShift
        · rename_i notBelow
          refine .pure fun other same => ?_
          cases same
          exact isNonneg_motion (widen_nonneg signed notBelow)
      · exact .after fun _ => .pure noShift

variable {anchor : Option Handle}

theorem advancing_analyseShift (isForward : Bool) (node : Node) :
    Advancing (analyseShift isForward node anchor) := by
  refine ((isPlain_readShift isForward node).advancingTo
    (yields_readShift isForward node)).bind fun result nonneg => ?_
  rcases result with ⟨_ | shift, rest⟩
  · exact advancing_pure none
  · have moved : Advancing (modifyContext fun context =>
        { context with clock := TimeShift.apply isForward shift context.clock }) := by
      simpa only [apply_motion] using advancing_move _ (nonneg shift rfl)
    refine (isPlain_reportExtra _ _).advancing.bind fun _ _ => ?_
    refine moved.bind fun _ _ => ?_
    exact (IsPlain.addObject _ _ _).advancing.bind fun _ _ => advancing_pure _

/-! ## Whole elements -/

theorem advancing_analyseNoteRest (flavor : Flavor) (node : Node) :
    Advancing (analyseNoteRest flavor node anchor) := by
  refine IsPlain.context.advancing.bind fun context _ => ?_
  dsimp only
  generalize (if flavor = .chordNote then context.lastNote else none) = base
  have read : Yields (addNoteRest flavor node anchor base) fun result =>
      result.2.1.dots < 256 ∧ Written.Says ⟨result.1, flavor, node⟩ result.2.2 :=
    fun state => ⟨yields_addNoteRest_dots flavor node anchor base state,
      yields_addNoteRest flavor node anchor base state⟩
  refine ((isPlain_addNoteRest flavor node base).advancingTo read).bind ?_
  rintro ⟨handle, value, decorations⟩ ⟨few, decorated⟩
  refine (advancing_settleNoteRest base few decorated).bind fun _ _ => ?_
  exact advancing_pure _

theorem advancing_clearPending : Advancing clearPending :=
  advancing_settle fun _ _ _ _ waits => absurd waits List.not_mem_nil

theorem advancing_startInstrument : Advancing (modifyContext Context.startInstrument) :=
  fun before fit =>
    ⟨[.start], .start before, by simp [Clock.Motion.IsNonneg], fit, trivial⟩

/-- Whatever is analysed, the clock is moved by no duration below zero. -/
theorem spreads_advancing : Spreads Advancing where
  plain := IsPlain.advancing
  bind first second := first.bind fun result _ => second result
  noteRest flavor node _ := advancing_analyseNoteRest flavor node
  shift isForward node _ := advancing_analyseShift isForward node
  endMeasure := advancing_move .endMeasure trivial
  clear := advancing_clearPending
  start := advancing_startInstrument

end Analyser

end LdpScore
