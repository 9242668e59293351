import LdpScore.Proofs.Analysis.Tupling
import LdpScore.Proofs.Relation.Making

/-!
# Handing descriptors over

At the turn of a kind of relation a note or rest hands over at most one descriptor
of that kind: the one that the last option to give any gives.  The ledger of the
kind has it afterwards.  At other turns nothing is handed over.
-/

namespace LdpScore

open Analyser Pairing

/-- What a turn changes of what waits. -/
inductive Turn.Changes : Turn → Pending → Pending → Prop where
  | legacyTie (pending : Pending) (legacyTie : Option LegacyTie) :
      Changes .legacyTie pending { pending with legacyTie := legacyTie }
  | tie (pending : Pending) (ties : List TiePoint) :
      Changes .tie pending { pending with ties := ties }
  | modification (pending : Pending) : Changes .modification pending pending
  | tuplets (pending : Pending) (tuplets : List TupletPoint) :
      Changes .tuplets pending { pending with tuplets := tuplets }
  | legacyBeam (pending : Pending) (legacyBeam : List BeamPoint) :
      Changes .legacyBeam pending { pending with legacyBeam := legacyBeam }
  | beam (pending : Pending) (beams : List BeamPoint) :
      Changes .beam pending { pending with beams := beams }
  | slur (pending : Pending) (slurs : List SlurPoint) :
      Changes .slur pending { pending with slurs := slurs }
  | chord (pending : Pending) : Changes .chord pending pending

namespace PairedRelation

/-- The turn at which descriptors of a kind are handed over. -/
def turn : PairedRelation → Turn
  | .tie => .tie
  | .slur => .slur
  | .beam => .beam
  | .tuplet => .tuplets

/-- The descriptors that were handed over and wait. -/
def waiting (kind : PairedRelation) (pending : Pending) : List Endpoint :=
  match kind with
  | .tie => pending.ties.map Descriptor.endpoint
  | .slur => pending.slurs.map Descriptor.endpoint
  | .beam => pending.beams.map Descriptor.endpoint
  | .tuplet =>
      (pending.tuplets.filter TupletPoint.isGiven).map Descriptor.endpoint

/-- The element of a note or rest has an option that gives a descriptor.  A legacy
label stands in the place of all elements of tuplets. -/
def IsGivenBy (kind : PairedRelation) (note : Written) : Prop :=
  match kind with
  | .tie => note.noteOptions.any fun node => node.is .tie && node.givesTie
  | .slur => note.noteOptions.any fun node => node.is .slur && node.givesSlur
  | .beam => note.options.any fun node => node.is .beam && node.givesBeam
  | .tuplet =>
      (∀ label ∈ note.abbreviations, ¬ label.isLegacyTuplet) ∧
        note.options.any fun node => node.is .tuplet && node.givesTuplet

/-- The descriptor that the element of a note or rest gives: that of the last
option that gives one.  A legacy label gives one of its own. -/
def Gives
    (kind : PairedRelation) (note : Written) (endpoint : Endpoint) : Prop :=
  match kind with
  | .tie => ∃ point, LastTie note.handle none note.noteOptions (some point) ∧
      endpoint = Descriptor.endpoint point
  | .slur => ∃ point, LastSlur note.handle none note.noteOptions (some point) ∧
      endpoint = Descriptor.endpoint point
  | .beam => ∃ point, LastBeam note.handle none note.options (some point) ∧
      endpoint = Descriptor.endpoint point
  | .tuplet =>
      (∃ label ∈ note.abbreviations, label.isLegacyTuplet) ∨
        ∃ point, LastTuplet note.handle none note.options (some point) ∧
          endpoint = Descriptor.endpoint point

/-- What a note or rest hands over. -/
inductive Hands
    (kind : PairedRelation) (note : Written) (reports : Nat) :
    List Handed → Prop where
  | nothing (noneGiven : ¬ kind.IsGivenBy note) : Hands kind note reports []
  | descriptor (endpoint : Endpoint) (isOwn : endpoint.member = note.handle)
      (gives : kind.Gives note endpoint) :
      Hands kind note reports [⟨endpoint, reports⟩]

/-- The books are kept up to a moment of the analysis. -/
def Keeps
    (kind : PairedRelation) (handed : List Handed) (fates : List Fate)
    (state : Analysis) : Prop :=
  ∃ waiting, kind.Accounts handed fates waiting state.draft ∧
    waiting.map Handed.endpoint = kind.waiting state.pending

theorem Keeps.stand
    {kind : PairedRelation} {handed : List Handed} {fates : List Fate}
    {before after : Analysis} (keeps : kind.Keeps handed fates before)
    (stands : before.draft.Stands after.draft)
    (same : kind.waiting after.pending = kind.waiting before.pending) :
    kind.Keeps handed fates after := by
  obtain ⟨waiting, accounts, waits⟩ := keeps
  exact ⟨waiting, accounts.stand stands, waits.trans same.symm⟩

end PairedRelation

/-- Where no option gives anything, nothing is left. -/
theorem LastOf.any_eq_false
    {Point : Type} {kind : ElementKind} {gives : Node → Bool}
    {read : Node → Analyser (Option Point)} {nodes : List Node}
    (last : LastOf kind gives read none nodes none) :
    ¬ nodes.any fun node => node.is kind && gives node := by
  unfold LastOf at last
  split at last
  · obtain ⟨point, impossible, _⟩ := last
    cases impossible
  · rename_i noneLast
    rw [List.getLast?_eq_none_iff, List.filter_eq_nil_iff] at noneLast
    rw [List.any_eq_true]
    rintro ⟨node, listed, gives⟩
    exact noneLast node listed gives

theorem Tupling.changes
    {note : Written} {decorations : Decorations} {before after : Analysis}
    (tupling : Tupling note decorations before after) :
    Turn.tuplets.Changes before.pending after.pending := by
  cases tupling with
  | useless _ _ agrees =>
      rw [agrees.pending]
      exact .tuplets _ before.pending.tuplets
  | legacy point => exact .tuplets _ _
  | inside => exact .tuplets _ _
  | starting point => exact .tuplets _ _
  | stopping point => exact .tuplets _ _

namespace Analyser

variable {note : Written} {value : NoteValue} {decorations : Decorations}
variable {state : Analysis}

/-! ## Other turns -/

theorem changes_settleLegacyBeam (type : NoteType) :
    Ensures (settleLegacyBeam decorations note.handle type note.node) state
      fun _ after => Turn.legacyBeam.Changes state.pending after.pending := by
  have same : Turn.legacyBeam.Changes state.pending state.pending :=
    .legacyBeam state.pending state.pending.legacyBeam
  have read : Ensures pending state fun _ after => after = state := rfl
  rw [settleLegacyBeam]
  apply read.bind
  rintro waiting _ rfl
  dsimp only
  split
  · split
    · split
      · exact same
      · split
        · exact .legacyBeam _ _
        · exact .legacyBeam _ _
    · split
      · exact .legacyBeam _ _
      · exact same
    · exact same
  · split
    · exact .legacyBeam _ _
    · exact same

/-- Every turn changes only what waits of its own kind. -/
theorem changes_action (turn : Turn) :
    turn.Changes state.pending
      ((turn.action note value decorations).run state).run.2.pending := by
  cases turn with
  | legacyTie =>
      rw [Turn.action, settleLegacyTie]
      exact .legacyTie _ _
  | tie =>
      rw [Turn.action, offerTie]
      split
      · exact .tie _ _
      · exact .tie _ state.pending.ties
  | modification =>
      rw [Turn.action]
      cases decorations.timeModification <;> exact .modification _
  | tuplets =>
      have tupling : Tupling note decorations state _ := tupling_action value
      exact tupling.changes
  | legacyBeam => exact changes_settleLegacyBeam value.type
  | beam =>
      rw [Turn.action, offerBeam]
      split
      · exact .beam _ _
      · exact .beam _ state.pending.beams
  | slur =>
      rw [Turn.action, settleSlur]
      split
      · exact .slur _ _
      · exact .slur _ state.pending.slurs
  | chord => exact .chord _

end Analyser

theorem Turn.Changes.waiting
    {turn : Turn} {before after : Pending} (changes : turn.Changes before after)
    {kind : PairedRelation} (other : turn ≠ kind.turn) :
    kind.waiting after = kind.waiting before := by
  cases changes <;> cases kind <;> first | rfl | exact absurd rfl other

theorem Turn.Changes.same_tuplets
    {turn : Turn} {before after : Pending} (changes : turn.Changes before after)
    (other : turn ≠ .tuplets) :
    after.tuplets = before.tuplets := by
  cases changes <;> first | rfl | exact absurd rfl other

theorem Turn.Changes.same_legacyBeam
    {turn : Turn} {before after : Pending} (changes : turn.Changes before after)
    (other : turn ≠ .legacyBeam) :
    after.legacyBeam = before.legacyBeam := by
  cases changes <;> first | rfl | exact absurd rfl other

/-! ## The own turn -/

namespace PairedRelation

/-- A note or rest hands over what its element gives, and the books are kept. -/
def HandsOver
    (kind : PairedRelation) (note : Written) (handed : List Handed)
    (fates : List Fate) (before after : Analysis) : Prop :=
  ∃ given more, kind.Hands note before.draft.diagnostics.size given ∧
    kind.Keeps (handed ++ given) (fates ++ more) after

variable {kind : PairedRelation} {note : Written} {handed : List Handed}
variable {fates : List Fate} {before after : Analysis}

theorem HandsOver.nothing
    (noneGiven : ¬ kind.IsGivenBy note) (keeps : kind.Keeps handed fates after) :
    kind.HandsOver note handed fates before after := by
  refine ⟨[], [], .nothing noneGiven, ?_⟩
  rw [List.append_nil, List.append_nil]
  exact keeps

end PairedRelation

namespace Analyser

variable {note : Written} {decorations : Decorations} {state : Analysis}
variable {handed : List Handed} {fates : List Fate}

theorem handsOver_offerTie
    (due : Turn.tie.Due note decorations state)
    (decorated : note.Says decorations)
    (keeps : PairedRelation.tie.Keeps handed fates state) :
    PairedRelation.tie.HandsOver note handed fates state
      ((offerTie decorations).run state).run.2 := by
  have last := decorated.tie
  rw [offerTie]
  cases isPoint : decorations.tie with
  | none =>
      rw [isPoint] at last
      exact .nothing last.any_eq_false keeps
  | some point =>
      rw [isPoint] at last
      obtain ⟨waiting, accounts, waits⟩ := keeps
      have ready := due.ready
      have isOwn := due.areOf.tie point isPoint
      have isNote := due.isNote fun isRest => (due.comes isRest).2 rfl
      obtain ⟨more, still, kept, areStill⟩ := accounts.offer_all Tie.linkChain
        waits ready.tiesWait isOwn fun someWait isChain => by
          obtain ⟨start, single⟩ := Tie.filter_eq_singleton ready.tiesWait
            (accounts.phase_ne_stop waits) someWait
          have isStart : start ∈ state.pending.ties := by
            have listed : start ∈ [start] := List.mem_singleton_self start
            rw [← single] at listed
            exact (List.mem_filter.mp listed).1
          rw [single] at isChain ⊢
          exact Tie.makes_linkChain (ready.tieNotes start isStart)
            (isOwn ▸ isNote) isChain
      rw [← Tie.add_eq_settleWith] at kept areStill
      exact ⟨_, more, .descriptor _ isOwn ⟨point, last, rfl⟩, still, kept,
        areStill⟩

theorem handsOver_settleSlur
    (due : Turn.slur.Due note decorations state)
    (decorated : note.Says decorations)
    (keeps : PairedRelation.slur.Keeps handed fates state) :
    PairedRelation.slur.HandsOver note handed fates state
      ((settleSlur decorations).run state).run.2 := by
  have last := decorated.slur
  rw [settleSlur]
  cases isPoint : decorations.slur with
  | none =>
      rw [isPoint] at last
      exact .nothing last.any_eq_false keeps
  | some point =>
      rw [isPoint] at last
      obtain ⟨waiting, accounts, waits⟩ := keeps
      have ready := due.ready
      have isOwn := due.areOf.slur point isPoint
      have isNote := due.isNote fun isRest => by
        rw [due.areOf.onlyNotes isRest] at isPoint
        cases isPoint
      have notes := forall_offered ready.slurNotes isOwn isNote
      obtain ⟨more, still, kept, areStill⟩ := accounts.offer_all Slur.linkChain
        waits (ready.slursWait.mono (Nat.le_succ note.handle)) isOwn
        fun _ isChain => Slur.makes_linkChain
          (fun other listed => notes other
            ((List.filter_sublist.append (List.Sublist.refl _)).subset listed))
          isChain
      rw [← Slur.add_eq_settleWith] at kept areStill
      exact ⟨_, more, .descriptor _ isOwn ⟨point, last, rfl⟩, still, kept,
        areStill⟩

theorem handsOver_offerBeam
    (due : Turn.beam.Due note decorations state)
    (decorated : note.Says decorations)
    (keeps : PairedRelation.beam.Keeps handed fates state) :
    PairedRelation.beam.HandsOver note handed fates state
      ((offerBeam decorations).run state).run.2 := by
  have last := decorated.beam
  rw [offerBeam]
  cases isPoint : decorations.beam with
  | none =>
      rw [isPoint] at last
      exact .nothing last.any_eq_false keeps
  | some point =>
      rw [isPoint] at last
      obtain ⟨waiting, accounts, waits⟩ := keeps
      have ready := due.ready
      have isOwn := due.areOf.beam point isPoint
      have noteRests := forall_offered ready.beamMembers isOwn due.isNoteRest
      obtain ⟨more, still, kept, areStill⟩ := accounts.offer_all
        (fun chain => Beam.linkChain chain
          (chain.all fun point => point.levels.isMainOnly))
        waits ready.beamsWait isOwn
        fun _ isChain => Beam.makes_linkChain
          (fun other listed => noteRests other
            ((List.filter_sublist.append (List.Sublist.refl _)).subset listed))
          isChain _
      rw [← Beam.add_eq_settleWith] at kept areStill
      exact ⟨_, more, .descriptor _ isOwn ⟨point, last, rfl⟩, still, kept,
        areStill⟩

/-- A descriptor is offered to the tuplets that are open. -/
theorem keeps_offerTuplet
    {bound : Handle} {point : TupletPoint}
    (keeps : PairedRelation.tuplet.Keeps handed fates state)
    (ordered : Waiting (bound + 1) state.pending.tuplets)
    (isOwn : point.noteRest = bound) (isGiven : point.isGiven)
    (noteRests : ∀ other ∈ state.pending.tuplets ++ [point],
      state.draft.model.IsNoteRest other.noteRest) :
    ∃ more, PairedRelation.tuplet.Keeps
      (handed ++ [⟨Descriptor.endpoint point, state.draft.diagnostics.size⟩])
      (fates ++ more) (state.offerTuplet point) := by
  obtain ⟨waiting, accounts, waits⟩ := keeps
  obtain ⟨more, still, kept, areStill⟩ := accounts.offer Tuplet.linkChain
    TupletPoint.isGiven waits isGiven ordered isOwn
    fun someWait rising isChain => Tuplet.makes_linkChain someWait rising
      (fun other listed => noteRests other
        ((List.filter_sublist.append (List.Sublist.refl _)).subset listed))
      isChain
  rw [← Tuplet.add_eq_settleWith] at kept areStill
  exact ⟨more, still, kept, areStill⟩

/-- Joining the open tuplets hands nothing over. -/
theorem keeps_joinTuplets
    (keeps : PairedRelation.tuplet.Keeps handed fates state)
    (noteRest : Handle) (location : Location) :
    PairedRelation.tuplet.Keeps handed fates
      (state.joinTuplets noteRest location) := by
  refine keeps.stand (.refl _) ?_
  have noneGiven : ((Tuplet.openStarts state.pending.tuplets).map fun start =>
      { start with
        phase := Phase.continue, noteRest := noteRest
        location := location }).filter TupletPoint.isGiven = [] := by
    apply List.filter_eq_nil_iff.mpr
    intro point listed
    obtain ⟨start, _, rfl⟩ := List.mem_map.mp listed
    exact Bool.false_ne_true
  show ((Tuplet.join state.pending.tuplets noteRest location).filter
    TupletPoint.isGiven).map Descriptor.endpoint = _
  rw [Tuplet.join, List.filter_append, noneGiven, List.append_nil]
  rfl

theorem isGiven_of_ne
    {point : TupletPoint} (noContinue : point.phase ≠ .continue) :
    point.isGiven :=
  bne_iff_ne.mpr noContinue

/-- The descriptor that an element of a tuplet gives starts or stops a tuplet. -/
theorem isGiven_of_lastTuplet
    {handle : Handle} {nodes : List Node} {point : TupletPoint}
    (last : LastTuplet handle none nodes (some point)) :
    point.isGiven := by
  obtain ⟨node, _, _, state, isPoint⟩ := last.exists_mem
  exact isGiven_of_ne
    (yields_analyseTuplet node (some handle) state point isPoint).noContinue

theorem handsOver_tupling
    {after : Analysis} (tupling : Tupling note decorations state after)
    (due : Turn.tuplets.Due note decorations state)
    (decorated : note.Says decorations)
    (keeps : PairedRelation.tuplet.Keeps handed fates state) :
    PairedRelation.tuplet.HandsOver note handed fates state after := by
  have waiting := due.ready.tupletsWait
  have members := due.ready.tupletMembers
  have last := decorated.tuplet
  have isLegacy : decorations.legacyTuplet.isSome →
      ∃ label ∈ note.abbreviations, label.isLegacyTuplet := by
    intro legacy
    obtain ⟨label, isLabel⟩ := Option.isSome_iff_exists.mp legacy
    obtain ⟨listed, _, isOne⟩ :=
      Written.mem_of_tupletLabel? (decorated.legacyTuplet.symm.trans isLabel)
    exact ⟨label, listed, isOne⟩
  cases tupling with
  | useless _ legacy agrees =>
      refine .nothing ?_ (keeps.stand agrees.draft.stands ?_)
      · rintro ⟨noLegacy, _⟩
        obtain ⟨label, listed, isOne⟩ := isLegacy legacy
        exact noLegacy label listed isOne
      · rw [agrees.pending]
  | legacy point legacy isOwn _ noContinue =>
      obtain ⟨more, kept⟩ := keeps_offerTuplet keeps
        (waiting.mono (Nat.le_succ _)) isOwn (isGiven_of_ne noContinue)
        (forall_offered members isOwn due.isNoteRest)
      exact ⟨_, more, .descriptor _ isOwn (Or.inl (isLegacy legacy)), kept⟩
  | inside _ noPoint =>
      rw [noPoint] at last
      refine .nothing ?_ (keeps_joinTuplets keeps _ _)
      rintro ⟨_, isGiven⟩
      exact last.any_eq_false isGiven
  | starting point _ isPoint =>
      rw [isPoint] at last
      have isOwn := due.areOf.tuplet point isPoint
      have joined : ∀ other ∈ Tuplet.join state.pending.tuplets note.handle
          note.node.location,
            state.draft.model.IsNoteRest (member other) :=
        forall_kept (fun _ => Tuplet.mem_join) members due.isNoteRest
      obtain ⟨more, kept⟩ := keeps_offerTuplet
        (keeps_joinTuplets keeps note.handle note.node.location)
        (Tuplet.waiting_join waiting _) isOwn (isGiven_of_lastTuplet last)
        (forall_offered joined isOwn due.isNoteRest)
      exact ⟨_, more, .descriptor _ isOwn (Or.inr ⟨point, last, rfl⟩), kept⟩
  | stopping point _ isPoint =>
      rw [isPoint] at last
      have isOwn := due.areOf.tuplet point isPoint
      obtain ⟨more, kept⟩ := keeps_offerTuplet keeps
        (waiting.mono (Nat.le_succ _)) isOwn (isGiven_of_lastTuplet last)
        (forall_offered members isOwn due.isNoteRest)
      exact ⟨_, more, .descriptor _ isOwn (Or.inr ⟨point, last, rfl⟩),
        keeps_joinTuplets kept _ _⟩

/-- At its turn a kind of relation has its descriptors handed over. -/
theorem handsOver_action
    {kind : PairedRelation} (value : NoteValue)
    (due : kind.turn.Due note decorations state)
    (decorated : note.Says decorations)
    (keeps : kind.Keeps handed fates state) :
    kind.HandsOver note handed fates state
      ((kind.turn.action note value decorations).run state).run.2 := by
  cases kind with
  | tie => exact handsOver_offerTie due decorated keeps
  | slur => exact handsOver_settleSlur due decorated keeps
  | beam => exact handsOver_offerBeam due decorated keeps
  | tuplet => exact handsOver_tupling (tupling_action value) due decorated keeps

/-- Tuplets that are open were started. -/
theorem led_tupling
    {after : Analysis} (tupling : Tupling note decorations state after)
    (decorated : note.Says decorations)
    (led : Tuplet.Led state.pending.tuplets) :
    Tuplet.Led after.pending.tuplets := by
  have offered : ∀ {pending : List TupletPoint} {draft : Draft}
      {point : TupletPoint}, Tuplet.Led pending → point.isGiven →
        Tuplet.Led (Tuplet.add pending point draft).1 := by
    intro pending draft point led isGiven
    rw [Tuplet.add_eq_settleWith, settleWith_fst]
    exact led.offer isGiven
  have last := decorated.tuplet
  cases tupling with
  | useless _ _ agrees =>
      rw [agrees.pending]
      exact led
  | legacy point _ _ _ noContinue => exact offered led (isGiven_of_ne noContinue)
  | inside => exact led.join _ _
  | starting point _ isPoint =>
      rw [isPoint] at last
      exact offered (led.join _ _) (isGiven_of_lastTuplet last)
  | stopping point _ isPoint =>
      rw [isPoint] at last
      exact (offered led (isGiven_of_lastTuplet last)).join _ _

end Analyser

end LdpScore
