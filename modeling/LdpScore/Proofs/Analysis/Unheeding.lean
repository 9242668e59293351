import LdpScore.Proofs.Analysis.Spreading
import LdpScore.Proofs.Relation.Preceding

/-!
# An analysis does not heed what was reported

No step of an analysis looks at the reports of those before it.  So a step goes the
same way whatever was reported earlier, and adds the same reports: it is
`Unheeding`.  Plain steps are, and so are those that settle relations or move the
clock; what is made of them is too.
-/

namespace LdpScore

/-- A state before which other reports were made. -/
def Analysis.precededBy (state : Analysis) (earlier : Array Diagnostic) : Analysis :=
  { state with draft := state.draft.precededBy earlier }

namespace Analyser

variable {Value Result : Type}

/-- A step that does the same whatever was reported earlier. -/
def Unheeding (action : Analyser Value) : Prop :=
  ∀ (state : Analysis) (earlier : Array Diagnostic),
    (action.run (state.precededBy earlier)).run =
      ((action.run state).run.1, (action.run state).run.2.precededBy earlier)

/-! ## Elementary steps -/

theorem Unheeding.bind
    {action : Analyser Result} {next : Result → Analyser Value}
    (first : Unheeding action) (second : ∀ result, Unheeding (next result)) :
    Unheeding (action >>= next) := by
  intro state earlier
  have later := second (action.run state).run.1 (action.run state).run.2 earlier
  have ran := first state earlier
  change ((next (action.run (state.precededBy earlier)).run.1).run
    (action.run (state.precededBy earlier)).run.2).run = _
  rw [ran]
  exact later

/-- What is plain does not heed what was reported. -/
@[simp]
theorem IsPlain.unheeding
    {action : Analyser Value} (plain : IsPlain action) : Unheeding action := by
  induction plain with
  | pure value => exact fun _ _ => rfl
  | bind _ _ first second => exact first.bind second
  | context => exact fun _ _ => rfl
  | model => exact fun _ _ => rfl
  | pending => exact fun _ _ => rfl
  | modifyModel change => exact fun _ _ => rfl
  | modifyContext still => exact fun _ _ => rfl
  | report location problem =>
      intro state earlier
      exact congrArg (fun draft => ((), { state with draft := draft }))
        (state.draft.report_precededBy earlier location problem)
  | addObject node anchor content =>
      intro state earlier
      exact congrArg (fun added => (added.1, { state with draft := added.2 }))
        (state.draft.addObject_precededBy earlier node.id? node.location anchor content)

theorem unheeding_pure (value : Value) : Unheeding (pure value) :=
  (IsPlain.pure value).unheeding

theorem unheeding_report (location : Location) (problem : Problem) :
    Unheeding (report location problem) :=
  (IsPlain.report location problem).unheeding

theorem unheeding_modifyContext (change : Context → Context) :
    Unheeding (modifyContext change) :=
  fun _ _ => rfl

/-- What settles relations does not heed what was reported if what it does with the
draft does not. -/
theorem unheeding_settle
    {change : Pending → Draft → Pending × Draft}
    (same : ∀ pending draft earlier, change pending (Draft.precededBy draft earlier) =
      ((change pending draft).1, (change pending draft).2.precededBy earlier)) :
    Unheeding (settle change) := by
  intro state earlier
  exact congrArg (fun settled : Pending × Draft =>
      ((), { state with pending := settled.1, draft := settled.2 }))
    (same state.pending state.draft earlier)

/-! ## Settling the relations of a note or rest -/

section NoteRest

variable (noteRest : Handle) (decorations : Decorations)

theorem unheeding_settleTies : Unheeding (settleTies noteRest decorations) := by
  have legacy : Unheeding (settleLegacyTie decorations.legacyTie noteRest) := by
    refine unheeding_settle fun pending draft earlier => ?_
    cases decorations.legacyTie with
    | none => simp [LegacyTie.offer_precededBy]
    | some label => simp [LegacyTie.start_precededBy]
  refine legacy.bind fun _ => ?_
  cases decorations.tie with
  | none => exact unheeding_pure ()
  | some point =>
      refine unheeding_settle fun pending draft earlier => ?_
      simp [Tie.add_precededBy]

theorem unheeding_settleTuplet (point : TupletPoint) : Unheeding (settleTuplet point) := by
  refine unheeding_settle fun pending draft earlier => ?_
  simp [Tuplet.add_precededBy]

theorem unheeding_joinTuplets (location : Location) :
    Unheeding (joinTuplets noteRest location) :=
  unheeding_settle fun _ _ _ => rfl

theorem unheeding_openRatio : Unheeding openRatio :=
  (IsPlain.pending.bind fun _ => .pure _).unheeding

theorem unheeding_legacyTuplet
    (label : Node) (phase : Phase) (number : Int) (actual normal : Nat) :
    Unheeding (legacyTuplet label phase number actual normal noteRest) :=
  (IsPlain.context.bind fun _ => .pure _).unheeding

theorem unheeding_settleLegacyTuplet (label : Node) :
    Unheeding (settleLegacyTuplet label noteRest) := by
  rw [settleLegacyTuplet]
  dsimp only
  split
  · refine unheeding_openRatio.bind fun ratio => ?_
    refine IsPlain.pending.unheeding.bind fun pending => ?_
    refine (unheeding_legacyTuplet noteRest _ _ _ _ _).bind fun point => ?_
    exact (unheeding_settleTuplet point).bind fun _ => unheeding_pure ratio
  · split
    · exact (unheeding_report _ _).bind fun _ => unheeding_openRatio
    · refine IsPlain.pending.unheeding.bind fun pending => ?_
      split
      · exact (unheeding_report _ _).bind fun _ => unheeding_openRatio
      · refine (unheeding_legacyTuplet noteRest _ _ _ _ _).bind fun point => ?_
        exact (unheeding_settleTuplet point).bind fun _ => unheeding_openRatio

theorem unheeding_settleTuplets (point : Option TupletPoint) (node : Node) :
    Unheeding (settleTuplets point noteRest node) := by
  have join := unheeding_joinTuplets noteRest node.location
  unfold settleTuplets
  cases point with
  | none => exact join.bind fun _ => unheeding_openRatio
  | some point =>
      dsimp only
      split
      · refine unheeding_openRatio.bind fun ratio => ?_
        refine (unheeding_settleTuplet point).bind fun _ => ?_
        exact join.bind fun _ => unheeding_pure ratio
      · refine join.bind fun _ => ?_
        exact (unheeding_settleTuplet point).bind fun _ => unheeding_openRatio

theorem unheeding_tupletFactor (node : Node) :
    Unheeding (tupletFactor decorations noteRest node) := by
  rw [tupletFactor]
  split
  · exact unheeding_settleLegacyTuplet noteRest _
  · exact unheeding_settleTuplets noteRest _ node

theorem unheeding_settleLegacyBeam (type : NoteType) (node : Node) :
    Unheeding (settleLegacyBeam decorations noteRest type node) := by
  have joined : ∀ location, Unheeding (joinLegacyBeam noteRest location) :=
    fun _ => unheeding_settle fun _ _ _ => rfl
  have closed : ∀ location, Unheeding (closeLegacyBeam noteRest location) := by
    refine fun location => unheeding_settle fun pending draft earlier => ?_
    simp [LegacyBeam.close]
  refine IsPlain.pending.unheeding.bind fun pending => ?_
  dsimp only
  split
  · split
    · split
      · exact unheeding_report _ _
      · split
        · exact (unheeding_report _ _).bind fun _ => joined _
        · exact joined _
    · split
      · exact closed _
      · exact unheeding_report _ _
    · exact unheeding_report _ _
  · split
    · exact joined _
    · exact unheeding_pure ()

theorem unheeding_settleBeams (type : NoteType) (node : Node) :
    Unheeding (settleBeams decorations noteRest type node) := by
  refine (unheeding_settleLegacyBeam noteRest decorations type node).bind fun _ => ?_
  cases decorations.beam with
  | none => exact unheeding_pure ()
  | some point =>
      refine unheeding_settle fun pending draft earlier => ?_
      simp [Beam.add_precededBy]

theorem unheeding_settleSlur : Unheeding (settleSlur decorations) := by
  rw [settleSlur]
  cases decorations.slur with
  | none => exact unheeding_pure ()
  | some point =>
      refine unheeding_settle fun pending draft earlier => ?_
      simp [Slur.add_precededBy]

theorem unheeding_settleRelations (flavor : Flavor) (node : Node) (type : NoteType) :
    Unheeding (settleRelations flavor node noteRest type decorations) := by
  have modified : Unheeding (applyModification noteRest decorations.timeModification) :=
    (isPlain_applyModification noteRest _).unheeding
  have settled : Unheeding (do
      applyModification noteRest decorations.timeModification
      let factor ← tupletFactor decorations noteRest node
      settleBeams decorations noteRest type node
      settleSlur decorations
      return factor) := by
    refine modified.bind fun _ => ?_
    refine (unheeding_tupletFactor noteRest decorations node).bind fun factor => ?_
    refine (unheeding_settleBeams noteRest decorations type node).bind fun _ => ?_
    exact (unheeding_settleSlur decorations).bind fun _ => unheeding_pure factor
  rw [settleRelations]
  dsimp only
  split
  · exact (unheeding_settleTies noteRest decorations).bind fun _ => settled
  · exact settled

theorem joinChord_precededBy
    (base note : Handle) (draft : Draft) (earlier : Array Diagnostic) :
    joinChord base note (draft.precededBy earlier) =
      (joinChord base note draft).precededBy earlier := by
  have chord : chordOf base (draft.precededBy earlier) =
      ((chordOf base draft).1, (chordOf base draft).2.precededBy earlier) := by
    unfold chordOf
    simp only [Draft.model_precededBy]
    split <;> rfl
  simp [joinChord, chord]

theorem unheeding_settleNoteRest
    (flavor : Flavor) (node : Node) (base : Option Handle) (value : NoteValue) :
    Unheeding (settleNoteRest flavor node base noteRest value decorations) := by
  have moved : ∀ duration, Unheeding (joinOrAdvance base noteRest duration) := by
    intro duration
    rw [joinOrAdvance.eq_def]
    cases base with
    | none => exact unheeding_modifyContext _
    | some base =>
        refine unheeding_settle fun pending draft earlier => ?_
        simp [joinChord_precededBy]
  refine (unheeding_settleRelations noteRest decorations _ _ _).bind fun factor => ?_
  refine (moved _).bind fun _ => ?_
  split
  · exact unheeding_modifyContext _
  · exact unheeding_pure ()

end NoteRest

/-! ## Whole elements -/

variable {anchor : Option Handle}

theorem unheeding_analyseNoteRest (flavor : Flavor) (node : Node) :
    Unheeding (analyseNoteRest flavor node anchor) := by
  refine IsPlain.context.unheeding.bind fun context => ?_
  dsimp only
  refine (isPlain_addNoteRest _ _ _).unheeding.bind fun result => ?_
  refine (unheeding_settleNoteRest _ _ _ _ _ _).bind fun _ => ?_
  exact unheeding_pure _

theorem unheeding_analyseShift (isForward : Bool) (node : Node) :
    Unheeding (analyseShift isForward node anchor) := by
  refine (isPlain_readShift _ _).unheeding.bind fun result => ?_
  rcases result with ⟨_ | shift, rest⟩
  · exact unheeding_pure none
  · refine (isPlain_reportExtra _ _).unheeding.bind fun _ => ?_
    refine (unheeding_modifyContext _).bind fun _ => ?_
    exact (IsPlain.addObject _ _ _).unheeding.bind fun _ => unheeding_pure _

theorem unheeding_clearPending : Unheeding clearPending :=
  unheeding_settle fun pending draft earlier =>
    congrArg (Prod.mk _) (pending.reportAll_precededBy draft earlier)

/-- No analysis heeds what was reported before. -/
theorem spreads_unheeding : Spreads Unheeding where
  plain := IsPlain.unheeding
  bind := Unheeding.bind
  noteRest flavor node _ := unheeding_analyseNoteRest flavor node
  shift isForward node _ := unheeding_analyseShift isForward node
  endMeasure := unheeding_modifyContext _
  clear := unheeding_clearPending
  start := unheeding_modifyContext _

end Analyser

end LdpScore
