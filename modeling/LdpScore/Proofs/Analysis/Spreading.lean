import LdpScore.Proofs.Analysis.Plain

/-!
# From steps to whole elements

An analysis is made of plain steps and of a few others: the turns of notes and rests,
the cursor moves, the end of a measure, and what comes before an instrument.  A property
that holds of all of these and is kept when steps follow each other `Spreads`: it holds
of every element and of the analysis as a whole.
-/

namespace LdpScore.Analyser

/-- A property that steps of all kinds have, and that steps keep when they follow each
other. -/
structure Spreads (Holds : {Value : Type} → Analyser Value → Prop) : Prop where
  plain {Value : Type} {action : Analyser Value} : IsPlain action → Holds action
  bind {Value Result : Type} {action : Analyser Result} {next : Result → Analyser Value} :
    Holds action → (∀ result, Holds (next result)) → Holds (action >>= next)
  noteRest (flavor : Flavor) (node : Node) (anchor : Option Handle) :
    Holds (analyseNoteRest flavor node anchor)
  shift (isForward : Bool) (node : Node) (anchor : Option Handle) :
    Holds (analyseShift isForward node anchor)
  endMeasure : Holds (modifyContext fun context =>
    { context with clock := context.clock.endMeasure })
  clear : Holds clearPending
  start : Holds (modifyContext Context.startInstrument)

namespace Spreads

variable {Holds : {Value : Type} → Analyser Value → Prop}
variable {Value Result : Type} {anchor : Option Handle}

theorem pure (spreads : Spreads Holds) (value : Value) :
    Holds (Pure.pure value : Analyser Value) :=
  spreads.plain (.pure value)

theorem map (spreads : Spreads Holds) {action : Analyser Result}
    (holds : Holds action) (change : Result → Value) :
    Holds (change <$> action) := by
  rw [map_eq_pure_bind]
  exact spreads.bind holds fun result => spreads.pure (change result)

theorem analyseEach (spreads : Spreads Holds)
    {analyserOf : ElementKind → Option (Node → Analyser Unit)}
    (each : ∀ kind analyser node, analyserOf kind = some analyser →
      Holds (analyser node))
    (children : List Node) :
    Holds (Analyser.analyseEach analyserOf children) := by
  induction children with
  | nil => exact spreads.pure ()
  | cons child rest induction =>
      rw [Analyser.analyseEach]
      split
      · rename_i analyser isAnalyser
        obtain ⟨kind, _, known⟩ := Option.bind_eq_some_iff.mp isAnalyser
        exact spreads.bind (each kind analyser child known) fun _ => induction
      · exact spreads.bind (spreads.plain (isPlain_reportMisplaced child))
          fun _ => induction

theorem optional (spreads : Spreads Holds) {analyser : Node → Analyser Unit}
    (each : ∀ child, Holds (analyser child)) (child : Option Node) :
    Holds (analyseOptional analyser child) := by
  cases child with
  | none => exact spreads.pure ()
  | some child => exact each child

/-! ## Music -/

theorem chordNotes (spreads : Spreads Holds) (children : List Node) :
    Holds (Analyser.chordNotes anchor children) := by
  induction children with
  | nil => exact spreads.pure ()
  | cons child rest induction =>
      rw [Analyser.chordNotes]
      split
      · exact spreads.bind (spreads.noteRest _ _ _) fun _ => induction
      · exact spreads.bind (spreads.plain (isPlain_reportMisplaced child))
          fun _ => induction

theorem chord (spreads : Spreads Holds) (node : Node) :
    Holds (analyseChord node anchor) := by
  have members : ∀ children, Holds (chordChildren anchor children) := by
    intro children
    induction children with
    | nil => exact spreads.pure none
    | cons child rest induction =>
        rw [chordChildren]
        split
        · refine spreads.bind (spreads.noteRest _ _ _) fun base => ?_
          exact spreads.bind (spreads.chordNotes rest) fun _ => spreads.pure (some base)
        · exact spreads.bind (spreads.plain (isPlain_reportMisplaced child))
            fun _ => induction
  refine spreads.bind (members node.children) fun base => ?_
  exact spreads.bind (spreads.plain .model) fun _ => spreads.pure _

theorem barline (spreads : Spreads Holds) (node : Node) :
    Holds (analyseBarline node anchor) := by
  refine spreads.bind (spreads.plain (isPlain_optionalName _ _ _ _)) fun _ => ?_
  refine spreads.bind (spreads.plain (isPlain_optionalWord _ _)) fun _ => ?_
  refine spreads.bind (spreads.plain (isPlain_staffOptions _ _)) fun _ => ?_
  refine spreads.bind (spreads.plain (isPlain_addStaffObject _ _ _)) fun handle => ?_
  exact spreads.bind spreads.endMeasure fun _ => spreads.pure handle

theorem staffObject (spreads : Spreads Holds)
    {kind : ElementKind} {analyser : Node → Analyser (Option Handle)}
    (known : staffObjectAnalyser? anchor kind = some analyser) (node : Node) :
    Holds (analyser node) := by
  unfold staffObjectAnalyser? at known
  split at known <;> cases known
  case h_1 | h_2 | h_3 => exact spreads.map (spreads.noteRest _ node _) _
  case h_4 => exact spreads.chord node
  case h_8 => exact spreads.map (spreads.barline node) _
  case h_9 | h_10 => exact spreads.shift _ node _
  all_goals exact spreads.plain (by simp)

theorem musicData (spreads : Spreads Holds) (node : Node) :
    Holds (analyseMusicData node anchor) := by
  refine spreads.bind (spreads.plain (.addObject _ _ _)) fun handle => ?_
  refine spreads.bind (spreads.analyseEach ?_ _) fun _ => spreads.pure handle
  intro kind analyser node known
  obtain ⟨reading, isReading, rfl⟩ := Option.map_eq_some_iff.mp known
  exact spreads.map (spreads.staffObject isReading node) _

/-! ## Above the music -/

theorem instrument (spreads : Spreads Holds) (node : Node) :
    Holds (analyseInstrument node anchor) := by
  have music : ∀ handle : Handle, ∀ node, Holds
      (discard (analyseMusicData node (some handle))) :=
    fun _ node => spreads.map (spreads.musicData node) _
  refine spreads.bind spreads.clear fun _ => ?_
  refine spreads.bind spreads.start fun _ => ?_
  refine spreads.bind (spreads.plain (.addObject _ _ _)) fun handle => ?_
  refine spreads.bind (spreads.plain (isPlain_instrumentHead _ _)) fun rest => ?_
  refine spreads.bind (spreads.plain (isPlain_mandatory _ _ _)) fun result => ?_
  refine spreads.bind (spreads.optional (music handle) _) fun _ => ?_
  exact spreads.bind (spreads.plain (isPlain_reportExtra _ _)) fun _ =>
    spreads.pure handle

theorem score (spreads : Spreads Holds) (node : Node) :
    Holds (analyseScore node anchor) := by
  refine spreads.bind (spreads.plain (.modifyContext fun _ => rfl)) fun _ => ?_
  refine spreads.bind (spreads.plain (.addObject _ _ _)) fun handle => ?_
  refine spreads.bind (spreads.plain (isPlain_scoreHead _ _)) fun rest => ?_
  refine spreads.bind (spreads.plain (isPlain_requireInstrument _ _)) fun _ => ?_
  refine spreads.bind (spreads.analyseEach ?_ _) fun _ => spreads.pure handle
  intro kind analyser node known
  unfold instrumentAnalyser? at known
  split at known <;> cases known
  exact spreads.map (spreads.instrument node) _

theorem block (spreads : Spreads Holds)
    {handle : Handle} {kind : ElementKind} {analyser : Node → Analyser Unit}
    (known : blockAnalyser? handle kind = some analyser) (node : Node) :
    Holds (analyser node) := by
  unfold blockAnalyser? at known
  split at known <;> cases known
  case h_1 => exact spreads.map (spreads.score node) _
  all_goals exact spreads.plain (by simp)

theorem content (spreads : Spreads Holds) (node : Node) :
    Holds (analyseContent node anchor) := by
  refine spreads.bind (spreads.plain (.addObject _ _ _)) fun handle => ?_
  exact spreads.bind
    (spreads.analyseEach (fun _ _ node known => spreads.block known node) _)
    fun _ => spreads.pure handle

theorem document (spreads : Spreads Holds) (node : Node) :
    Holds (analyseDocument node anchor) := by
  have body : ∀ handle : Handle, ∀ node, Holds
      (discard (analyseContent node (some handle))) :=
    fun _ node => spreads.map (spreads.content node) _
  refine spreads.bind (spreads.plain (isPlain_mandatory _ _ _)) fun result => ?_
  rcases result with ⟨_ | version, rest⟩
  · exact spreads.pure none
  · refine spreads.bind (spreads.plain (.addObject _ _ _)) fun handle => ?_
    refine spreads.bind (spreads.plain (isPlain_mandatory _ _ _)) fun result => ?_
    refine spreads.bind (spreads.optional (body handle) _) fun _ => ?_
    exact spreads.bind (spreads.plain (isPlain_reportExtra _ _)) fun _ =>
      spreads.pure _

/-! ## Any element -/

theorem analyser (spreads : Spreads Holds)
    {kind : ElementKind} {analyser : Node → Analyser Analysed}
    (known : analyserOf? kind anchor = some analyser) (node : Node) :
    Holds (analyser node) := by
  unfold analyserOf? at known
  split at known
  case h_1 => cases known; exact spreads.map (spreads.document node) _
  case h_4 => cases known; exact spreads.map (spreads.content node) _
  case h_8 => cases known; exact spreads.map (spreads.score node) _
  case h_12 => cases known; exact spreads.map (spreads.instrument node) _
  case h_16 => cases known; exact spreads.map (spreads.musicData node) _
  case h_27 =>
    split at known
    · cases known
      exact spreads.plain (by simp)
    · obtain ⟨reading, isReading, rfl⟩ := Option.map_eq_some_iff.mp known
      exact spreads.map (spreads.staffObject isReading node) _
  all_goals
    cases known
    exact spreads.plain (by simp)

theorem node (spreads : Spreads Holds) (node : Node) (anchor : Option Handle) :
    Holds (analyseNode node anchor) := by
  rw [analyseNode]
  split
  · rename_i analyser isAnalyser
    obtain ⟨kind, _, known⟩ := Option.bind_eq_some_iff.mp isAnalyser
    exact spreads.analyser known node
  · exact spreads.bind (spreads.plain (.report _ _)) fun _ => spreads.pure _

/-- What spreads holds of an analysis as a whole. -/
theorem root (spreads : Spreads Holds) (root : Node) : Holds (analyseRoot root) := by
  refine spreads.bind (spreads.node root none) fun analysed => ?_
  cases analysed with
  | object handle =>
      exact spreads.bind (spreads.plain (.modifyModel _)) fun _ => spreads.clear
  | _ => exact spreads.bind (spreads.pure ()) fun _ => spreads.clear

end Spreads

end LdpScore.Analyser
