import LdpScore.Proofs.Analysis.Adjusting
import LdpScore.Proofs.Analysis.Run

/-!
# Elements that build nothing

An analyser checks what its element needs before it changes anything.  So an
element that is given up midway leaves no trace but reports and settings, and nor
does one that never becomes an object: it consumes no id, joins no relation, and
the cursor, the staff, the voice and the last note stay where they are.

A chord is the exception.  Its notes become objects even if it is none itself.
-/

namespace LdpScore

/-- Two states that differ in settings and reports only. -/
structure Analysis.Idles (before after : Analysis) : Prop where
  model : after.draft.model = before.draft.model
  ids : after.draft.ids = before.draft.ids
  pending : after.pending = before.pending
  /-- Nothing else of the context is changed. -/
  context : after.context = before.context.withSettings after.context

namespace Analysis.Idles

theorem refl (state : Analysis) : Idles state state :=
  ⟨rfl, rfl, rfl, rfl⟩

theorem trans
    {first middle last : Analysis}
    (earlier : Idles first middle) (later : Idles middle last) :
    Idles first last := by
  refine ⟨later.model.trans earlier.model, later.ids.trans earlier.ids,
    later.pending.trans earlier.pending, ?_⟩
  have context := later.context
  rw [earlier.context, Context.withSettings_withSettings] at context
  exact context

end Analysis.Idles

namespace Analyser

variable {Value Result : Type}

/-- A step that only reads and changes nothing in the context but settings. -/
def Idle (action : Analyser Value) : Prop :=
  ∀ before, Ensures action before fun _ after => before.Idles after

theorem Quiet.idle
    {action : Analyser Value} {property : Value → Prop}
    (quiet : Quiet action property) (adjusts : Adjusts action) :
    Idle action := by
  intro before
  obtain ⟨agrees, _⟩ := quiet before
  exact ⟨agrees.draft.model, agrees.draft.ids, agrees.pending, adjusts before⟩

theorem idle_report
    (location : Location) {problem : Problem} (other : problem ≠ .idTaken) :
    Idle (report location problem) :=
  (reads_report location other).idle (adjusts_report location problem)

theorem idle_mandatory
    (parent : Node) (kind : ElementKind) (children : List Node) :
    Idle (mandatory parent kind children) :=
  (quiet_mandatory parent kind children).idle
    (adjusts_mandatory parent kind children)

/-! ## Analysers of elements that may become no object -/

/-- A step that idles unless it returns something. -/
def Barren (action : Analyser (Option Value)) : Prop :=
  ∀ before, Ensures action before fun result after =>
    result = none → before.Idles after

namespace Barren

theorem bind
    {action : Analyser Result} {next : Result → Analyser (Option Value)}
    (first : Idle action) (second : ∀ result, Barren (next result)) :
    Barren (action >>= next) := by
  intro before
  apply (first before).bind
  intro result middle earlier
  apply (second result middle).mono
  intro value after later isNone
  exact earlier.trans (later isNone)

theorem pure (value : Option Value) :
    Barren (Pure.pure value : Analyser (Option Value)) :=
  fun before _ => .refl before

/-- Where something is always returned, there is nothing to show. -/
theorem of_isSome
    {action : Analyser (Option Value)}
    (isSome : ∀ before, (action.run before).run.1.isSome = true) :
    Barren action := by
  intro before isNone
  have given := isSome before
  rw [isNone] at given
  cases given

theorem some (action : Analyser Value) : Barren (Option.some <$> action) :=
  .of_isSome fun _ => rfl

end Barren

theorem barren_analyseDocument (node : Node) (anchor : Option Handle) :
    Barren (analyseDocument node anchor) := by
  refine .bind (idle_mandatory node .version node.children) fun result => ?_
  rcases result with ⟨_ | version, rest⟩
  · exact .pure none
  · exact .of_isSome fun _ => rfl

theorem barren_analyseTextItem (node : Node) (anchor : Option Handle) :
    Barren (analyseTextItem node anchor) := by
  refine .bind (idle_mandatory node .string node.children) fun result => ?_
  rcases result with ⟨_ | text, rest⟩
  · exact .pure none
  · exact .of_isSome fun _ => rfl

theorem barren_analyseTitle (node : Node) (anchor : Option Handle) :
    Barren (analyseTitle node anchor) := by
  refine .bind ((reads_optionalAlignment node.children).idle (by simp))
    fun alignment => ?_
  refine .bind (idle_mandatory node .string alignment.2) fun result => ?_
  rcases result with ⟨_ | text, rest⟩
  · exact .pure none
  · exact .of_isSome fun _ => rfl

theorem barren_analyseOption (node : Node) (anchor : Option Handle) :
    Barren (analyseOption node anchor) := by
  refine .bind ((reads_readOption node).idle (by simp)) fun result => ?_
  rcases result with _ | ⟨name, value⟩
  · exact .pure none
  · refine .bind (reads_model.idle (by simp)) fun current => ?_
    split
    · exact .of_isSome fun _ => rfl
    · exact .of_isSome fun _ => rfl

theorem barren_analyseText (node : Node) (anchor : Option Handle) :
    Barren (analyseText node anchor) := by
  refine .bind (idle_mandatory node .string node.children) fun result => ?_
  rcases result with ⟨_ | text, rest⟩
  · exact .pure none
  · exact .of_isSome fun _ => rfl

theorem barren_analyseDynamics (node : Node) (anchor : Option Handle) :
    Barren (analyseDynamics node anchor) := by
  refine .bind (idle_mandatory node .string node.children) fun result => ?_
  rcases result with ⟨_ | mark, rest⟩
  · exact .pure none
  · dsimp only
    split
    · exact .of_isSome fun _ => rfl
    · exact .bind (idle_report _ (by simp)) fun _ => .pure none

/-- The placement of a lyric is remembered even if its anchor is no note. -/
theorem barren_analyseLyric (node : Node) (anchor : Option Handle) :
    Barren (analyseLyric node anchor) := by
  refine .bind (reads_model.idle (by simp)) fun current => ?_
  refine .bind ((reads_lyricLine node.children).idle (by simp)) fun line => ?_
  dsimp only
  split
  · exact .bind (idle_report _ (by simp)) fun _ => .pure none
  · refine .bind ((reads_lyricOptions _).idle (by simp)) fun options => ?_
    refine .bind ((reads_choosePlacement _ _).idle (by simp))
      fun placement => ?_
    refine .bind ((quiet_printOptions _ _).idle (by simp)) fun shown => ?_
    refine .bind ((reads_reportExtra node _).idle (by simp)) fun _ => ?_
    split
    · exact .of_isSome fun _ => rfl
    · exact .bind (idle_report _ (by simp)) fun _ => .pure none

/-- A cursor move that cannot be followed moves nothing. -/
theorem barren_analyseShift
    (isForward : Bool) (node : Node) (anchor : Option Handle) :
    Barren (analyseShift isForward node anchor) := by
  refine .bind ((reads_readShift isForward node).idle (by simp))
    fun result => ?_
  rcases result with ⟨_ | shift, rest⟩
  · exact .pure none
  · exact .of_isSome fun _ => rfl

/-- A spacer without a width does not set the staff either. -/
theorem barren_analyseSpacer (node : Node) (anchor : Option Handle) :
    Barren (analyseSpacer node anchor) := by
  rw [analyseSpacer]
  rcases take? .number node.children with ⟨_ | number, rest⟩
  · exact .bind (idle_report _ (by simp)) fun _ => .pure none
  · exact .of_isSome fun _ => rfl

/-- Every element of music data idles unless it becomes an object, a chord
apart. -/
theorem barren_staffObject
    {anchor : Option Handle} {kind : ElementKind}
    {analyser : Node → Analyser (Option Handle)}
    (known : staffObjectAnalyser? anchor kind = some analyser)
    (other : kind ≠ .chord) (node : Node) :
    Barren (analyser node) := by
  unfold staffObjectAnalyser? at known
  split at known
  case h_4 => exact absurd rfl other
  case h_15 => cases known
  all_goals cases known
  case h_9 => exact barren_analyseShift false node anchor
  case h_10 => exact barren_analyseShift true node anchor
  case h_11 => exact barren_analyseSpacer node anchor
  case h_14 => exact barren_analyseText node anchor
  all_goals exact .some _

/-! ## All elements -/

/-- A step that idles unless it gives an object. -/
def IdlesUnlessObject (action : Analyser Analysed) : Prop :=
  ∀ before, Ensures action before fun analysed after =>
    (∀ handle, analysed ≠ .object handle) → before.Idles after

namespace IdlesUnlessObject

theorem object (action : Analyser Handle) :
    IdlesUnlessObject (.object <$> action) :=
  fun _ none => absurd rfl (none _)

theorem barren
    {action : Analyser (Option Handle)} (idles : Barren action) :
    IdlesUnlessObject (.ofOption .object <$> action) := by
  intro before none
  refine idles before (Option.eq_none_iff_forall_ne_some.mpr ?_)
  intro handle given
  exact none handle (congrArg (Analysed.ofOption .object) given)

theorem map
    {action : Analyser Result} (idles : Idle action)
    (change : Result → Analysed) :
    IdlesUnlessObject (change <$> action) :=
  fun before _ => idles before

end IdlesUnlessObject

theorem idlesUnlessObject_analyserOf
    {kind : ElementKind} {anchor : Option Handle}
    {analyser : Node → Analyser Analysed}
    (known : analyserOf? kind anchor = some analyser)
    (other : kind ≠ .chord) (node : Node) :
    IdlesUnlessObject (analyser node) := by
  have nothing : IdlesUnlessObject (Pure.pure .nothing) :=
    fun before _ => .refl before
  unfold analyserOf? at known
  split at known
  case h_27 =>
    split at known
    · cases known
      exact .object _
    · obtain ⟨given, isStaffObject, rfl⟩ := Option.map_eq_some_iff.mp known
      exact .barren (barren_staffObject isStaffObject other node)
  all_goals cases known
  case h_1 => exact .barren (barren_analyseDocument node anchor)
  case h_2 =>
    exact .map ((reads_analyseVersion node).idle (adjusts_analyseVersion node))
      fun _ => .nothing
  case h_3 => exact nothing
  case h_7 => exact .barren (barren_analyseTextItem node anchor)
  case h_9 => exact .barren (barren_analyseTitle node anchor)
  case h_10 => exact .barren (barren_analyseOption node anchor)
  case h_11 => exact nothing
  case h_13 => exact .barren (barren_analyseText node anchor)
  case h_14 => exact .barren (barren_analyseText node anchor)
  case h_15 =>
    exact .map ((reads_analyseStaves node).idle (adjusts_analyseStaves node))
      fun _ => .nothing
  case h_17 =>
    exact .map ((quiet_analyseTie node anchor).idle
      (adjusts_analyseTie node anchor)) _
  case h_18 =>
    exact .map ((quiet_analyseSlur node anchor).idle
      (adjusts_analyseSlur node anchor)) _
  case h_19 =>
    exact .map ((quiet_analyseBeam node anchor).idle
      (adjusts_analyseBeam node anchor)) _
  case h_20 =>
    exact .map ((quiet_analyseTuplet node anchor).idle
      (adjusts_analyseTuplet node anchor)) _
  case h_21 =>
    exact .map ((reads_analyseTimeModification node).idle
      (adjusts_analyseTimeModification node)) _
  case h_22 =>
    exact .map ((reads_analyseColor node).idle (adjusts_analyseColor node)) _
  case h_23 =>
    exact .map ((reads_analyseBezier node).idle (adjusts_analyseBezier node)) _
  case h_25 => exact .barren (barren_analyseDynamics node anchor)
  case h_26 => exact .barren (barren_analyseLyric node anchor)
  all_goals exact .object _

end Analyser

/-- In every state, an element that is no chord and does not become an object
changes nothing but settings. -/
theorem idles_analyseNode
    (node : Node) (anchor : Option Handle) (before : Analysis)
    (other : node.kind? ≠ some .chord)
    (noObject : ∀ handle,
      ((Analyser.analyseNode node anchor).run before).run.1 ≠ .object handle) :
    before.Idles ((Analyser.analyseNode node anchor).run before).run.2 := by
  suffices idles : Analyser.IdlesUnlessObject (Analyser.analyseNode node anchor)
    from idles before noObject
  rw [Analyser.analyseNode]
  split
  · rename_i analyser isAnalyser
    obtain ⟨kind, isKind, known⟩ := Option.bind_eq_some_iff.mp isAnalyser
    refine Analyser.idlesUnlessObject_analyserOf known ?_ node
    rintro rfl
    exact other isKind
  · exact .map (Analyser.idle_report _ (by simp)) fun _ => .nothing

/-- The start of a tuplet gives a descriptor of its note, and the tuplets after it
have no bracket either. -/
theorem idles_analyseNode_tuplet :
    ∃ root, (Node.read (Token.lex "(t 1 + 3 2 noBracket)" "")).result =
        .ok root ∧
      let before : Analysis := { context := { lastNote := some 4 } }
      let outcome := ((Analyser.analyseNode root (some 4)).run before).run
      outcome.2.context.tupletBracket ≠ before.context.tupletBracket ∧
        root.kind? ≠ some .chord ∧
        (∀ handle, outcome.1 ≠ .object handle) ∧ before.Idles outcome.2 := by
  obtain ⟨root, isTree, checked⟩ := exists_tree_of_any
    (fun root =>
      let before : Analysis := { context := { lastNote := some 4 } }
      let outcome := ((Analyser.analyseNode root (some 4)).run before).run
      outcome.2.context.tupletBracket ≠ before.context.tupletBracket ∧
        root.kind? ≠ some .chord ∧
        outcome.1 = .tuplet ⟨0, .start, 3, 2, .no, .actual, 4, root.location⟩)
    (by decide +kernel : (Node.read
      (Token.lex "(t 1 + 3 2 noBracket)" "")).result.toOption.any _)
  obtain ⟨changed, other, isTuplet⟩ := of_decide_eq_true checked
  have noObject : ∀ handle,
      ((Analyser.analyseNode root (some 4)).run
        { context := { lastNote := some 4 } }).run.1 ≠ .object handle := by
    intro handle isObject
    cases isTuplet.symm.trans isObject
  exact ⟨root, isTree, changed, other, noObject,
    idles_analyseNode root (some 4) _ other noObject⟩

end LdpScore
