import LdpScore.Proofs.Analysis.Moment
import LdpScore.Proofs.Analysis.Yielding

/-!
# What the elements of notes and rests say

An element of a note or rest begins with labels: its pitch, its value and then its
abbreviations.  After them come the options of notes, and then those that notes
share with rests.  Of several options of one kind that give something the last one
counts.
-/

namespace LdpScore

open Analyser

/-! ## The parts of an element -/

namespace Node

def isLabel (node : Node) : Bool :=
  node.is .label

/-- The kinds of the options that only notes have. -/
def noteOptionKinds : List ElementKind :=
  [.tie, .slur, .stem, .lyric]

/-- The kinds of the options that notes share with rests. -/
def optionKinds : List ElementKind :=
  [.tuplet, .timeModification, .beam, .voice]

def isNoteOption (node : Node) : Bool :=
  node.kind?.any noteOptionKinds.contains

def isOption (node : Node) : Bool :=
  node.kind?.any optionKinds.contains

/-- Whether a node is a label of a legacy tuplet. -/
def isLegacyTuplet (node : Node) : Bool :=
  node.text.toList.head? == some 't'

/-- A label, if it is one of a legacy tuplet. -/
def legacyTuplet? (node : Node) : Option Node :=
  if node.isLegacyTuplet then some node else none

variable {node : Node} {kind : ElementKind}

theorem legacyTuplet?_of_head (isT : node.text.toList.head? = some 't') :
    node.legacyTuplet? = some node :=
  if_pos (beq_iff_eq.mpr isT)

theorem legacyTuplet?_of_other (noT : node.text.toList.head? ≠ some 't') :
    node.legacyTuplet? = none :=
  if_neg fun isT => noT (beq_iff_eq.mp isT)

theorem isNoteOption_of
    (isKind : node.kind? = some kind)
    (listed : noteOptionKinds.contains kind) :
    node.isNoteOption := by
  rw [isNoteOption, isKind]
  exact listed

theorem isOption_of
    (isKind : node.kind? = some kind) (listed : optionKinds.contains kind) :
    node.isOption := by
  rw [isOption, isKind]
  exact listed

theorem not_isNoteOption
    (other : ∀ kind ∈ noteOptionKinds, node.kind? ≠ some kind) :
    ¬ node.isNoteOption := by
  rw [isNoteOption, Option.any_eq_true]
  rintro ⟨kind, isKind, listed⟩
  exact other kind (List.contains_iff_mem.mp listed) isKind

theorem not_isOption
    (other : ∀ kind ∈ optionKinds, node.kind? ≠ some kind) :
    ¬ node.isOption := by
  rw [isOption, Option.any_eq_true]
  rintro ⟨kind, isKind, listed⟩
  exact other kind (List.contains_iff_mem.mp listed) isKind

end Node

/-- The last of the values that nodes of a kind give. -/
def lastGiven?
    {Value : Type} (kind : ElementKind) (read : Node → Option Value)
    (nodes : List Node) : Option Value :=
  ((nodes.filter fun node => node.is kind).filterMap read).getLast?

theorem lastGiven?_cons
    {Value : Type} (kind : ElementKind) (read : Node → Option Value)
    (node : Node) (rest : List Node) :
    lastGiven? kind read (node :: rest) =
      (lastGiven? kind read rest).or
        (if node.is kind then read node else none) := by
  unfold lastGiven?
  by_cases isKind : node.is kind
  · cases given : read node with
    | none => simp [isKind, given]
    | some value =>
        simp only [List.filter_cons, isKind, if_true, List.filterMap_cons,
          given, List.getLast?_cons]
        cases List.getLast? _ <;> rfl
  · simp [isKind]

/-- What is left of the descriptors that options of a kind give when each of them
takes the place of those before: that of the last option that gives one. -/
def LastOf
    {Point : Type} (kind : ElementKind) (gives : Node → Bool)
    (read : Node → Analyser (Option Point)) (earlier : Option Point)
    (nodes : List Node) (result : Option Point) : Prop :=
  match (nodes.filter fun node => node.is kind && gives node).getLast? with
  | some node => ∃ point, result = some point ∧
      ∃ state, ((read node).run state).run.1 = some point
  | none => result = earlier

namespace LastOf

variable {Point : Type} {kind : ElementKind} {gives : Node → Bool}
variable {read : Node → Analyser (Option Point)}
variable {earlier result : Option Point} {node : Node} {rest : List Node}

theorem nil : LastOf kind gives read earlier [] earlier :=
  rfl

/-- Options of other kinds do not count. -/
theorem skip
    (other : ¬ node.is kind) (last : LastOf kind gives read earlier rest result) :
    LastOf kind gives read earlier (node :: rest) result := by
  unfold LastOf at last ⊢
  rw [List.filter_cons_of_neg (by simp [other])]
  exact last

/-- What one more option gives takes the place of what was given before. -/
theorem cons
    {given : Option Point} (isKind : node.is kind)
    (isSome : given.isSome = gives node)
    (isGiven : ∃ state, ((read node).run state).run.1 = given)
    (last : LastOf kind gives read (given <|> earlier) rest result) :
    LastOf kind gives read earlier (node :: rest) result := by
  unfold LastOf at last ⊢
  cases doesGive : gives node with
  | false =>
      rw [doesGive, Option.isSome_eq_false_iff, Option.isNone_iff_eq_none]
        at isSome
      rw [List.filter_cons_of_neg (by simp [doesGive])]
      rw [isSome] at last
      exact last
  | true =>
      rw [doesGive] at isSome
      obtain ⟨point, rfl⟩ := Option.isSome_iff_exists.mp isSome
      rw [List.filter_cons_of_pos (by simp [isKind, doesGive]),
        List.getLast?_cons]
      split at last
      · rename_i final isFinal
        rw [isFinal]
        exact last
      · rename_i noFinal
        rw [noFinal]
        exact ⟨point, last, isGiven⟩

/-- Without an earlier one, a descriptor comes from one of the options. -/
theorem exists_mem
    {nodes : List Node} {point : Point}
    (last : LastOf kind gives read none nodes (some point)) :
    ∃ node ∈ nodes, node.is kind ∧
      ∃ state, ((read node).run state).run.1 = some point := by
  unfold LastOf at last
  split at last
  · rename_i node isLast
    obtain ⟨other, same, state, isGiven⟩ := last
    cases same
    obtain ⟨listed, facts⟩ := List.mem_filter.mp (List.mem_of_getLast? isLast)
    exact ⟨node, listed, (Bool.and_eq_true_iff.mp facts).1, state, isGiven⟩
  · cases last

end LastOf

/-- The descriptors that the options of a note or rest leave. -/
abbrev LastTie (handle : Handle) :
    Option TiePoint → List Node → Option TiePoint → Prop :=
  LastOf .tie Node.givesTie fun node => analyseTie node (some handle)

abbrev LastSlur (handle : Handle) :
    Option SlurPoint → List Node → Option SlurPoint → Prop :=
  LastOf .slur Node.givesSlur fun node => analyseSlur node (some handle)

abbrev LastBeam (handle : Handle) :
    Option BeamPoint → List Node → Option BeamPoint → Prop :=
  LastOf .beam Node.givesBeam fun node => analyseBeam node (some handle)

abbrev LastTuplet (handle : Handle) :
    Option TupletPoint → List Node → Option TupletPoint → Prop :=
  LastOf .tuplet Node.givesTuplet fun node => analyseTuplet node (some handle)

namespace Written

/-- The labels after the pitch and the value. -/
def abbreviations (note : Written) : List Node :=
  (note.node.children.takeWhile Node.isLabel).drop
    (if note.flavor = .rest then 1 else 2)

/-- What stands after the labels. -/
def afterLabels (note : Written) : List Node :=
  note.node.children.dropWhile Node.isLabel

/-- The options that only notes have. -/
def noteOptions (note : Written) : List Node :=
  if note.flavor = .rest then []
  else note.afterLabels.takeWhile Node.isNoteOption

/-- The options that notes share with rests. -/
def options (note : Written) : List Node :=
  (if note.flavor = .rest then note.afterLabels
  else note.afterLabels.dropWhile Node.isNoteOption).takeWhile Node.isOption

/-- The modification that the element of a note or rest gives, if it gives one:
the last one that can be read. -/
def modification? (note : Written) : Option TimeModification :=
  lastGiven? .timeModification modificationOf? note.options

/-- The label of a legacy tuplet of a note or rest, if it has one: the last one. -/
def tupletLabel? (note : Written) : Option Node :=
  lastGiven? .label Node.legacyTuplet? note.abbreviations

/-- Whether an option of a note or rest gives a descriptor of a tuplet. -/
def GivesTuplet (note : Written) (point : TupletPoint) : Prop :=
  ∃ child ∈ note.options, child.is .tuplet ∧
    ∃ state, ((analyseTuplet child (some note.handle)).run state).run.1 =
      some point

end Written

namespace Analyser

/-! ## Reading an element -/

/-- What was read of the labels of a note or rest. -/
structure ReadsLabels
    (decorations : Decorations) (children : List Node)
    (result : Decorations × List Node) : Prop where
  rest : result.2 = children.dropWhile Node.isLabel
  tie : result.1.tie = decorations.tie
  slur : result.1.slur = decorations.slur
  beam : result.1.beam = decorations.beam
  tuplet : result.1.tuplet = decorations.tuplet
  timeModification : result.1.timeModification = decorations.timeModification
  legacyTuplet : result.1.legacyTuplet =
    (lastGiven? .label Node.legacyTuplet?
      (children.takeWhile Node.isLabel)).or decorations.legacyTuplet

/-- What was read so far and one more label.  A rest has no tie. -/
def Decorations.readLabel
    (flavor : Flavor) (decorations : Decorations) (label : Node) : Decorations :=
  match label.text.toList.head? with
  | some 'l' =>
      if flavor = .rest then decorations
      else { decorations with legacyTie := some label }
  | some 'g' => { decorations with legacyBeam := some label }
  | some 't' => { decorations with legacyTuplet := some label }
  | _ => decorations

namespace Decorations

variable {flavor : Flavor}

/-- Labels that start with another letter concern no relation. -/
theorem readLabel_of_other
    {decorations : Decorations} {label : Node}
    (noL : label.text.toList.head? ≠ some 'l')
    (noG : label.text.toList.head? ≠ some 'g')
    (noT : label.text.toList.head? ≠ some 't') :
    readLabel flavor decorations label = decorations := by
  unfold readLabel
  split
  · exact absurd ‹_› noL
  · exact absurd ‹_› noG
  · exact absurd ‹_› noT
  · rfl

theorem legacyTuplet_readLabel (decorations : Decorations) (label : Node) :
    (readLabel flavor decorations label).legacyTuplet =
      label.legacyTuplet?.or decorations.legacyTuplet := by
  by_cases isT : label.text.toList.head? = some 't'
  · rw [Node.legacyTuplet?_of_head isT, readLabel, isT]
    rfl
  · rw [Node.legacyTuplet?_of_other isT, Option.none_or]
    unfold readLabel
    split
    · split <;> rfl
    · rfl
    · exact absurd ‹_› isT
    · rfl

/-- Labels concern legacy relations only. -/
theorem foldl_readLabel
    (flavor : Flavor) (decorations : Decorations) (labels : List Node) :
    ∃ legacyTie legacyBeam legacyTuplet,
      labels.foldl (readLabel flavor) decorations =
        { decorations with
          legacyTie := legacyTie
          legacyBeam := legacyBeam
          legacyTuplet := legacyTuplet } := by
  induction labels generalizing decorations with
  | nil => exact ⟨_, _, _, rfl⟩
  | cons label rest induction =>
      obtain ⟨legacyTie, legacyBeam, legacyTuplet, same⟩ :=
        induction (readLabel flavor decorations label)
      refine ⟨legacyTie, legacyBeam, legacyTuplet, ?_⟩
      rw [List.foldl_cons, same]
      unfold readLabel
      split
      · split <;> rfl
      · rfl
      · rfl
      · rfl

/-- Of the labels of one legacy relation the last one is left. -/
theorem foldl_readLabel_of_last
    {part : Decorations → Option Node} {read : Node → Option Node}
    (given : ∀ decorations label, part (readLabel flavor decorations label) =
      (read label).or (part decorations))
    {labels : List Node} (areLabels : ∀ label ∈ labels, label.is .label)
    (decorations : Decorations) :
    part (labels.foldl (readLabel flavor) decorations) =
      (lastGiven? .label read labels).or (part decorations) := by
  induction labels generalizing decorations with
  | nil => rfl
  | cons label rest induction =>
      obtain ⟨isLabel, others⟩ := List.forall_mem_cons.mp areLabels
      rw [List.foldl_cons, induction others, given, lastGiven?_cons,
        if_pos isLabel, Option.or_assoc]

end Decorations

/-- Labels are read one after the other, up to the first other child. -/
theorem yields_abbreviations_foldl
    (flavor : Flavor) (decorations : Decorations) (children : List Node) :
    Yields (abbreviations flavor decorations children) fun result =>
      result = ((children.takeWhile Node.isLabel).foldl
        (Decorations.readLabel flavor) decorations,
          children.dropWhile Node.isLabel) := by
  induction children generalizing decorations with
  | nil => exact .pure rfl
  | cons label rest induction =>
      have later : label.isLabel → ∀ {changed : Decorations},
          decorations.readLabel flavor label = changed →
            Yields (abbreviations flavor changed rest) fun result =>
              result = (((label :: rest).takeWhile Node.isLabel).foldl
                (Decorations.readLabel flavor) decorations,
                  (label :: rest).dropWhile Node.isLabel) := by
        intro isLabel changed same
        rw [List.takeWhile_cons_of_pos isLabel,
          List.dropWhile_cons_of_pos isLabel, List.foldl_cons, same]
        exact induction changed
      rw [abbreviations]
      split
      · rename_i isLabel
        split
        · rename_i isL
          have isTie : decorations.readLabel flavor label =
              if flavor = .rest then decorations
              else { decorations with legacyTie := some label } := by
            simp only [Decorations.readLabel, isL]
          split
          · rename_i isRest
            exact .after fun _ => later isLabel (by rw [isTie, if_pos isRest])
          · rename_i noRest
            exact later isLabel (by rw [isTie, if_neg noRest])
        · rename_i isG
          exact later isLabel (by simp only [Decorations.readLabel, isG])
        · rename_i isT
          exact later isLabel (by simp only [Decorations.readLabel, isT])
        · rename_i isV
          exact .after fun _ => later isLabel
            (Decorations.readLabel_of_other (by simp [isV]) (by simp [isV])
              (by simp [isV]))
        · rename_i isP
          exact .after fun _ => later isLabel
            (Decorations.readLabel_of_other (by simp [isP]) (by simp [isP])
              (by simp [isP]))
        · rename_i noL noG noT _ _
          exact .after fun _ => later isLabel
            (Decorations.readLabel_of_other noL noG noT)
      · rename_i noLabel
        have noLabel : ¬ label.isLabel := noLabel
        rw [List.takeWhile_cons_of_neg noLabel,
          List.dropWhile_cons_of_neg noLabel]
        exact .pure rfl

theorem isLabel_of_mem_takeWhile (children : List Node) :
    ∀ label ∈ children.takeWhile Node.isLabel, label.is .label :=
  List.all_eq_true.mp List.all_takeWhile

theorem yields_abbreviations
    (flavor : Flavor) (decorations : Decorations) (children : List Node) :
    Yields (abbreviations flavor decorations children)
      (ReadsLabels decorations children) := by
  refine (yields_abbreviations_foldl flavor decorations children).mono ?_
  rintro _ rfl
  obtain ⟨_, _, _, same⟩ := Decorations.foldl_readLabel flavor decorations
    (children.takeWhile Node.isLabel)
  refine ⟨rfl, ?_, ?_, ?_, ?_, ?_, Decorations.foldl_readLabel_of_last
    Decorations.legacyTuplet_readLabel (isLabel_of_mem_takeWhile children)
    decorations⟩
  all_goals rw [same]

/-- What was read of the options that only notes have: ties and slurs. -/
structure ReadsNoteOptions
    (note : Handle) (decorations : Decorations) (children : List Node)
    (result : Decorations × List Node) : Prop where
  rest : result.2 = children.dropWhile Node.isNoteOption
  tie : LastTie note decorations.tie (children.takeWhile Node.isNoteOption)
    result.1.tie
  slur : LastSlur note decorations.slur (children.takeWhile Node.isNoteOption)
    result.1.slur
  beam : result.1.beam = decorations.beam
  tuplet : result.1.tuplet = decorations.tuplet
  timeModification : result.1.timeModification = decorations.timeModification
  legacyTuplet : result.1.legacyTuplet = decorations.legacyTuplet

theorem yields_noteOptions
    (note : Handle) (decorations : Decorations) (children : List Node) :
    Yields (noteOptions note decorations children)
      (ReadsNoteOptions note decorations children) := by
  induction children generalizing decorations with
  | nil => exact .pure ⟨rfl, .nil, .nil, rfl, rfl, rfl, rfl⟩
  | cons child rest induction =>
      have later : child.isNoteOption → ∀ {changed : Decorations},
          (∀ {nodes result}, LastTie note changed.tie nodes result →
            LastTie note decorations.tie (child :: nodes) result) →
          (∀ {nodes result}, LastSlur note changed.slur nodes result →
            LastSlur note decorations.slur (child :: nodes) result) →
          changed.beam = decorations.beam →
          changed.tuplet = decorations.tuplet →
          changed.timeModification = decorations.timeModification →
          changed.legacyTuplet = decorations.legacyTuplet →
            Yields (noteOptions note changed rest)
              (ReadsNoteOptions note decorations (child :: rest)) := by
        intro isOption changed tie slur beam tuplet timeModification
          legacyTuplet
        refine (induction changed).mono fun result reads => ?_
        refine ⟨?_, ?_, ?_, reads.beam.trans beam, reads.tuplet.trans tuplet,
          reads.timeModification.trans timeModification,
          reads.legacyTuplet.trans legacyTuplet⟩
        · rw [List.dropWhile_cons_of_pos isOption]
          exact reads.rest
        · rw [List.takeWhile_cons_of_pos isOption]
          exact tie reads.tie
        · rw [List.takeWhile_cons_of_pos isOption]
          exact slur reads.slur
      have noTie : ¬ child.is .tie → ∀ {nodes result},
          LastTie note decorations.tie nodes result →
            LastTie note decorations.tie (child :: nodes) result :=
        fun other _ _ last => last.skip other
      have noSlur : ¬ child.is .slur → ∀ {nodes result},
          LastSlur note decorations.slur nodes result →
            LastSlur note decorations.slur (child :: nodes) result :=
        fun other _ _ last => last.skip other
      rw [noteOptions]
      split
      · rename_i isKind
        have isOption := Node.isNoteOption_of isKind rfl
        refine (yields_analyseTie child note).witnessed.bind ?_
        rintro point ⟨isSome, isGiven⟩
        refine later isOption ?_ (noSlur (by simp [Node.is, isKind])) rfl rfl
          rfl rfl
        exact fun last => last.cons (beq_iff_eq.mpr isKind) isSome isGiven
      · rename_i isKind
        have isOption := Node.isNoteOption_of isKind rfl
        refine (yields_analyseSlur child note).witnessed.bind ?_
        rintro point ⟨isSome, isGiven⟩
        refine later isOption (noTie (by simp [Node.is, isKind])) ?_ rfl rfl
          rfl rfl
        exact fun last => last.cons (beq_iff_eq.mpr isKind) isSome isGiven
      · rename_i isKind
        exact .after fun _ => later (Node.isNoteOption_of isKind rfl)
          (noTie (by simp [Node.is, isKind]))
          (noSlur (by simp [Node.is, isKind])) rfl rfl rfl rfl
      · rename_i isKind
        exact .after fun _ => later (Node.isNoteOption_of isKind rfl)
          (noTie (by simp [Node.is, isKind]))
          (noSlur (by simp [Node.is, isKind])) rfl rfl rfl rfl
      · rename_i noTie noSlur noStem noLyric
        have noOption : ¬ child.isNoteOption := by
          apply Node.not_isNoteOption
          simpa [Node.noteOptionKinds] using
            ⟨noTie, noSlur, noStem, noLyric⟩
        have none : (child :: rest).takeWhile Node.isNoteOption = [] :=
          List.takeWhile_cons_of_neg noOption
        refine .pure ⟨?_, ?_, ?_, rfl, rfl, rfl, rfl⟩
        · rw [List.dropWhile_cons_of_neg noOption]
        · rw [none]
          exact .nil
        · rw [none]
          exact .nil

/-- What was read of the options of a note or rest. -/
structure ReadsOptions
    (handle : Handle) (decorations : Decorations) (children : List Node)
    (result : Decorations × List Node) : Prop where
  tie : result.1.tie = decorations.tie
  slur : result.1.slur = decorations.slur
  beam : LastBeam handle decorations.beam (children.takeWhile Node.isOption)
    result.1.beam
  tuplet : LastTuplet handle decorations.tuplet
    (children.takeWhile Node.isOption) result.1.tuplet
  timeModification : result.1.timeModification =
    (lastGiven? .timeModification modificationOf?
      (children.takeWhile Node.isOption)).or decorations.timeModification
  legacyTuplet : result.1.legacyTuplet = decorations.legacyTuplet

theorem yields_noteRestOptions
    (handle : Handle) (decorations : Decorations) (children : List Node) :
    Yields (noteRestOptions handle decorations children)
      (ReadsOptions handle decorations children) := by
  induction children generalizing decorations with
  | nil => exact .pure ⟨rfl, rfl, .nil, .nil, rfl, rfl⟩
  | cons child rest induction =>
      have later : child.isOption → ∀ {changed : Decorations},
          changed.tie = decorations.tie → changed.slur = decorations.slur →
          (∀ {nodes result}, LastBeam handle changed.beam nodes result →
            LastBeam handle decorations.beam (child :: nodes) result) →
          (∀ {nodes result}, LastTuplet handle changed.tuplet nodes result →
            LastTuplet handle decorations.tuplet (child :: nodes) result) →
          changed.timeModification =
            (if child.is .timeModification then modificationOf? child
              else none).or decorations.timeModification →
          changed.legacyTuplet = decorations.legacyTuplet →
            Yields (noteRestOptions handle changed rest)
              (ReadsOptions handle decorations (child :: rest)) := by
        intro isOption changed tie slur beam tuplet timeModification
          legacyTuplet
        refine (induction changed).mono fun result reads => ?_
        have first : (child :: rest).takeWhile Node.isOption =
            child :: rest.takeWhile Node.isOption :=
          List.takeWhile_cons_of_pos isOption
        refine ⟨reads.tie.trans tie, reads.slur.trans slur, ?_, ?_, ?_,
          reads.legacyTuplet.trans legacyTuplet⟩
        · rw [first]
          exact beam reads.beam
        · rw [first]
          exact tuplet reads.tuplet
        · rw [reads.timeModification, timeModification, first, lastGiven?_cons,
            Option.or_assoc]
      have noBeam : ¬ child.is .beam → ∀ {nodes result},
          LastBeam handle decorations.beam nodes result →
            LastBeam handle decorations.beam (child :: nodes) result :=
        fun other _ _ last => last.skip other
      have noTuplet : ¬ child.is .tuplet → ∀ {nodes result},
          LastTuplet handle decorations.tuplet nodes result →
            LastTuplet handle decorations.tuplet (child :: nodes) result :=
        fun other _ _ last => last.skip other
      have noModification : ¬ child.is .timeModification →
          decorations.timeModification =
            (if child.is .timeModification then modificationOf? child
              else none).or decorations.timeModification := by
        intro other
        rw [if_neg other]
        rfl
      rw [noteRestOptions]
      split
      · rename_i isKind
        have isOption := Node.isOption_of isKind rfl
        refine (yields_analyseTuplet_isSome child handle).witnessed.bind ?_
        rintro point ⟨isSome, isGiven⟩
        refine later isOption rfl rfl (noBeam (by simp [Node.is, isKind])) ?_
          (noModification (by simp [Node.is, isKind])) rfl
        exact fun last => last.cons (beq_iff_eq.mpr isKind) isSome isGiven
      · rename_i isKind
        have isOption := Node.isOption_of isKind rfl
        refine (yields_analyseTimeModification child).bind ?_
        rintro modification rfl
        refine later isOption rfl rfl (noBeam (by simp [Node.is, isKind]))
          (noTuplet (by simp [Node.is, isKind])) ?_ rfl
        have isModification : child.is .timeModification :=
          beq_iff_eq.mpr isKind
        rw [if_pos isModification]
        cases modificationOf? child <;> rfl
      · rename_i isKind
        have isOption := Node.isOption_of isKind rfl
        refine (yields_analyseBeam child handle).witnessed.bind ?_
        rintro point ⟨isSome, isGiven⟩
        refine later isOption rfl rfl ?_ (noTuplet (by simp [Node.is, isKind]))
          (noModification (by simp [Node.is, isKind])) rfl
        exact fun last => last.cons (beq_iff_eq.mpr isKind) isSome isGiven
      · rename_i isKind
        exact .after fun _ => later (Node.isOption_of isKind rfl) rfl rfl
          (noBeam (by simp [Node.is, isKind]))
          (noTuplet (by simp [Node.is, isKind]))
          (noModification (by simp [Node.is, isKind])) rfl
      · rename_i noTuplet noModification noBeam noVoice
        have noOption : ¬ child.isOption := by
          apply Node.not_isOption
          simpa [Node.optionKinds] using
            ⟨noTuplet, noModification, noBeam, noVoice⟩
        have none : (child :: rest).takeWhile Node.isOption = [] :=
          List.takeWhile_cons_of_neg noOption
        refine .pure ⟨rfl, rfl, ?_, ?_, ?_, rfl⟩
        · rw [none]
          exact .nil
        · rw [none]
          exact .nil
        · rw [none]
          rfl

/-- The first label may have been taken. -/
theorem yields_readPitch
    (flavor : Flavor) (node : Node) (children : List Node) :
    Yields (readPitch flavor node children) fun result =>
      result.2 = if flavor = .rest then children
        else (take? .label children).2 := by
  unfold readPitch
  split
  · exact .pure rfl
  · rename_i isNote
    rw [if_neg isNote]
    refine (yields_mandatory node .label children).bind ?_
    rintro result rfl
    rcases take? .label children with ⟨_ | label, rest⟩
    · exact .pure rfl
    · exact .after fun _ => .pure rfl

theorem yields_readNoteValue (node : Node) (children : List Node) :
    Yields (readNoteValue node children) fun result =>
      result.2 = (take? .label children).2 := by
  rw [readNoteValue]
  refine (yields_mandatory node .label children).bind ?_
  rintro result rfl
  rcases take? .label children with ⟨_ | label, rest⟩
  · exact .pure rfl
  · exact .after fun _ => .pure rfl

/-- Taking a label takes the first of the labels, if there is one. -/
theorem labels_take? (children : List Node) :
    (take? .label children).2.takeWhile Node.isLabel =
        (children.takeWhile Node.isLabel).drop 1 ∧
      (take? .label children).2.dropWhile Node.isLabel =
        children.dropWhile Node.isLabel := by
  cases children with
  | nil => exact ⟨rfl, rfl⟩
  | cons first rest =>
      by_cases isLabel : first.isLabel
      · have isKind : first.is .label := isLabel
        rw [take?, if_pos isKind, List.takeWhile_cons_of_pos isLabel,
          List.dropWhile_cons_of_pos isLabel]
        exact ⟨rfl, rfl⟩
      · have isOther : ¬ first.is .label := isLabel
        rw [take?, if_neg isOther, List.takeWhile_cons_of_neg isLabel]
        exact ⟨rfl, rfl⟩

end Analyser

/-- What the decorations of a note or rest say stands in its element. -/
structure Written.Says (note : Written) (decorations : Decorations) :
    Prop where
  tie : LastTie note.handle none note.noteOptions decorations.tie
  slur : LastSlur note.handle none note.noteOptions decorations.slur
  beam : LastBeam note.handle none note.options decorations.beam
  tuplet : LastTuplet note.handle none note.options decorations.tuplet
  timeModification : decorations.timeModification = note.modification?
  legacyTuplet : decorations.legacyTuplet = note.tupletLabel?

theorem Written.mem_of_tupletLabel?
    {note : Written} {label : Node} (isLast : note.tupletLabel? = some label) :
    label ∈ note.abbreviations ∧ label.is .label ∧ label.isLegacyTuplet := by
  obtain ⟨other, isOther, given⟩ :=
    List.mem_filterMap.mp (List.mem_of_getLast? isLast)
  obtain ⟨listed, isLabel⟩ := List.mem_filter.mp isOther
  unfold Node.legacyTuplet? at given
  split at given
  · cases given
    exact ⟨listed, isLabel, ‹_›⟩
  · cases given

theorem Written.Says.givesTuplet
    {note : Written} {decorations : Decorations}
    (decorated : note.Says decorations) {point : TupletPoint}
    (isPoint : decorations.tuplet = some point) :
    note.GivesTuplet point := by
  have last := decorated.tuplet
  rw [isPoint] at last
  exact last.exists_mem

namespace Analyser

/-- The options are those after the labels. -/
theorem yields_readOptions
    (note : Written) {decorations : Decorations}
    (tie : decorations.tie = none) (slur : decorations.slur = none)
    (beam : decorations.beam = none) (tuplet : decorations.tuplet = none)
    (timeModification : decorations.timeModification = none)
    (legacyTuplet : decorations.legacyTuplet = note.tupletLabel?) :
    Yields (readOptions note.flavor note.handle decorations note.afterLabels)
      fun result => note.Says result.1 := by
  unfold readOptions
  split
  · rename_i isRest
    have noneForNotes : note.noteOptions = [] := by
      rw [Written.noteOptions, if_pos isRest]
    have areOptions : note.afterLabels.takeWhile Node.isOption =
        note.options := by
      rw [Written.options, if_pos isRest]
    refine (yields_noteRestOptions note.handle decorations _).mono
      fun result reads => ?_
    obtain ⟨sameTie, sameSlur, beams, tuplets, modified, legacy⟩ := reads
    rw [areOptions, beam] at beams
    rw [areOptions, tuplet] at tuplets
    rw [areOptions, timeModification, Option.or_none] at modified
    refine ⟨?_, ?_, beams, tuplets, modified, legacy.trans legacyTuplet⟩
    · rw [noneForNotes, sameTie, tie]
      exact .nil
    · rw [noneForNotes, sameSlur, slur]
      exact .nil
  · rename_i isNote
    have areForNotes : note.afterLabels.takeWhile Node.isNoteOption =
        note.noteOptions := by
      rw [Written.noteOptions, if_neg isNote]
    refine (yields_noteOptions note.handle decorations _).bind ?_
    rintro ⟨middle, left⟩ ⟨rfl, ties, slurs, sameBeam, sameTuplet,
      sameModification, sameLegacy⟩
    have areOptions :
        (note.afterLabels.dropWhile Node.isNoteOption).takeWhile
          Node.isOption = note.options := by
      rw [Written.options, if_neg isNote]
    refine (yields_noteRestOptions note.handle middle _).mono
      fun result reads => ?_
    obtain ⟨sameTie, sameSlur, beams, tuplets, modified, legacy⟩ := reads
    rw [areForNotes, tie] at ties
    rw [areForNotes, slur] at slurs
    rw [areOptions, sameBeam, beam] at beams
    rw [areOptions, sameTuplet, tuplet] at tuplets
    rw [areOptions, sameModification, timeModification, Option.or_none]
      at modified
    exact ⟨sameTie ▸ ties, sameSlur ▸ slurs, beams, tuplets, modified,
      legacy.trans (sameLegacy.trans legacyTuplet)⟩

/-- What stands after the pitch and the value: first the abbreviations. -/
theorem labels_of_read
    (note : Written) {pitched valued : List Node}
    (isPitched : pitched = if note.flavor = .rest then note.node.children
      else (take? .label note.node.children).2)
    (isValued : valued = (take? .label pitched).2) :
    valued.takeWhile Node.isLabel = note.abbreviations ∧
      valued.dropWhile Node.isLabel = note.afterLabels := by
  rw [isValued, (labels_take? pitched).1, (labels_take? pitched).2, isPitched,
    Written.abbreviations, Written.afterLabels]
  split
  · exact ⟨rfl, rfl⟩
  · rw [(labels_take? note.node.children).1, (labels_take? note.node.children).2,
      List.drop_drop]
    exact ⟨rfl, rfl⟩

/-- The decorations of a note or rest are those that its element gives. -/
theorem yields_addNoteRest
    (flavor : Flavor) (node : Node) (anchor base : Option Handle) :
    Yields (addNoteRest flavor node anchor base) fun result =>
      Written.Says ⟨result.1, flavor, node⟩ result.2.2 := by
  rw [addNoteRest]
  refine (yields_readPitch flavor node node.children).bind ?_
  rintro ⟨pitch, pitched⟩ isPitched
  refine (yields_readNoteValue node pitched).bind ?_
  rintro ⟨value, valued⟩ isValued
  dsimp only at isPitched isValued
  refine .after fun handle => ?_
  have labels := labels_of_read ⟨handle, flavor, node⟩ isPitched isValued
  refine (yields_abbreviations flavor {} valued).bind ?_
  rintro ⟨decorations, rest⟩ labelled
  have afterLabels : rest = Written.afterLabels ⟨handle, flavor, node⟩ :=
    labelled.rest.trans labels.2
  subst afterLabels
  refine .after fun _ => ?_
  have legacyTuplet : decorations.legacyTuplet =
      Written.tupletLabel? ⟨handle, flavor, node⟩ := by
    rw [Written.tupletLabel?, ← labels.1, labelled.legacyTuplet]
    exact Option.or_none
  refine (yields_readOptions ⟨handle, flavor, node⟩ labelled.tie labelled.slur
    labelled.beam labelled.tuplet labelled.timeModification legacyTuplet).bind
    ?_
  rintro ⟨taken, rest⟩ decorated
  exact .after fun _ => .after fun _ => .pure decorated

end Analyser

theorem Written.Reads.decorated
    {note : Written} {value : NoteValue} {decorations : Decorations}
    (reads : note.Reads value decorations) :
    note.Says decorations := by
  obtain ⟨anchor, base, state, isResult⟩ := reads
  have decorated := Analyser.yields_addNoteRest note.flavor note.node anchor base
    state
  rw [isResult] at decorated
  exact decorated

end LdpScore
