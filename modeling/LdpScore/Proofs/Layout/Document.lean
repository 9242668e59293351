import LdpScore.Analysis
import LdpScore.Proofs.Layout.StaffObject

/-!
# Documents are blind to locations

Documents, scores and instruments, and with them the analysis of a whole tree: a
tree without locations gives the same model, and the same reports up to locations
and the lines that they mention.
-/

namespace LdpScore

/-! ## Giving up what waits -/

namespace Pairing

variable {Point : Type} [Descriptor Point] {strip : Point → Point}

theorem firstOfEach_strip
    (strips : Strips strip) (reported : List Int) (pending : List Point) :
    firstOfEach reported (pending.map strip) =
      (firstOfEach reported pending).map strip := by
  induction pending generalizing reported with
  | nil => rfl
  | cons point rest induction =>
      rw [List.map_cons, firstOfEach, firstOfEach, strips.number]
      split
      · exact induction reported
      · rw [induction, List.map_cons]

/-- The same numbers are reported wherever their descriptors are written. -/
theorem clear_strip
    (strips : Strips strip) (kind : PairedRelation) (pending : List Point)
    (draft : Draft) :
    clear kind (pending.map strip) draft.bare =
      (clear kind pending draft).bare := by
  rw [clear, clear, flush, flush, firstOfEach_strip strips]
  refine Draft.foldl_bare draft (fun draft point => ?_) _
  rw [Draft.bare_report, strips.location, strips.number]
  rfl

end Pairing

theorem LegacyTie.clear_bare (pending : Option LegacyTie) (draft : Draft) :
    clear (pending.map LegacyTie.bare) draft.bare =
      (clear pending draft).bare := by
  cases pending with
  | none => rfl
  | some tie => exact (draft.bare_report tie.location .unmatchedLegacyTie).symm

theorem LegacyBeam.clear_bare (pending : List BeamPoint) (draft : Draft) :
    clear (pending.map BeamPoint.bare) draft.bare =
      (clear pending draft).bare := by
  cases pending with
  | nil => rfl
  | cons start rest =>
      exact (draft.bare_report start.location .unmatchedLegacyBeam).symm

theorem Pending.reportAll_bare (pending : Pending) (draft : Draft) :
    pending.bare.reportAll draft.bare = (pending.reportAll draft).bare := by
  simp only [reportAll, Pending.bare, Pairing.clear_strip Pairing.strips_tie,
    LegacyTie.clear_bare, Pairing.clear_strip Pairing.strips_slur,
    Pairing.clear_strip Pairing.strips_beam, LegacyBeam.clear_bare,
    Pairing.clear_strip Pairing.strips_tuplet]

namespace Analyser

theorem blind_clearPending : Blind clearPending clearPending :=
  blind_settle fun pending draft =>
    congrArg (Prod.mk ({} : Pending)) (pending.reportAll_bare draft)

/-! ## Texts of a document -/

theorem blind_analyseOptional
    {analyser analyser' : Node → Analyser Unit}
    (each : ∀ child : Node, Blind (analyser child) (analyser' child.bare))
    (child : Option Node) :
    Blind (analyseOptional analyser child)
      (analyseOptional analyser' (child.map Node.bare)) := by
  cases child with
  | none => exact .pure rfl
  | some child => exact each child

theorem blind_analyseTextItem (node : Node) (anchor : Option Handle) :
    Blind (analyseTextItem node anchor) (analyseTextItem node.bare anchor) := by
  rw [analyseTextItem, analyseTextItem, Node.children_bare]
  refine (blind_mandatory node .string node.children).bind fun result => ?_
  rcases result with ⟨_ | text, rest⟩
  · exact .pure rfl
  · dsimp only [bareTaken, Option.map_some]
    rw [Node.text_bare]
    refine (blind_reportExtra node rest).bind fun _ => ?_
    exact (blind_addObject node anchor _).bind fun _ => .pure rfl

theorem blind_inline
    {anchor : Handle} {kind : ElementKind} {analyser : Node → Analyser Unit}
    (known : inlineAnalyser? anchor kind = some analyser) (node : Node) :
    Blind (analyser node) (analyser node.bare) := by
  unfold inlineAnalyser? at known
  split at known <;> cases known
  · exact (blind_analyseTextItem node (some anchor)).discard
  · dsimp only
    rw [Node.text_bare]
    exact (blind_addObject node (some anchor) _).discard

theorem blind_analyseParagraph (node : Node) (anchor : Option Handle) :
    Blind (analyseParagraph node anchor)
      (analyseParagraph node.bare anchor) := by
  rw [analyseParagraph, analyseParagraph, Node.children_bare]
  refine (blind_addObject node anchor _).bind fun handle => ?_
  exact (blind_analyseEach (fun _ _ child known => blind_inline known child)
    node.children).bind fun _ => .pure rfl

theorem blind_headingLevel (number : Option Node) :
    Blind (headingLevel number) (headingLevel (number.map Node.bare)) := by
  cases number with
  | none => exact .pure rfl
  | some number => exact blind_integerValue number 1

theorem blind_analyseHeading (node : Node) (anchor : Option Handle) :
    Blind (analyseHeading node anchor) (analyseHeading node.bare anchor) := by
  rw [analyseHeading, analyseHeading, Node.children_bare]
  refine (blind_mandatory node .number node.children).bind fun result => ?_
  refine (blind_headingLevel result.1).bind fun level => ?_
  refine (blind_addObject node anchor _).bind fun handle => ?_
  exact (blind_analyseEach (fun _ _ child known => blind_inline known child)
    result.2).bind fun _ => .pure rfl

theorem blind_alignmentValue (node : Node) :
    Blind (alignmentValue node) (alignmentValue node.bare) := by
  rw [alignmentValue, alignmentValue, Node.text_bare]
  split
  · exact .pure rfl
  · exact (blind_report_bare node rfl).bind fun _ => .pure rfl

theorem blind_optionalAlignment (children : List Node) :
    BlindRest (optionalAlignment children)
      (optionalAlignment (children.map Node.bare)) := by
  rw [optionalAlignment, optionalAlignment, take?_bare]
  rcases take? .label children with ⟨_ | label, rest⟩
  · exact .pure rfl
  · exact (blind_alignmentValue label).bind fun _ => .pure rfl

theorem blind_analyseTitle (node : Node) (anchor : Option Handle) :
    Blind (analyseTitle node anchor) (analyseTitle node.bare anchor) := by
  rw [analyseTitle, analyseTitle, Node.children_bare]
  refine (blind_optionalAlignment node.children).bind fun aligned => ?_
  refine (blind_mandatory node .string aligned.2).bind fun result => ?_
  rcases result with ⟨_ | text, rest⟩
  · exact .pure rfl
  · dsimp only [bareTaken, Option.map_some]
    rw [Node.text_bare]
    refine (blind_textLocation {} rest).bind fun appearance => ?_
    exact (blind_addObject node anchor _).bind fun _ => .pure rfl

/-! ## Instruments -/

theorem blind_analyseMusicData (node : Node) (anchor : Option Handle) :
    Blind (analyseMusicData node anchor)
      (analyseMusicData node.bare anchor) := by
  rw [analyseMusicData, analyseMusicData, Node.children_bare]
  refine (blind_addObject node anchor _).bind fun handle => ?_
  refine (blind_analyseEach (fun kind analyser child known => ?_)
    node.children).bind fun _ => .pure rfl
  obtain ⟨staffObject, isStaffObject, rfl⟩ := Option.map_eq_some_iff.mp known
  exact (blind_staffObject isStaffObject child).discard

theorem blind_analyseStaves (node : Node) :
    Blind (analyseStaves node) (analyseStaves node.bare) := by
  unfold analyseStaves
  rw [firstText_bare]
  dsimp only
  split
  · split
    · exact blind_modifyContext _
    · exact (blind_report_bare node rfl).bind fun _ => blind_modifyContext _
  · exact (blind_report_bare node rfl).bind fun _ => blind_modifyContext _

theorem blind_optionalText
    (kind : ElementKind) (anchor : Handle) (children : List Node) :
    BlindRest (optionalText kind anchor children)
      (optionalText kind anchor (children.map Node.bare)) := by
  rw [optionalText, optionalText, take?_bare]
  rcases take? kind children with ⟨_ | node, rest⟩
  · exact .pure rfl
  · refine (blind_analyseText node (some anchor)).bind fun handle => ?_
    exact blind_model.bind fun _ => .pure rfl

theorem blind_instrumentHead (instrument : Handle) (children : List Node) :
    BlindUpTo (List.map Node.bare) (instrumentHead instrument children)
      (instrumentHead instrument (children.map Node.bare)) := by
  refine (blind_optionalText .instrumentName instrument children).bind
    fun named => ?_
  refine (blind_optionalText .abbreviation instrument named.2).bind
    fun abbreviated => ?_
  dsimp only [Prod.map]
  rw [take?_bare]
  rcases take? .staves abbreviated.2 with ⟨staves, rest⟩
  refine (blind_analyseOptional blind_analyseStaves staves).bind fun _ => ?_
  refine blind_context.bind fun context => ?_
  exact (blind_modifyModel _).bind fun _ => .pure rfl

theorem blind_analyseInstrument (node : Node) (anchor : Option Handle) :
    Blind (analyseInstrument node anchor)
      (analyseInstrument node.bare anchor) := by
  rw [analyseInstrument, analyseInstrument, Node.children_bare]
  refine blind_clearPending.bind fun _ => ?_
  refine (blind_modifyContext _).bind fun _ => ?_
  refine (blind_addObject node anchor _).bind fun handle => ?_
  refine (blind_instrumentHead handle node.children).bind fun rest => ?_
  refine (blind_mandatory node .musicData rest).bind fun result => ?_
  refine (blind_analyseOptional (fun music =>
    (blind_analyseMusicData music (some handle)).discard) result.1).bind
    fun _ => ?_
  exact (blind_reportExtra node result.2).bind fun _ => .pure rfl

/-! ## Scores -/

theorem blind_analyseVersion (node : Node) :
    Blind (analyseVersion node) (analyseVersion node.bare) := by
  unfold analyseVersion
  rw [firstText_bare]
  dsimp only
  split
  · exact blind_modifyContext _
  · exact (blind_report_bare node rfl).bind fun _ => blind_modifyContext _

theorem blind_leadingTitles (score : Handle) (children : List Node) :
    BlindUpTo (List.map Node.bare) (leadingTitles score children)
      (leadingTitles score (children.map Node.bare)) := by
  induction children with
  | nil => exact .pure rfl
  | cons child rest induction =>
      rw [List.map_cons, leadingTitles, leadingTitles, Node.is_bare]
      split
      · exact (blind_analyseTitle child (some score)).discard.bind
          fun _ => induction
      · exact .pure rfl

theorem blind_leadingOptions (score : Handle) (children : List Node) :
    BlindUpTo (List.map Node.bare) (leadingOptions score children)
      (leadingOptions score (children.map Node.bare)) := by
  induction children with
  | nil => exact .pure rfl
  | cons child rest induction =>
      rw [List.map_cons, leadingOptions, leadingOptions, Node.is_bare]
      split
      · exact (blind_analyseOption child (some score)).discard.bind
          fun _ => induction
      · exact .pure rfl

theorem map_firstText_bare (node : Option Node) :
    (node.map Node.bare).map firstText = node.map firstText := by
  cases node with
  | none => rfl
  | some node => exact congrArg some (firstText_bare node)

theorem blind_scoreHead (node : Node) (score : Handle) :
    BlindUpTo (List.map Node.bare) (scoreHead node score)
      (scoreHead node.bare score) := by
  rw [scoreHead, scoreHead, Node.children_bare]
  refine (blind_mandatory node .version node.children).bind fun versioned => ?_
  refine (blind_analyseOptional blind_analyseVersion versioned.1).bind
    fun _ => ?_
  refine blind_context.bind fun context => ?_
  dsimp only [bareTaken]
  rw [take?_bare]
  rcases take? .language versioned.2 with ⟨language, rest⟩
  dsimp only [bareTaken]
  rw [map_firstText_bare]
  refine (blind_modifyModel _).bind fun _ => ?_
  refine (blind_leadingTitles score rest).bind fun rest => ?_
  rw [take?_bare]
  rcases take? .cursor rest with ⟨cursor, rest⟩
  have obsolete : ∀ cursor : Node, Blind
      (report cursor.location .obsoleteCursor)
      (report cursor.bare.location .obsoleteCursor) :=
    fun cursor => blind_report_bare cursor rfl
  exact (blind_analyseOptional obsolete cursor).bind
    fun _ => blind_leadingOptions score rest

theorem blind_requireInstrument (node : Node) (children : List Node) :
    Blind (requireInstrument node children)
      (requireInstrument node.bare (children.map Node.bare)) := by
  cases children with
  | nil => exact blind_reportMissing node .instrument
  | cons => exact .pure rfl

theorem blind_instrument
    {anchor : Handle} {kind : ElementKind} {analyser : Node → Analyser Unit}
    (known : instrumentAnalyser? anchor kind = some analyser) (node : Node) :
    Blind (analyser node) (analyser node.bare) := by
  unfold instrumentAnalyser? at known
  split at known <;> cases known
  exact (blind_analyseInstrument node (some anchor)).discard

theorem blind_analyseScore (node : Node) (anchor : Option Handle) :
    Blind (analyseScore node anchor) (analyseScore node.bare anchor) := by
  refine (blind_modifyContext _).bind fun _ => ?_
  refine (blind_addObject node anchor _).bind fun handle => ?_
  refine (blind_scoreHead node handle).bind fun rest => ?_
  refine (blind_requireInstrument node rest).bind fun _ => ?_
  exact (blind_analyseEach (fun _ _ child known => blind_instrument known child)
    rest).bind fun _ => .pure rfl

/-! ## Documents -/

theorem blind_block
    {anchor : Handle} {kind : ElementKind} {analyser : Node → Analyser Unit}
    (known : blockAnalyser? anchor kind = some analyser) (node : Node) :
    Blind (analyser node) (analyser node.bare) := by
  unfold blockAnalyser? at known
  split at known <;> cases known
  · exact (blind_analyseScore node (some anchor)).discard
  · exact (blind_analyseParagraph node (some anchor)).discard
  · exact (blind_analyseHeading node (some anchor)).discard
  · exact (blind_analyseTextItem node (some anchor)).discard

theorem blind_analyseContent (node : Node) (anchor : Option Handle) :
    Blind (analyseContent node anchor) (analyseContent node.bare anchor) := by
  rw [analyseContent, analyseContent, Node.children_bare]
  refine (blind_addObject node anchor _).bind fun handle => ?_
  exact (blind_analyseEach (fun _ _ child known => blind_block known child)
    node.children).bind fun _ => .pure rfl

theorem blind_analyseDocument (node : Node) (anchor : Option Handle) :
    Blind (analyseDocument node anchor) (analyseDocument node.bare anchor) := by
  rw [analyseDocument, analyseDocument, Node.children_bare]
  refine (blind_mandatory node .version node.children).bind fun result => ?_
  rcases result with ⟨_ | version, rest⟩
  · exact .pure rfl
  · dsimp only [bareTaken, Option.map_some]
    rw [take?_bare, firstText_bare]
    rcases take? .language rest with ⟨language, rest⟩
    dsimp only [bareTaken]
    rw [map_firstText_bare]
    refine (blind_addObject node anchor _).bind fun handle => ?_
    refine (blind_mandatory node .content rest).bind fun content => ?_
    refine (blind_analyseOptional (fun content =>
      (blind_analyseContent content (some handle)).discard) content.1).bind
      fun _ => ?_
    exact (blind_reportExtra node content.2).bind fun _ => .pure rfl

end Analyser

/-! ## Whole trees -/

/-- What the analysis of an element gives, without locations. -/
def Analysed.bare : Analysed → Analysed
  | tie point => tie point.bare
  | slur point => slur point.bare
  | beam point => beam point.bare
  | tuplet point => tuplet point.bare
  | analysed => analysed

namespace Analyser

/-- What a step gives does not depend on where its element is written, if what is
wrapped does not. -/
theorem BlindUpTo.ofOption
    {Value : Type} {strip : Value → Value}
    {action without : Analyser (Option Value)} {wrap : Value → Analysed}
    (first : BlindUpTo (Option.map strip) action without)
    (fits : ∀ value, wrap (strip value) = (wrap value).bare) :
    BlindUpTo Analysed.bare (.ofOption wrap <$> action)
      (.ofOption wrap <$> without) := by
  refine first.map fun result => ?_
  cases result with
  | none => rfl
  | some value => exact fits value

/-- An object has no location. -/
theorem BlindUpTo.object
    {action without : Analyser Handle} (first : Blind action without) :
    BlindUpTo Analysed.bare (.object <$> action) (.object <$> without) :=
  first.map fun _ => rfl

theorem BlindUpTo.optional
    {Value : Type} {action without : Analyser (Option Value)}
    {wrap : Value → Analysed} (first : Blind action without)
    (fits : ∀ value, wrap value = (wrap value).bare) :
    BlindUpTo Analysed.bare (.ofOption wrap <$> action)
      (.ofOption wrap <$> without) := by
  have mapped : BlindUpTo (Option.map id) action without := by
    rw [Option.map_id]
    exact first
  exact mapped.ofOption fits

/-- The analyser of any kind of element. -/
theorem blind_analyserOf
    {kind : ElementKind} {anchor : Option Handle}
    {analyser : Node → Analyser Analysed}
    (known : analyserOf? kind anchor = some analyser) (node : Node) :
    BlindUpTo Analysed.bare (analyser node) (analyser node.bare) := by
  unfold analyserOf? at known
  split at known
  · cases known
    exact (blind_analyseDocument node anchor).optional fun _ => rfl
  · cases known
    exact (blind_analyseVersion node).bind fun _ => .pure rfl
  · cases known
    exact .pure rfl
  · cases known
    exact (blind_analyseContent node anchor).object
  · cases known
    exact (blind_analyseParagraph node anchor).object
  · cases known
    exact (blind_analyseHeading node anchor).object
  · cases known
    exact (blind_analyseTextItem node anchor).optional fun _ => rfl
  · cases known
    exact (blind_analyseScore node anchor).object
  · cases known
    exact (blind_analyseTitle node anchor).optional fun _ => rfl
  · cases known
    exact (blind_analyseOption node anchor).optional fun _ => rfl
  · cases known
    exact .pure rfl
  · cases known
    exact (blind_analyseInstrument node anchor).object
  · cases known
    exact (blind_analyseText node anchor).optional fun _ => rfl
  · cases known
    exact (blind_analyseText node anchor).optional fun _ => rfl
  · cases known
    exact (blind_analyseStaves node).bind fun _ => .pure rfl
  · cases known
    exact (blind_analyseMusicData node anchor).object
  · cases known
    exact (blind_analyseTie node anchor).ofOption fun _ => rfl
  · cases known
    exact (blind_analyseSlur node anchor).ofOption fun _ => rfl
  · cases known
    exact (blind_analyseBeam node anchor).ofOption fun _ => rfl
  · cases known
    exact (blind_analyseTuplet node anchor).ofOption fun _ => rfl
  · cases known
    exact (blind_analyseTimeModification node).optional fun _ => rfl
  · cases known
    exact (blind_analyseColor node).optional fun _ => rfl
  · cases known
    exact (blind_analyseBezier node).map fun _ => rfl
  · cases known
    exact (blind_analyseFermata node anchor).object
  · cases known
    exact (blind_analyseDynamics node anchor).optional fun _ => rfl
  · cases known
    exact (blind_analyseLyric node anchor).optional fun _ => rfl
  · split at known
    · cases known
      exact (blind_analyseArticulation kind node anchor).object
    · obtain ⟨staffObject, isStaffObject, rfl⟩ :=
        Option.map_eq_some_iff.mp known
      exact (blind_staffObject isStaffObject node).optional fun _ => rfl

theorem blind_analyseNode (node : Node) (anchor : Option Handle) :
    BlindUpTo Analysed.bare (analyseNode node anchor)
      (analyseNode node.bare anchor) := by
  rw [analyseNode, analyseNode, Node.kind?_bare]
  split
  · rename_i analyser isAnalyser
    obtain ⟨kind, _, known⟩ := Option.bind_eq_some_iff.mp isAnalyser
    exact blind_analyserOf known node
  · rw [Node.name_bare]
    exact (blind_report_bare node rfl).bind fun _ => .pure rfl

theorem blind_analyseRoot (root : Node) :
    Blind (analyseRoot root) (analyseRoot root.bare) := by
  refine (blind_analyseNode root none).bind fun analysed => ?_
  have noRoot : Blind (pure () >>= fun _ => clearPending)
      (pure () >>= fun _ => clearPending) := blind_clearPending
  cases analysed with
  | object handle =>
      exact (blind_modifyModel _).bind fun _ => blind_clearPending
  | tie | slur | beam | tuplet | timeModification | color | bezier | nothing =>
      exact noRoot

end Analyser

/-- A tree gives the same model wherever its elements are written, and the same
reports up to locations. -/
theorem analyse_bare (root : Node) :
    analyse root.bare =
      ((analyse root).1, (analyse root).2.map Diagnostic.bare) := by
  have nothingYet : ({} : Analysis).bare = {} := by
    simp [Analysis.bare, Draft.bare, Pending.bare]
  have same := Analyser.blind_analyseRoot root {}
  rw [nothingYet] at same
  exact congrArg (fun result : Unit × Analysis =>
    (result.2.draft.model, result.2.draft.diagnostics)) same

end LdpScore
