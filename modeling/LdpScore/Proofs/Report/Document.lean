import LdpScore.Proofs.Report.StaffObject

/-!
# Reports of documents, scores and instruments

Everything above the music data, and with it the whole of an analysis: whatever the
tree, each report points into it, and if there is none then the tree is sound.
-/

namespace LdpScore

variable {places : Location → Prop}

namespace Analyser

variable {node : Node} {children : List Node}

/-! ## Options of a score -/

theorem optionValueNode?_eq_some {value : Node} {rest : List Node}
    (found : optionValueNode? children = some (value, rest)) :
    children = value :: rest ∧ value.IsRead := by
  cases children with
  | nil => cases found
  | cons child others =>
      rw [optionValueNode?] at found
      split at found
      case isTrue isLeaf =>
        obtain ⟨rfl, rfl⟩ := Prod.mk.inj (Option.some.inj found)
        refine ⟨rfl, ?_⟩
        rcases Bool.or_eq_true_iff.mp isLeaf with isLeaf | isString
        · rcases Bool.or_eq_true_iff.mp isLeaf with isLabel | isNumber
          · exact .of_closed isLabel rfl
          · exact .of_closed isNumber rfl
        · exact .of_closed isString rfl
      case isFalse => cases found

theorem consumes_readOption (lies : node.Lies places) :
    Consumes places node.children (readOption node) := by
  rw [readOption]
  refine consumes_mandatory_any lies rfl lies.children ?_
  intro label rest _ lie
  dsimp only
  split
  · exact discloses_report_bind lies.location _ (locates_pure _)
  case h_2 value others found =>
    obtain ⟨rfl, isRead⟩ := optionValueNode?_eq_some found
    have liesValue := lie.first
    split
    · exact discloses_report_bind liesValue.location _ (locates_pure _)
    · split
      · exact discloses_report_bind liesValue.location _ (locates_pure _)
      · exact .cons isRead
          (Consumes.bind (discloses_reportExtra lies others) fun _ => locates_pure _)

theorem consumes_analyseOption (lies : node.Lies places) (anchor : Option Handle) :
    Consumes places node.children (analyseOption node anchor) := by
  rw [analyseOption]
  refine Consumes.bind (consumes_readOption lies) ?_
  rintro (_ | ⟨name, value⟩)
  · exact locates_pure _
  · refine .readModel fun model => ?_
    split
    · exact (locates_modifyModel _).bind fun _ => locates_pure _
    · exact (locates_addObject lies anchor _).bind fun _ => locates_pure _

/-! ## Texts of a document -/

theorem consumes_analyseTextItem (lies : node.Lies places) (anchor : Option Handle) :
    Consumes places node.children (analyseTextItem node anchor) := by
  rw [analyseTextItem]
  refine consumes_mandatory lies rfl lies.children (fun _ _ => locates_pure _) ?_
  intro text rest _ _
  exact Consumes.bind (discloses_reportExtra lies rest) fun _ =>
    (locates_addObject lies anchor _).bind fun _ => locates_pure _

theorem isRead_of_inline
    {anchor : Handle} {kind : ElementKind} {analyser : Node → Analyser Unit}
    (known : inlineAnalyser? anchor kind = some analyser) (isKind : node.is kind)
    (lies : node.Lies places) :
    Discloses places (analyser node) (fun _ => True) fun _ => node.IsRead := by
  unfold inlineAnalyser? at known
  split at known
  · cases known
    exact ((consumes_analyseTextItem lies _).map _).isRead isKind
  · cases known
    exact Discloses.map (locates_addObject lies _ _) (fun _ _ => trivial)
      fun _ _ _ => .of_closed isKind rfl
  · cases known

theorem consumes_analyseParagraph (lies : node.Lies places) (anchor : Option Handle) :
    Consumes places node.children (analyseParagraph node anchor) := by
  rw [analyseParagraph]
  refine (locates_addObject lies anchor _).bind fun handle => ?_
  refine Consumes.bind (consumes_analyseEach ?_ lies.children) fun _ => locates_pure _
  exact fun _ _ _ known isKind lies => isRead_of_inline known isKind lies

theorem consumes_analyseHeading (lies : node.Lies places) (anchor : Option Handle) :
    Consumes places node.children (analyseHeading node anchor) := by
  rw [analyseHeading]
  refine consumes_mandatory_any lies rfl lies.children ?_
  intro number rest liesNumber lie
  have level : Locates places (headingLevel number) := by
    cases number with
    | none => exact locates_pure _
    | some number => exact locates_integerValue (liesNumber number rfl) 1
  refine level.bind fun level => (locates_addObject lies anchor _).bind fun handle => ?_
  refine Consumes.bind (consumes_analyseEach ?_ lie) fun _ => locates_pure _
  exact fun _ _ _ known isKind lies => isRead_of_inline known isKind lies

theorem readsFrom_optionalAlignment (lie : Lie places children) :
    ReadsFrom places children (optionalAlignment children) Prod.snd := by
  rw [optionalAlignment]
  rcases take?_cases .label children with ⟨label, rest, rfl, isLabel, taken⟩ | notTaken
  · rw [taken]
    exact .cons (.of_closed isLabel rfl)
      ((locates_alignmentValue lie.first).bind fun _ => readsFrom_pure rfl lie.rest)
  · rw [notTaken]
    exact readsFrom_pure rfl lie

theorem consumes_analyseTitle (lies : node.Lies places) (anchor : Option Handle) :
    Consumes places node.children (analyseTitle node anchor) := by
  rw [analyseTitle]
  refine (readsFrom_optionalAlignment lies.children).consume fun _ lie => ?_
  refine consumes_mandatory lies rfl lie (fun _ _ => locates_pure _) ?_
  intro text rest _ lie
  exact Consumes.bind (consumes_textLocation {} lie) fun _ =>
    (locates_addObject lies anchor _).bind fun _ => locates_pure _

/-! ## Instruments -/

theorem consumes_analyseMusicData (lies : node.Lies places) (anchor : Option Handle) :
    Consumes places node.children (analyseMusicData node anchor) := by
  rw [analyseMusicData]
  refine (locates_addObject lies anchor _).bind fun handle => ?_
  refine Consumes.bind (consumes_analyseEach ?_ lies.children) fun _ => locates_pure _
  intro kind analyser child known isKind lies
  obtain ⟨analyse, isAnalyser, rfl⟩ := Option.map_eq_some_iff.mp known
  exact ((consumes_staffObjectAnalyser? isAnalyser lies).map _).isRead isKind

/-- What follows the number of staves is not read. -/
theorem locates_analyseStaves (lies : node.Lies places) :
    Locates places (analyseStaves node) := by
  have invalid : ∀ (value : String) (change : Context → Context), Locates places (do
      report node.location (.invalidStaves value)
      modifyContext change) := fun _ _ =>
    (locates_report lies.location _).bind fun _ => locates_modifyContext _
  rw [analyseStaves]
  split
  · split
    · exact locates_modifyContext _
    · exact invalid _ _
  · exact invalid _ _

theorem readsFrom_optionalText (kind : ElementKind) (anchor : Handle)
    (lie : Lie places children) :
    ReadsFrom places children (optionalText kind anchor children) Prod.snd := by
  rw [optionalText]
  rcases take?_cases kind children with ⟨text, rest, rfl, isKind, taken⟩ | notTaken
  · rw [taken]
    refine .child ((consumes_analyseText lie.first (some anchor)).isRead isKind) fun _ _ => ?_
    exact .readModel fun model => readsFrom_pure rfl lie.rest
  · rw [notTaken]
    exact readsFrom_pure rfl lie

theorem readsFrom_instrumentHead (instrument : Handle) (lie : Lie places children) :
    ReadsFrom places children (instrumentHead instrument children) id := by
  rw [instrumentHead]
  refine (readsFrom_optionalText .instrumentName instrument lie).bind fun name lie => ?_
  refine (readsFrom_optionalText .abbreviation instrument lie).bind
    fun abbreviation lie => ?_
  obtain ⟨liesStaves, lieRest⟩ := lies_take? .staves lie
  refine .of_readTo (readTo_take? .staves rfl _) ?_
  refine (locates_analyseOptional liesStaves fun _ => locates_analyseStaves).bind
    fun _ => .readContext fun context => ?_
  exact (locates_modifyModel _).bind fun _ => readsFrom_pure rfl lieRest

/-- The last child that an element can have, and nothing after it. -/
theorem consumes_lastMandatory {Value : Type} {analyser : Node → Analyser Unit}
    (lies : node.Lies places) (kind : ElementKind) (lie : Lie places children)
    (each : ∀ child : Node, child.Lies places →
      Consumes places child.children (analyser child)) (value : Value) :
    Consumes places children (do
      let (found, rest) ← mandatory node kind children
      analyseOptional analyser found
      reportExtra node rest
      return value) := by
  refine (discloses_mandatory lies kind lie).bind ?_
  rintro ⟨found, rest⟩ ⟨liesFound, lieRest⟩
  have optional : Discloses places (analyseOptional analyser found) (fun _ => True)
      fun _ => ∀ child ∈ found, child.is kind → child.IsRead := by
    cases found with
    | none =>
        refine .pure trivial ?_
        rintro _ ⟨⟩
    | some child =>
        refine (each child (liesFound child rfl)).accepting ?_
        rintro _ areRead _ ⟨⟩ isKind
        exact .of_is isKind (Node.sound_of_children areRead)
  refine optional.bind fun _ _ => ?_
  refine (Consumes.bind (discloses_reportExtra lies rest) fun _ => locates_pure _).accepting ?_
  rintro _ areRead isRead ⟨child, rfl, isKind, isChildren⟩
  rw [isChildren]
  exact .cons (isRead child rfl isKind) areRead

theorem consumes_analyseInstrument (lies : node.Lies places) (anchor : Option Handle) :
    Consumes places node.children (analyseInstrument node anchor) := by
  rw [analyseInstrument]
  refine locates_clearPending.bind fun _ => (locates_modifyContext _).bind fun _ => ?_
  refine (locates_addObject lies anchor _).bind fun handle => ?_
  refine (readsFrom_instrumentHead handle lies.children).consume fun rest lie => ?_
  exact consumes_lastMandatory lies .musicData lie
    (fun _ lies => (consumes_analyseMusicData lies (some handle)).map _) handle

/-! ## Scores -/

/-- What follows the number of a version is not read. -/
theorem locates_analyseVersion (lies : node.Lies places) :
    Locates places (analyseVersion node) := by
  rw [analyseVersion]
  split
  · exact locates_modifyContext _
  · exact (locates_report lies.location _).bind fun _ => locates_modifyContext _

theorem readsFrom_leadingTitles (score : Handle) (lie : Lie places children) :
    ReadsFrom places children (leadingTitles score children) id := by
  induction children with
  | nil => exact readsFrom_pure rfl lie
  | cons child rest induction =>
      rw [leadingTitles]
      split
      case isTrue isTitle =>
        exact .child (((consumes_analyseTitle lie.first (some score)).map _).isRead isTitle)
          fun _ _ => induction lie.rest
      case isFalse => exact readsFrom_pure rfl lie

theorem readsFrom_leadingOptions (score : Handle) (lie : Lie places children) :
    ReadsFrom places children (leadingOptions score children) id := by
  induction children with
  | nil => exact readsFrom_pure rfl lie
  | cons child rest induction =>
      rw [leadingOptions]
      split
      case isTrue isOption =>
        exact .child (((consumes_analyseOption lie.first (some score)).map _).isRead isOption)
          fun _ _ => induction lie.rest
      case isFalse => exact readsFrom_pure rfl lie

theorem readsFrom_scoreHead (score : Handle) (lies : node.Lies places) :
    ReadsFrom places node.children (scoreHead node score) id := by
  rw [scoreHead]
  refine readsFrom_mandatory_any lies rfl lies.children ?_
  intro version rest liesVersion lie
  refine (locates_analyseOptional liesVersion fun _ => locates_analyseVersion).bind
    fun _ => .readContext fun context => ?_
  have lieRest := (lies_take? .language lie).2
  refine ReadsFrom.of_readTo (readTo_take? .language rfl rest) ?_
  refine (locates_modifyModel _).bind fun _ => ?_
  refine (readsFrom_leadingTitles score lieRest).bind fun rest lie => ?_
  obtain ⟨liesCursor, lieRest⟩ := lies_take? .cursor lie
  refine .of_readTo (readTo_take? .cursor rfl rest) ?_
  refine (locates_analyseOptional liesCursor fun _ lies => locates_report lies.location _).bind
    fun _ => ?_
  exact readsFrom_leadingOptions score lieRest

theorem consumes_analyseScore (lies : node.Lies places) (anchor : Option Handle) :
    Consumes places node.children (analyseScore node anchor) := by
  have require : ∀ rest, Locates places (requireInstrument node rest) := by
    intro rest
    cases rest with
    | nil => exact (discloses_reportMissing lies .instrument).accepting fun _ _ => trivial
    | cons => exact locates_pure _
  rw [analyseScore]
  refine (locates_modifyContext _).bind fun _ => ?_
  refine (locates_addObject lies anchor _).bind fun handle => ?_
  refine (readsFrom_scoreHead handle lies).consume fun rest lie => ?_
  refine (require rest).bind fun _ => ?_
  refine Consumes.bind (consumes_analyseEach ?_ lie) fun _ => locates_pure _
  intro kind analyser child known isKind lies
  unfold instrumentAnalyser? at known
  split at known
  · cases known
    exact ((consumes_analyseInstrument lies _).map _).isRead isKind
  · cases known

/-! ## Documents -/

theorem consumes_analyseContent (lies : node.Lies places) (anchor : Option Handle) :
    Consumes places node.children (analyseContent node anchor) := by
  rw [analyseContent]
  refine (locates_addObject lies anchor _).bind fun handle => ?_
  refine Consumes.bind (consumes_analyseEach ?_ lies.children) fun _ => locates_pure _
  intro kind analyser child known isKind lies
  unfold blockAnalyser? at known
  split at known
  · cases known
    exact ((consumes_analyseScore lies _).map _).isRead isKind
  · cases known
    exact ((consumes_analyseParagraph lies _).map _).isRead isKind
  · cases known
    exact ((consumes_analyseHeading lies _).map _).isRead isKind
  · cases known
    exact ((consumes_analyseTextItem lies _).map _).isRead isKind
  · cases known

theorem consumes_analyseDocument (lies : node.Lies places) (anchor : Option Handle) :
    Consumes places node.children (analyseDocument node anchor) := by
  rw [analyseDocument]
  refine consumes_mandatory lies rfl lies.children (fun _ _ => locates_pure _) ?_
  intro version rest _ lie
  have lieRest := (lies_take? .language lie).2
  refine .of_readTo (readTo_take? .language rfl rest) ?_
  refine (locates_addObject lies anchor _).bind fun handle => ?_
  exact consumes_lastMandatory lies .content lieRest
    (fun _ lies => (consumes_analyseContent lies (some handle)).map _) (some handle)

/-! ## Any element -/

/-- Whatever element is analysed, if nothing is reported then it is sound. -/
theorem sound_analyserOf?
    {kind : ElementKind} {anchor : Option Handle} {analyser : Node → Analyser Analysed}
    (known : analyserOf? kind anchor = some analyser) (isKind : node.is kind)
    (lies : node.Lies places) :
    Discloses places (analyser node) (fun _ => True) fun _ => node.Sound := by
  have ofClosed : ∀ {action : Analyser Analysed}, kind.isClosed = true →
      Locates places action → Discloses places action (fun _ => True) fun _ => node.Sound :=
    fun closed locates => locates.accepting fun _ _ => Node.sound_of_isClosed isKind closed
  have ofChildren : ∀ {Value : Type} {action : Analyser Value} {change : Value → Analysed},
      Consumes places node.children action →
      Discloses places (change <$> action) (fun _ => True) fun _ => node.Sound :=
    fun consumes => (Consumes.map _ consumes).accepting fun _ => Node.sound_of_children
  have ofPoint : ∀ {Value : Type} {action : Analyser Value} {change : Value → Analysed}
      {property : Value → Prop}, Discloses places action property (fun _ => node.Sound) →
      Discloses places (change <$> action) (fun _ => True) fun _ => node.Sound :=
    fun discloses => discloses.map (fun _ _ => trivial) fun _ _ sound => sound
  unfold analyserOf? at known
  split at known
  case h_27 =>
    split at known
    · cases known
      exact ofChildren (consumes_analyseArticulation kind lies anchor)
    · obtain ⟨analyse, isAnalyser, rfl⟩ := Option.map_eq_some_iff.mp known
      exact ofChildren (consumes_staffObjectAnalyser? isAnalyser lies)
  all_goals cases known
  case h_1 => exact ofChildren (consumes_analyseDocument lies anchor)
  case h_2 =>
    exact ofClosed rfl ((locates_analyseVersion lies).bind fun _ => locates_pure _)
  case h_3 => exact ofClosed rfl (locates_pure _)
  case h_4 => exact ofChildren (consumes_analyseContent lies anchor)
  case h_5 => exact ofChildren (consumes_analyseParagraph lies anchor)
  case h_6 => exact ofChildren (consumes_analyseHeading lies anchor)
  case h_7 => exact ofChildren (consumes_analyseTextItem lies anchor)
  case h_8 => exact ofChildren (consumes_analyseScore lies anchor)
  case h_9 => exact ofChildren (consumes_analyseTitle lies anchor)
  case h_10 => exact ofChildren (consumes_analyseOption lies anchor)
  case h_11 => exact ofClosed rfl (locates_pure _)
  case h_12 => exact ofChildren (consumes_analyseInstrument lies anchor)
  case h_13 => exact ofChildren (consumes_analyseText lies anchor)
  case h_14 => exact ofChildren (consumes_analyseText lies anchor)
  case h_15 =>
    exact ofClosed rfl ((locates_analyseStaves lies).bind fun _ => locates_pure _)
  case h_16 => exact ofChildren (consumes_analyseMusicData lies anchor)
  case h_17 => exact ofPoint (discloses_analyseTie anchor lies isKind)
  case h_18 => exact ofPoint (discloses_analyseSlur anchor lies isKind)
  case h_19 =>
    exact ofPoint ((discloses_analyseBeam anchor lies).accepting
      fun _ _ => Node.sound_of_isClosed isKind rfl)
  case h_20 => exact ofPoint (discloses_analyseTuplet anchor lies isKind)
  case h_21 => exact ofChildren (consumes_analyseTimeModification lies)
  case h_22 => exact ofChildren (consumes_analyseColor lies)
  case h_23 => exact ofChildren (consumes_analyseBezier lies)
  case h_24 => exact ofChildren (consumes_analyseFermata lies anchor)
  case h_25 => exact ofChildren (consumes_analyseDynamics lies anchor)
  case h_26 => exact ofChildren (consumes_analyseLyric lies anchor)

/-- An element is analysed, or it has no analyser and that is reported. -/
theorem discloses_analyseRoot (lies : node.Lies places) :
    Discloses places (analyseRoot node) (fun _ => True) fun _ => node.Sound := by
  have element : Discloses places (analyseNode node none) (fun _ => True)
      fun _ => node.Sound := by
    rw [analyseNode]
    split
    case h_1 analyser isAnalyser =>
      obtain ⟨kind, isKind, known⟩ := Option.bind_eq_some_iff.mp isAnalyser
      exact sound_analyserOf? known (beq_iff_eq.mpr isKind) lies
    case h_2 => exact discloses_report_bind lies.location _ (locates_pure _)
  rw [analyseRoot]
  refine element.bind fun analysed _ => ?_
  suffices ending : Locates places _ from ending.accepting fun _ _ sound => sound
  cases analysed
  case object => exact (locates_modifyModel _).bind fun _ => locates_clearPending
  all_goals exact locates_clearPending

end Analyser

/-! ## A whole analysis -/

/-- Every report about a tree points into it, and a tree about which nothing is
reported is sound. -/
theorem reports_analyse {root : Node} (lies : root.Lies places) :
    (∀ diagnostic ∈ (analyse root).2, places diagnostic.location) ∧
      ((analyse root).2 = #[] → root.Sound) := by
  obtain ⟨_, ⟨reports, isAfter, atPlaces⟩, _, sound⟩ :=
    Analyser.discloses_analyseRoot lies {} .empty
  refine ⟨fun diagnostic reported => ?_, fun silent => sound silent⟩
  have all : (analyse root).2.toList = reports := isAfter
  rw [← Array.mem_toList_iff, all] at reported
  exact atPlaces diagnostic reported

end LdpScore
