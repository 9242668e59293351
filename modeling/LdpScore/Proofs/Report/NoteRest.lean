import LdpScore.Proofs.Analysis.Reporting
import LdpScore.Proofs.Report.Reading

/-!
# Reports of notes and rests

The options of a note or rest become descriptors that wait, and each is written
where its element or label is.  So whatever is reported about it later, when it is
rejected or given up, is reported there.
-/

namespace LdpScore.Analyser

variable {Value : Type} {places : Location → Prop}
variable {node : Node} {children : List Node}

/-! ## Reading the children -/

theorem locates_pitchValue (lies : node.Lies places) : Locates places (pitchValue node) := by
  rw [pitchValue]
  split
  · exact locates_pure _
  · split
    · exact locates_pure _
    · exact locates_replaced lies _ _

theorem readsFrom_readPitch (flavor : Flavor) (lies : node.Lies places)
    (lie : Lie places children) :
    ReadsFrom places children (readPitch flavor node children) Prod.snd := by
  unfold readPitch
  split
  · exact readsFrom_pure rfl lie
  · exact readsFrom_mandatory lies rfl lie (fun _ lie => readsFrom_pure rfl lie)
      fun _ _ liesLabel lie => (locates_pitchValue liesLabel).bind fun _ =>
        readsFrom_pure rfl lie

theorem readsFrom_readNoteValue (lies : node.Lies places) (lie : Lie places children) :
    ReadsFrom places children (readNoteValue node children) Prod.snd := by
  rw [readNoteValue]
  exact readsFrom_mandatory lies rfl lie (fun _ lie => readsFrom_pure rfl lie)
    fun _ _ liesLabel lie => (locates_noteValue liesLabel).bind fun _ =>
      readsFrom_pure rfl lie

/-- Everything that the options of a note or rest ask for is written at certain
places. -/
structure Decorations.Lies (places : Location → Prop) (decorations : Decorations) :
    Prop where
  tie : ∀ point ∈ decorations.tie, places point.location
  slur : ∀ point ∈ decorations.slur, places point.location
  beam : ∀ point ∈ decorations.beam, places point.location
  tuplet : ∀ point ∈ decorations.tuplet, places point.location
  legacyTie : ∀ label ∈ decorations.legacyTie, places label.location
  legacyBeam : ∀ label ∈ decorations.legacyBeam, places label.location
  legacyTuplet : ∀ label ∈ decorations.legacyTuplet, places label.location

theorem Decorations.Lies.empty : Decorations.Lies places {} := by
  constructor <;> rintro _ ⟨⟩

/-- A step that returns what options ask for, and the children that are left. -/
abbrev Decorates
    (places : Location → Prop) (children : List Node)
    (action : Analyser (Decorations × List Node)) : Prop :=
  Discloses places action
    (fun result => result.1.Lies places ∧ Lie places result.2)
    fun result => ReadTo children result.2

theorem decorates_pure {decorations : Decorations} (lies : decorations.Lies places)
    (lie : Lie places children) :
    Decorates places children (pure (decorations, children)) :=
  .pure ⟨lies, lie⟩ (.refl children)

/-- When options have been read, all that is left is read. -/
theorem Decorates.consume
    {action : Analyser (Decorations × List Node)}
    {next : Decorations × List Node → Analyser Value} {property : Value → Prop}
    (first : Decorates places children action)
    (second : ∀ decorations rest, decorations.Lies places → Lie places rest →
      Discloses places (next (decorations, rest)) property fun _ => AllRead rest) :
    Discloses places (action >>= next) property fun _ => AllRead children :=
  Discloses.bind first fun result holds =>
    (second result.1 result.2 holds.1 holds.2).accepting
      fun _ areRead readTo => readTo areRead

theorem decorates_abbreviations (flavor : Flavor) {decorations : Decorations}
    (lies : decorations.Lies places) (lie : Lie places children) :
    Decorates places children (abbreviations flavor decorations children) := by
  induction children generalizing decorations with
  | nil => exact decorates_pure lies lie
  | cons label rest induction =>
      have continues {decorations} (lies : decorations.Lies places) :
          Decorates places rest (abbreviations flavor decorations rest) := induction lies lie.rest
      have isPlace := lie.first.location
      rw [abbreviations]
      split
      case isFalse => exact decorates_pure lies lie
      case isTrue isLabel =>
        refine .cons (.of_closed isLabel rfl) ?_
        split
        · split
          · exact (locates_reportMisplaced lie.first).bind fun _ => continues lies
          · refine continues { lies with legacyTie := ?_ }
            rintro _ ⟨⟩
            exact isPlace
        · refine continues { lies with legacyBeam := ?_ }
          rintro _ ⟨⟩
          exact isPlace
        · refine continues { lies with legacyTuplet := ?_ }
          rintro _ ⟨⟩
          exact isPlace
        · exact (locates_voiceLabel lie.first).bind fun _ => continues lies
        · exact (locates_staffLabel lie.first).bind fun _ => continues lies
        · exact (locates_reportMisplaced lie.first).bind fun _ => continues lies

theorem locates_stemProperty (note : Handle) (lies : node.Lies places) :
    Locates places (stemProperty note node) := by
  have stem : Locates places (stemValue node) := by
    rw [stemValue]
    refine (discloses_propertyValue lies .label).bindValue ?_
    rintro (_ | value) liesValue
    · exact locates_pure _
    · dsimp only
      split
      case h_3 =>
        exact (locates_report (liesValue value rfl).location _).bind fun _ =>
          locates_pure _
      all_goals exact locates_pure _
  rw [stemProperty]
  exact stem.bind fun _ => locates_modifyModel _

theorem locates_voiceProperty (noteRest : Handle) (lies : node.Lies places) :
    Locates places (voiceProperty noteRest node) := by
  rw [voiceProperty]
  refine .readContext fun context => ?_
  refine (discloses_propertyValue lies .number).bindValue ?_
  rintro (_ | value) liesValue
  · exact (locates_pure _).bind fun _ =>
      (locates_modifyContext _).bind fun _ => locates_modifyModel _
  · exact (locates_numberValue (liesValue value rfl) _).bind fun _ =>
      (locates_modifyContext _).bind fun _ => locates_modifyModel _

/-- Of two descriptors the last one counts, if there is one. -/
theorem forall_mem_orElse {property : Value → Prop} {last earlier : Option Value}
    (ofLast : ∀ value ∈ last, property value)
    (ofEarlier : ∀ value ∈ earlier, property value) :
    ∀ value ∈ last <|> earlier, property value := by
  cases last with
  | none => exact ofEarlier
  | some value => exact ofLast

theorem decorates_noteOptions (note : Handle) {decorations : Decorations}
    (lies : decorations.Lies places) (lie : Lie places children) :
    Decorates places children (noteOptions note decorations children) := by
  induction children generalizing decorations with
  | nil => exact decorates_pure lies lie
  | cons child rest induction =>
      have continues {decorations} (lies : decorations.Lies places) :
          Decorates places rest (noteOptions note decorations rest) := induction lies lie.rest
      rw [noteOptions]
      split
      case h_1 isTie =>
        have isTie := beq_iff_eq.mpr isTie
        refine .child ((discloses_analyseTie (some note) lie.first isTie).accepting
          fun _ => .of_is isTie) fun _ isPlaced => ?_
        exact continues { lies with tie := forall_mem_orElse isPlaced lies.tie }
      case h_2 isSlur =>
        have isSlur := beq_iff_eq.mpr isSlur
        refine .child ((discloses_analyseSlur (some note) lie.first isSlur).accepting
          fun _ => .of_is isSlur) fun _ isPlaced => ?_
        exact continues { lies with slur := forall_mem_orElse isPlaced lies.slur }
      case h_3 isStem =>
        exact .cons (.of_closed (beq_iff_eq.mpr isStem) rfl)
          ((locates_stemProperty note lie.first).bind fun _ => continues lies)
      case h_4 isLyric =>
        exact .child ((consumes_analyseLyric lie.first (some note)).isRead
          (beq_iff_eq.mpr isLyric)) fun _ _ => continues lies
      case h_5 => exact decorates_pure lies lie

theorem decorates_noteRestOptions (noteRest : Handle) {decorations : Decorations}
    (lies : decorations.Lies places) (lie : Lie places children) :
    Decorates places children (noteRestOptions noteRest decorations children) := by
  induction children generalizing decorations with
  | nil => exact decorates_pure lies lie
  | cons child rest induction =>
      have continues {decorations} (lies : decorations.Lies places) :
          Decorates places rest (noteRestOptions noteRest decorations rest) := induction lies lie.rest
      rw [noteRestOptions]
      split
      case h_1 isTuplet =>
        have isTuplet := beq_iff_eq.mpr isTuplet
        refine .child ((discloses_analyseTuplet (some noteRest) lie.first
          isTuplet).accepting fun _ => .of_is isTuplet) fun _ isPlaced => ?_
        exact continues { lies with tuplet := forall_mem_orElse isPlaced lies.tuplet }
      case h_2 isModification =>
        exact .child ((consumes_analyseTimeModification lie.first).isRead
          (beq_iff_eq.mpr isModification)) fun _ _ => continues { lies with }
      case h_3 isBeam =>
        have isBeam := beq_iff_eq.mpr isBeam
        refine .child ((discloses_analyseBeam (some noteRest) lie.first).accepting
          fun _ _ => .of_closed isBeam rfl) fun _ isPlaced => ?_
        exact continues { lies with beam := forall_mem_orElse isPlaced lies.beam }
      case h_4 isVoice =>
        exact .cons (.of_closed (beq_iff_eq.mpr isVoice) rfl)
          ((locates_voiceProperty noteRest lie.first).bind fun _ => continues lies)
      case h_5 => exact decorates_pure lies lie

theorem decorates_readOptions (flavor : Flavor) (noteRest : Handle)
    {decorations : Decorations} (lies : decorations.Lies places)
    (lie : Lie places children) :
    Decorates places children (readOptions flavor noteRest decorations children) := by
  unfold readOptions
  split
  · exact decorates_noteRestOptions noteRest lies lie
  · refine (decorates_noteOptions noteRest lies lie).bind ?_
    rintro ⟨decorations, rest⟩ ⟨liesBetween, lieRest⟩
    exact (decorates_noteRestOptions noteRest liesBetween lieRest).accepting
      fun _ readTo already => already.trans readTo

theorem readsFrom_placeInTime (noteRest : Handle) (base : Option Handle)
    (lie : Lie places children) :
    ReadsFrom places children (placeInTime noteRest base children) id := by
  rw [placeInTime]
  refine .readModel fun before => ?_
  refine (readsFrom_staffOptions _ lie).bind ?_
  rintro ⟨appearance, rest⟩ lieRest
  refine .readContext fun context => .readModel fun model => ?_
  exact (locates_modifyModel _).bind fun _ => readsFrom_pure rfl lieRest

/-! ## What is attached -/

theorem isRead_of_attachment
    {anchor : Handle} {kind : ElementKind} {analyser : Node → Analyser Unit}
    (known : attachmentAnalyser? anchor kind = some analyser) (isKind : node.is kind)
    (lies : node.Lies places) :
    Discloses places (analyser node) (fun _ => True) fun _ => node.IsRead := by
  unfold attachmentAnalyser? at known
  split at known
  · cases known
    exact ((consumes_analyseFermata lies _).map _).isRead isKind
  · split at known
    · cases known
      exact ((consumes_analyseDynamics lies _).map _).isRead isKind
    · split at known
      · cases known
        exact ((consumes_analyseText lies _).map _).isRead isKind
      · split at known
        · cases known
          exact ((consumes_analyseArticulation kind lies _).map _).isRead isKind
        · cases known

theorem discloses_addNoteRest (flavor : Flavor) (lies : node.Lies places)
    (anchor base : Option Handle) :
    Discloses places (addNoteRest flavor node anchor base)
      (fun result => result.2.2.Lies places) fun _ => AllRead node.children := by
  have place : ∀ handle, Locates places (placeInVoice handle) :=
    fun _ => .readContext fun _ => locates_modifyModel _
  rw [addNoteRest]
  refine (readsFrom_readPitch flavor lies lies.children).consume fun _ lie => ?_
  refine (readsFrom_readNoteValue lies lie).consume fun _ lie => ?_
  refine (locates_addObject lies anchor _).bind fun handle => ?_
  refine Decorates.consume (decorates_abbreviations flavor .empty lie)
    fun decorations rest liesBefore lie => ?_
  refine (place handle).bind fun _ => ?_
  refine Decorates.consume (decorates_readOptions flavor handle liesBefore lie)
    fun decorations rest liesAfter lie => ?_
  refine (readsFrom_placeInTime handle base lie).consume fun _ lie => ?_
  refine Discloses.bind (consumes_analyseEach ?_ lie) fun _ _ => ?_
  · exact fun _ _ _ known isKind lies => isRead_of_attachment known isKind lies
  · exact .pure liesAfter fun areRead => areRead

/-! ## Settling the relations -/

theorem locates_settleLegacyTie {label : Option Node}
    (isPlace : ∀ node ∈ label, places node.location) (note : Handle) :
    Locates places (settleLegacyTie label note) := by
  refine locates_settle fun pending draft lies => ?_
  cases label with
  | none =>
      obtain ⟨legacyTie, reports⟩ := LegacyTie.lies_offer lies.legacyTie note draft
      exact ⟨{ lies with legacyTie := legacyTie }, reports⟩
  | some label =>
      have reports := (LegacyTie.lies_offer lies.legacyTie note draft).2
      refine ⟨{ lies with legacyTie := ?_ }, reports⟩
      rintro _ ⟨⟩
      exact isPlace label rfl

theorem locates_settleTies (note : Handle) {decorations : Decorations}
    (lies : decorations.Lies places) : Locates places (settleTies note decorations) := by
  rw [settleTies]
  refine (locates_settleLegacyTie lies.legacyTie note).bind fun _ => ?_
  split
  · rename_i point isPoint
    refine locates_settle fun pending draft waits => ?_
    obtain ⟨ties, reports⟩ := Tie.lies_add waits.ties (lies.tie point isPoint) draft
    exact ⟨{ waits with ties := ties }, reports⟩
  · exact locates_pure _

theorem locates_settleTuplet {point : TupletPoint} (isPlace : places point.location) :
    Locates places (settleTuplet point) := by
  refine locates_settle fun pending draft lies => ?_
  obtain ⟨tuplets, reports⟩ := Tuplet.lies_add lies.tuplets isPlace draft
  exact ⟨{ lies with tuplets := tuplets }, reports⟩

theorem locates_joinTuplets (noteRest : Handle) {location : Location}
    (isPlace : places location) : Locates places (joinTuplets noteRest location) :=
  locates_settle fun _ draft lies =>
    ⟨{ lies with tuplets := Tuplet.lies_join lies.tuplets noteRest isPlace }, .refl draft⟩

theorem locates_openRatio : Locates places openRatio :=
  .readPending fun _ => locates_pure _

theorem locates_legacyTuplet (label : Node) (phase : Phase) (number : Int)
    (actual normal : Nat) (noteRest : Handle) :
    Discloses places (legacyTuplet label phase number actual normal noteRest)
      (fun point => point.location = label.location) fun _ => True :=
  .readContext fun _ => .pure rfl trivial

theorem locates_settleLegacyTuplet {label : Node} (isPlace : places label.location)
    (noteRest : Handle) : Locates places (settleLegacyTuplet label noteRest) := by
  have given : ∀ (phase : Phase) (number : Int) (actual normal : Nat)
      {last : Analyser Float}, Locates places last → Locates places (do
        let point ← legacyTuplet label phase number actual normal noteRest
        settleTuplet point
        last) := by
    intro phase number actual normal last later
    refine (locates_legacyTuplet label phase number actual normal noteRest).bindValue
      fun point isPoint => (locates_settleTuplet ?_).bind fun _ => later
    rw [isPoint]
    exact isPlace
  rw [settleLegacyTuplet]
  dsimp only
  split
  · refine locates_openRatio.bind fun ratio => .readPending fun pending => ?_
    exact given .stop _ 0 0 (locates_pure _)
  · split
    · exact (locates_report isPlace _).bind fun _ => locates_openRatio
    · refine .readPending fun pending => ?_
      split
      · exact (locates_report isPlace _).bind fun _ => locates_openRatio
      · exact given .start 0 _ _ locates_openRatio

theorem locates_settleTuplets {given : Option TupletPoint}
    (isPlaced : ∀ point ∈ given, places point.location) (noteRest : Handle)
    (lies : node.Lies places) : Locates places (settleTuplets given noteRest node) := by
  have join := locates_joinTuplets noteRest lies.location
  unfold settleTuplets
  split
  case h_1 point =>
    have settle := locates_settleTuplet (isPlaced point rfl)
    split
    · exact locates_openRatio.bind fun _ => settle.bind fun _ => join.bind fun _ =>
        locates_pure _
    · exact join.bind fun _ => settle.bind fun _ => locates_openRatio
  case h_2 => exact join.bind fun _ => locates_openRatio

theorem locates_tupletFactor {decorations : Decorations}
    (placed : decorations.Lies places) (noteRest : Handle) (lies : node.Lies places) :
    Locates places (tupletFactor decorations noteRest node) := by
  rw [tupletFactor]
  split
  case h_1 label isLabel =>
    exact locates_settleLegacyTuplet (placed.legacyTuplet label isLabel) noteRest
  case h_2 => exact locates_settleTuplets placed.tuplet noteRest lies

theorem locates_joinLegacyBeam (noteRest : Handle) {location : Location}
    (isPlace : places location) : Locates places (joinLegacyBeam noteRest location) :=
  locates_settle fun _ draft lies =>
    ⟨{ lies with legacyBeam := lies.legacyBeam.append (.singleton isPlace) }, .refl draft⟩

theorem locates_closeLegacyBeam (noteRest : Handle) (location : Location) :
    Locates places (closeLegacyBeam noteRest location) :=
  locates_settle fun _ draft lies =>
    ⟨{ lies with legacyBeam := .nil }, .of_eq (Beam.diagnostics_linkChain _ _ draft)⟩

theorem locates_settleLegacyBeam {decorations : Decorations}
    (placed : decorations.Lies places) (noteRest : Handle) (type : NoteType)
    (lies : node.Lies places) :
    Locates places (settleLegacyBeam decorations noteRest type node) := by
  rw [settleLegacyBeam]
  refine .readPending fun pending => ?_
  dsimp only
  split
  case h_1 label isLabel =>
    have isPlace := placed.legacyBeam label isLabel
    have join := locates_joinLegacyBeam noteRest isPlace
    split
    · split
      · exact locates_report isPlace _
      · split
        · exact (locates_report isPlace _).bind fun _ => join
        · exact join
    · split
      · exact locates_closeLegacyBeam noteRest _
      · exact locates_report isPlace _
    · exact locates_report isPlace _
  case h_2 =>
    split
    · exact locates_joinLegacyBeam noteRest lies.location
    · exact locates_pure _

theorem locates_settleBeams {decorations : Decorations}
    (placed : decorations.Lies places) (noteRest : Handle) (type : NoteType)
    (lies : node.Lies places) :
    Locates places (settleBeams decorations noteRest type node) := by
  rw [settleBeams]
  refine (locates_settleLegacyBeam placed noteRest type lies).bind fun _ => ?_
  split
  case h_1 point isPoint =>
    refine locates_settle fun pending draft waits => ?_
    obtain ⟨beams, reports⟩ := Beam.lies_add waits.beams (placed.beam point isPoint) draft
    exact ⟨{ waits with beams := beams }, reports⟩
  case h_2 => exact locates_pure _

theorem locates_settleSlur {decorations : Decorations}
    (placed : decorations.Lies places) : Locates places (settleSlur decorations) := by
  rw [settleSlur]
  split
  case h_1 point isPoint =>
    refine locates_settle fun pending draft waits => ?_
    obtain ⟨slurs, reports⟩ := Slur.lies_add waits.slurs (placed.slur point isPoint) draft
    exact ⟨{ waits with slurs := slurs }, reports⟩
  case h_2 => exact locates_pure _

theorem locates_joinOrAdvance (base : Option Handle) (noteRest : Handle)
    (duration : Float) : Locates places (joinOrAdvance base noteRest duration) := by
  cases base with
  | none => exact locates_modifyContext _
  | some base =>
      exact locates_settle fun _ draft lies =>
        ⟨lies, .of_eq (diagnostics_joinChord base noteRest draft)⟩

theorem locates_settleNoteRest (flavor : Flavor) (lies : node.Lies places)
    (base : Option Handle) (noteRest : Handle) (value : NoteValue)
    {decorations : Decorations} (placed : decorations.Lies places) :
    Locates places (settleNoteRest flavor node base noteRest value decorations) := by
  have modification : Locates places
      (applyModification noteRest decorations.timeModification) := by
    cases decorations.timeModification with
    | none => exact locates_pure _
    | some given => exact locates_modifyModel _
  have afterTies : Locates places (do
      applyModification noteRest decorations.timeModification
      let factor ← tupletFactor decorations noteRest node
      settleBeams decorations noteRest value.type node
      settleSlur decorations
      return factor) :=
    modification.bind fun _ => (locates_tupletFactor placed noteRest lies).bind fun _ =>
      (locates_settleBeams placed noteRest value.type lies).bind fun _ =>
        (locates_settleSlur placed).bind fun _ => locates_pure _
  have relations : Locates places
      (settleRelations flavor node noteRest value.type decorations) := by
    rw [settleRelations]
    split
    · exact (locates_settleTies noteRest placed).bind fun _ => afterTies
    · exact afterTies
  rw [settleNoteRest]
  refine relations.bind fun factor => ?_
  refine (locates_joinOrAdvance base noteRest _).bind fun _ => ?_
  split
  · exact locates_modifyContext _
  · exact locates_pure _

/-- A note or rest is read to its end. -/
theorem consumes_analyseNoteRest (flavor : Flavor) (lies : node.Lies places)
    (anchor : Option Handle) :
    Consumes places node.children (analyseNoteRest flavor node anchor) := by
  rw [analyseNoteRest]
  refine .readContext fun context => ?_
  refine (discloses_addNoteRest flavor lies anchor _).bind ?_
  rintro ⟨handle, value, decorations⟩ placed
  refine ((locates_settleNoteRest flavor lies _ handle value placed).bind
    fun _ => locates_pure _).accepting fun _ _ areRead => areRead

end LdpScore.Analyser
