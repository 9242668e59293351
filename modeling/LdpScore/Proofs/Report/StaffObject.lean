import LdpScore.Proofs.Report.NoteRest

/-!
# Reports of staff objects

Everything that stands in music data is read to its end.
-/

namespace LdpScore.Analyser

variable {Value : Type} {places : Location → Prop}
variable {node : Node} {children : List Node}

/-! ## Chords -/

theorem consumes_chordNotes (anchor : Option Handle) (lie : Lie places children) :
    Consumes places children (chordNotes anchor children) := by
  induction children with
  | nil => exact .pure trivial .nil
  | cons child rest induction =>
      rw [chordNotes]
      split
      case isTrue isNote =>
        refine ((consumes_analyseNoteRest .chordNote lie.first anchor).isRead isNote).bind
          fun _ _ => ?_
        exact (induction lie.rest).accepting fun _ areRead isRead => .cons isRead areRead
      case isFalse =>
        exact discloses_report_bind lie.first.location _
          ((induction lie.rest).accepting fun _ _ => trivial)

theorem consumes_chordChildren (anchor : Option Handle) (lie : Lie places children) :
    Consumes places children (chordChildren anchor children) := by
  induction children with
  | nil => exact .pure trivial .nil
  | cons child rest induction =>
      rw [chordChildren]
      split
      case isTrue isNote =>
        refine ((consumes_analyseNoteRest .note lie.first anchor).isRead isNote).bind
          fun base _ => ?_
        refine Discloses.bind (consumes_chordNotes anchor lie.rest) fun _ _ => ?_
        exact .pure trivial fun areRead isRead => .cons isRead areRead
      case isFalse =>
        exact discloses_report_bind lie.first.location _
          ((induction lie.rest).accepting fun _ _ => trivial)

theorem consumes_analyseChord (lies : node.Lies places) (anchor : Option Handle) :
    Consumes places node.children (analyseChord node anchor) := by
  rw [analyseChord]
  refine Consumes.bind (consumes_chordChildren anchor lies.children) fun base => ?_
  exact .readModel fun model => locates_pure _

/-! ## Signs -/

/-- Only texts are attached to a staff object. -/
theorem consumes_addStaffObject (lies : node.Lies places) (anchor : Option Handle)
    (content : Content) (lie : Lie places children) :
    Consumes places children (addStaffObject node anchor content children) := by
  rw [addStaffObject]
  refine (locates_addObject lies anchor content).bind fun handle => ?_
  refine Consumes.bind (consumes_analyseEach ?_ lie) fun _ => locates_pure _
  intro kind analyser child known isKind lies
  unfold textAnalyser? at known
  split at known
  · cases known
    exact ((consumes_analyseText lies _).map _).isRead isKind
  · cases known

theorem readsFrom_optionalName
    (usual : Value) (ofName? : String → Option Value)
    {problem : Node → Location × Problem}
    (isPlace : ∀ label : Node, label.Lies places → places (problem label).1)
    (lie : Lie places children) :
    ReadsFrom places children (optionalName usual ofName? problem children) Prod.snd := by
  rw [optionalName]
  rcases take?_cases .label children with ⟨label, rest, rfl, isLabel, taken⟩ | notTaken
  · rw [taken]
    refine .cons (.of_closed isLabel rfl) ?_
    dsimp only
    split
    · exact readsFrom_pure rfl lie.rest
    · exact (locates_report (isPlace label lie.first) _).bind fun _ =>
        readsFrom_pure rfl lie.rest
  · rw [notTaken]
    exact readsFrom_pure rfl lie

theorem readsFrom_optionalWord (word : String) (lie : Lie places children) :
    ReadsFrom places children (optionalWord word children) Prod.snd := by
  rw [optionalWord]
  rcases take?_cases .label children with ⟨label, rest, rfl, isLabel, taken⟩ | notTaken
  · rw [taken]
    refine .cons (.of_closed isLabel rfl) ?_
    dsimp only
    split
    · exact readsFrom_pure rfl lie.rest
    · exact (locates_reportMisplaced lie.first).bind fun _ => readsFrom_pure rfl lie.rest
  · rw [notTaken]
    exact readsFrom_pure rfl lie

theorem readsFrom_optionalSize (lies : node.Lies places) (lie : Lie places children) :
    ReadsFrom places children (optionalSize node children) Prod.snd := by
  rw [optionalSize]
  rcases take?_cases .symbolSize children with ⟨size, rest, rfl, isSize, taken⟩ | notTaken
  · rw [taken]
    refine .cons (.of_closed isSize rfl) ?_
    dsimp only
    split
    · exact readsFrom_pure rfl lie.rest
    · exact (locates_report lies.location _).bind fun _ => readsFrom_pure rfl lie.rest
  · rw [notTaken]
    exact readsFrom_pure rfl lie

theorem consumes_analyseClef (lies : node.Lies places) (anchor : Option Handle) :
    Consumes places node.children (analyseClef node anchor) := by
  rw [analyseClef]
  refine (readsFrom_optionalName _ _ (fun _ lies => lies.location) lies.children).consume
    fun _ lie => ?_
  refine (readsFrom_optionalSize lies lie).consume fun _ lie => ?_
  refine (readsFrom_staffOptions {} lie).consume fun _ lie => ?_
  exact (locates_modifyContext _).bind fun _ => consumes_addStaffObject lies anchor _ lie

theorem consumes_analyseKey (lies : node.Lies places) (anchor : Option Handle) :
    Consumes places node.children (analyseKey node anchor) := by
  rw [analyseKey]
  refine (readsFrom_optionalName _ _ (fun _ lies => lies.location) lies.children).consume
    fun _ lie => ?_
  refine (readsFrom_staffOptions {} lie).consume fun _ lie => ?_
  exact (locates_modifyContext _).bind fun _ => consumes_addStaffObject lies anchor _ lie

theorem readsFrom_timeCount (lies : node.Lies places) (default : Nat)
    (lie : Lie places children) :
    ReadsFrom places children (timeCount node default children) Prod.snd := by
  rw [timeCount]
  exact readsFrom_mandatory lies rfl lie (fun _ lie => readsFrom_pure rfl lie)
    fun _ _ liesNumber lie => (locates_countValue liesNumber default).bind fun _ =>
      readsFrom_pure rfl lie

theorem readsFrom_timeCounts (lies : node.Lies places) (style : TimeStyle)
    (lie : Lie places children) :
    ReadsFrom places children (timeCounts node style children)
      fun result => result.2.2 := by
  cases style with
  | common => exact readsFrom_pure rfl lie
  | cut => exact readsFrom_pure rfl lie
  | singleNumber =>
      exact (readsFrom_timeCount lies 2 lie).bind fun _ lie => readsFrom_pure rfl lie
  | normal =>
      exact (readsFrom_timeCount lies 2 lie).bind fun _ lie =>
        (readsFrom_timeCount lies 4 lie).bind fun _ lie => readsFrom_pure rfl lie

theorem consumes_analyseTime (lies : node.Lies places) (anchor : Option Handle) :
    Consumes places node.children (analyseTime node anchor) := by
  rw [analyseTime]
  refine (readsFrom_optionalName _ _ (fun _ _ => lies.location) lies.children).consume
    fun _ lie => ?_
  refine (readsFrom_timeCounts lies _ lie).consume fun _ lie => ?_
  refine (readsFrom_staffOptions {} lie).consume fun _ lie => ?_
  exact (locates_modifyContext _).bind fun _ => consumes_addStaffObject lies anchor _ lie

theorem consumes_analyseBarline (lies : node.Lies places) (anchor : Option Handle) :
    Consumes places node.children (analyseBarline node anchor) := by
  rw [analyseBarline]
  refine (readsFrom_optionalName _ _ (fun _ lies => lies.location) lies.children).consume
    fun _ lie => ?_
  refine (readsFrom_optionalWord "middle" lie).consume fun _ lie => ?_
  refine (readsFrom_staffOptions {} lie).consume fun _ lie => ?_
  exact Consumes.bind (consumes_addStaffObject lies anchor _ lie) fun _ =>
    (locates_modifyContext _).bind fun _ => locates_pure _

/-! ## Moves of the time cursor -/

/-- The shift of a cursor move; if there is none that is reported. -/
theorem discloses_readShift (isForward : Bool) (lies : node.Lies places) :
    Discloses places (readShift isForward node) (fun result => Lie places result.2)
      fun result => result.1.isSome ∧ ReadTo node.children result.2 := by
  have lie := lies.children
  rw [readShift]
  generalize node.children = children at lie ⊢
  split
  · exact discloses_report_bind lies.location _ (.pure lie trivial)
  case h_2 child rest =>
    have lieRest := lie.rest
    have atChild : places child.location := lie.first.location
    split
    case isTrue isLabel =>
      have isRead := Node.IsRead.of_closed isLabel rfl
      split
      · exact .pure lieRest ⟨rfl, .cons isRead⟩
      · exact discloses_report_bind atChild _ (.pure lieRest trivial)
    case isFalse =>
      split
      case isTrue isNumber =>
        have isRead := Node.IsRead.of_closed isNumber rfl
        refine (locates_realValue lie.first).bind fun amount => ?_
        split
        · exact discloses_report_bind atChild _ (.pure lieRest trivial)
        · exact .pure lieRest ⟨rfl, .cons isRead⟩
      case isFalse =>
        exact discloses_report_bind atChild _ (.pure lieRest trivial)

theorem consumes_analyseShift (isForward : Bool) (lies : node.Lies places)
    (anchor : Option Handle) :
    Consumes places node.children (analyseShift isForward node anchor) := by
  rw [analyseShift]
  refine (discloses_readShift isForward lies).bind ?_
  rintro ⟨_ | shift, rest⟩ lie
  · refine .pure trivial ?_
    rintro ⟨impossible, _⟩
    cases impossible
  · refine Discloses.accepting ?_ fun _ areRead already => already.2 areRead
    refine Consumes.bind (discloses_reportExtra lies rest) fun _ => ?_
    exact (locates_modifyContext _).bind fun _ =>
      (locates_addObject lies anchor _).bind fun _ => locates_pure _

/-! ## Directions -/

theorem consumes_analyseSpacer (lies : node.Lies places) (anchor : Option Handle) :
    Consumes places node.children (analyseSpacer node anchor) := by
  have lie := lies.children
  rw [analyseSpacer]
  generalize node.children = children at lie ⊢
  rcases take?_cases .number children with ⟨width, rest, rfl, isWidth, taken⟩ | notTaken
  · rw [taken]
    refine .cons (.of_closed isWidth rfl) ?_
    refine (locates_realValue lie.first).bind fun width => ?_
    refine (readsFrom_staffOptions {} lie.rest).consume fun _ lie => ?_
    refine (locates_addObject lies anchor _).bind fun handle => ?_
    refine Consumes.bind (consumes_analyseEach ?_ lie) fun _ => locates_pure _
    exact fun _ _ _ known isKind lies => isRead_of_attachment known isKind lies
  · rw [notTaken]
    exact discloses_report_bind lies.location _ (locates_pure _)

theorem consumes_analyseNewSystem (lies : node.Lies places) (anchor : Option Handle) :
    Consumes places node.children (analyseNewSystem node anchor) := by
  rw [analyseNewSystem]
  exact Consumes.bind (discloses_reportExtra lies _) fun _ => locates_addObject lies anchor _

/-- A metronome mark; if it is not complete that is reported. -/
theorem discloses_readMetronome (lies : node.Lies places) (lie : Lie places children) :
    Discloses places (readMetronome node children) (fun result => Lie places result.2)
      fun result => result.1.isSome ∧ ReadTo children result.2 := by
  rw [readMetronome]
  rcases take?_cases .label children with ⟨label, rest, rfl, isLabel, taken⟩ | noLabel
  · rw [taken]
    have readLabel := Node.IsRead.of_closed isLabel rfl
    have lieRest := lie.rest
    refine (locates_noteValue lie.first).bind fun value => ?_
    rcases take?_cases .number rest with ⟨number, rest, rfl, isNumber, taken⟩ | noNumber
    · rw [taken]
      refine (locates_integerValue lieRest.first 60).bind fun ticks => ?_
      exact .pure lieRest.rest ⟨rfl,
        (ReadTo.cons readLabel).trans (.cons (.of_closed isNumber rfl))⟩
    · rw [noNumber]
      dsimp only
      rcases take?_cases .label rest with ⟨right, rest, rfl, isRight, taken⟩ | noRight
      · rw [taken]
        refine (locates_noteValue lieRest.first).bind fun other => ?_
        exact .pure lieRest.rest ⟨rfl,
          (ReadTo.cons readLabel).trans (.cons (.of_closed isRight rfl))⟩
      · rw [noRight]
        exact discloses_report_bind lies.location _ (.pure lieRest trivial)
  · rw [noLabel]
    dsimp only
    rcases take?_cases .number children with ⟨number, rest, rfl, isNumber, taken⟩ | noNumber
    · rw [taken]
      refine (locates_integerValue lie.first 60).bind fun ticks => ?_
      exact .pure lie.rest ⟨rfl, .cons (.of_closed isNumber rfl)⟩
    · rw [noNumber]
      exact discloses_report_bind lies.location _ (.pure lie trivial)

theorem consumes_analyseMetronome (lies : node.Lies places) (anchor : Option Handle) :
    Consumes places node.children (analyseMetronome node anchor) := by
  rw [analyseMetronome]
  refine (discloses_readMetronome lies lies.children).bind ?_
  rintro ⟨_ | mark, rest⟩ lie
  · refine (locates_addObject lies anchor _).accepting fun _ _ already => ?_
    cases already.1
  · refine Discloses.accepting ?_ fun _ areRead already => already.2 areRead
    exact (readsFrom_optionalWord "parenthesis" lie).consume fun _ lie =>
      consumes_addMark lies anchor lie _

/-- Every staff object is read to its end. -/
theorem consumes_staffObjectAnalyser?
    {anchor : Option Handle} {kind : ElementKind}
    {analyser : Node → Analyser (Option Handle)}
    (known : staffObjectAnalyser? anchor kind = some analyser) (lies : node.Lies places) :
    Consumes places node.children (analyser node) := by
  unfold staffObjectAnalyser? at known
  split at known
  case h_15 => cases known
  all_goals cases known
  · exact (consumes_analyseNoteRest .note lies anchor).map _
  · exact (consumes_analyseNoteRest .chordNote lies anchor).map _
  · exact (consumes_analyseNoteRest .rest lies anchor).map _
  · exact consumes_analyseChord lies anchor
  · exact (consumes_analyseClef lies anchor).map _
  · exact (consumes_analyseKey lies anchor).map _
  · exact (consumes_analyseTime lies anchor).map _
  · exact (consumes_analyseBarline lies anchor).map _
  · exact consumes_analyseShift false lies anchor
  · exact consumes_analyseShift true lies anchor
  · exact consumes_analyseSpacer lies anchor
  · exact (consumes_analyseNewSystem lies anchor).map _
  · exact (consumes_analyseMetronome lies anchor).map _
  · exact consumes_analyseText lies anchor

end LdpScore.Analyser
