import LdpScore.Analysis.ScoreOption
import LdpScore.Analysis.StaffObject
import LdpScore.Proofs.Layout.NoteRest

/-!
# Staff objects are blind to locations

Chords, clefs, keys, time signatures, barlines, cursor moves and directions, and
the options of a score: what they add to the model and to the context does not
depend on where they are written.
-/

namespace LdpScore.Analyser

/-! ## Chords -/

theorem blind_chordNotes (anchor : Option Handle) (children : List Node) :
    Blind (chordNotes anchor children)
      (chordNotes anchor (children.map Node.bare)) := by
  induction children with
  | nil => exact .pure rfl
  | cons child rest induction =>
      rw [List.map_cons, chordNotes, chordNotes, Node.is_bare]
      split
      · exact (blind_analyseNoteRest .chordNote child anchor).bind
          fun _ => induction
      · exact (blind_reportMisplaced child).bind fun _ => induction

theorem blind_chordChildren (anchor : Option Handle) (children : List Node) :
    Blind (chordChildren anchor children)
      (chordChildren anchor (children.map Node.bare)) := by
  induction children with
  | nil => exact .pure rfl
  | cons child rest induction =>
      rw [List.map_cons, chordChildren, chordChildren, Node.is_bare]
      split
      · refine (blind_analyseNoteRest .note child anchor).bind fun base => ?_
        exact (blind_chordNotes anchor rest).bind fun _ => .pure rfl
      · exact (blind_reportMisplaced child).bind fun _ => induction

theorem blind_analyseChord (node : Node) (anchor : Option Handle) :
    Blind (analyseChord node anchor) (analyseChord node.bare anchor) := by
  rw [analyseChord, analyseChord, Node.children_bare]
  refine (blind_chordChildren anchor node.children).bind fun base => ?_
  exact blind_model.bind fun _ => .pure rfl

/-! ## Labels and sizes -/

/-- A name that is read in the same way, and reported in the same way where it is
unknown. -/
theorem blind_optionalName
    {Name : Type} (usual : Name) (ofName? : String → Option Name)
    {problem problem' : Node → Location × Problem}
    (fits : ∀ label, problem' label.bare = (.nowhere, (problem label).2))
    (plain : ∀ label, (problem label).2.bare = (problem label).2)
    (children : List Node) :
    BlindRest (optionalName usual ofName? problem children)
      (optionalName usual ofName? problem' (children.map Node.bare)) := by
  rw [optionalName, optionalName, take?_bare]
  rcases take? .label children with ⟨_ | label, rest⟩
  · exact .pure rfl
  · dsimp only [bareTaken, Option.map_some]
    rw [Node.text_bare]
    split
    · exact .pure rfl
    · rw [fits]
      exact (blind_report (problem label).1 (plain label)).bind
        fun _ => .pure rfl

/-- A name that is reported where its label is written. -/
theorem blind_labelName
    {Name : Type} (usual : Name) (ofName? : String → Option Name)
    (problem : String → Problem)
    (plain : ∀ text, (problem text).bare = problem text)
    (children : List Node) :
    BlindRest
      (optionalName usual ofName?
        (fun label => (label.location, problem label.text)) children)
      (optionalName usual ofName?
        (fun label => (label.location, problem label.text))
        (children.map Node.bare)) :=
  blind_optionalName usual ofName?
    (fun label => by rw [Node.location_bare, Node.text_bare])
    (fun label => plain label.text) children

theorem blind_optionalWord (word : String) (children : List Node) :
    BlindRest (optionalWord word children)
      (optionalWord word (children.map Node.bare)) := by
  rw [optionalWord, optionalWord, take?_bare]
  rcases take? .label children with ⟨_ | label, rest⟩
  · exact .pure rfl
  · dsimp only [bareTaken, Option.map_some]
    rw [Node.text_bare]
    split
    · exact .pure rfl
    · exact (blind_reportMisplaced label).bind fun _ => .pure rfl

@[simp]
theorem firstText_bare (node : Node) :
    firstText node.bare = firstText node := by
  rw [firstText, firstText, Node.children_bare, List.head?_map]
  cases node.children.head? with
  | none => rfl
  | some child => exact child.text_bare

theorem blind_optionalSize (node : Node) (children : List Node) :
    BlindRest (optionalSize node children)
      (optionalSize node.bare (children.map Node.bare)) := by
  rw [optionalSize, optionalSize, take?_bare]
  rcases take? .symbolSize children with ⟨_ | property, rest⟩
  · exact .pure rfl
  · dsimp only [bareTaken, Option.map_some]
    rw [firstText_bare]
    split
    · exact .pure rfl
    · exact (blind_report_bare node rfl).bind fun _ => .pure rfl

/-! ## Clefs, signatures and barlines -/

theorem blind_textAttachment
    {anchor : Handle} {kind : ElementKind} {analyser : Node → Analyser Unit}
    (known : textAnalyser? anchor kind = some analyser) (node : Node) :
    Blind (analyser node) (analyser node.bare) := by
  unfold textAnalyser? at known
  split at known <;> cases known
  exact (blind_analyseText node (some anchor)).discard

theorem blind_addStaffObject
    (node : Node) (anchor : Option Handle) (content : Content)
    (children : List Node) :
    Blind (addStaffObject node anchor content children)
      (addStaffObject node.bare anchor content (children.map Node.bare)) := by
  refine (blind_addObject node anchor content).bind fun handle => ?_
  refine (blind_analyseEach (fun kind analyser child known =>
    blind_textAttachment known child) children).bind fun _ => .pure rfl

theorem blind_analyseClef (node : Node) (anchor : Option Handle) :
    Blind (analyseClef node anchor) (analyseClef node.bare anchor) := by
  rw [analyseClef, analyseClef, Node.children_bare]
  refine (blind_labelName _ _ .unknownClef (fun _ => rfl) _).bind
    fun named => ?_
  refine (blind_optionalSize node named.2).bind fun sized => ?_
  refine (blind_staffOptions {} sized.2).bind fun shown => ?_
  exact (blind_modifyContext _).bind fun _ =>
    blind_addStaffObject node anchor _ shown.2

theorem blind_analyseKey (node : Node) (anchor : Option Handle) :
    Blind (analyseKey node anchor) (analyseKey node.bare anchor) := by
  rw [analyseKey, analyseKey, Node.children_bare]
  refine (blind_labelName _ _ .unknownKey (fun _ => rfl) _).bind
    fun named => ?_
  refine (blind_staffOptions {} named.2).bind fun shown => ?_
  exact (blind_modifyContext _).bind fun _ =>
    blind_addStaffObject node anchor _ shown.2

theorem blind_timeCount (node : Node) (default : Nat) (children : List Node) :
    BlindRest (timeCount node default children)
      (timeCount node.bare default (children.map Node.bare)) := by
  refine (blind_mandatory node .number children).bind fun result => ?_
  rcases result with ⟨_ | number, rest⟩
  · exact .pure rfl
  · exact (blind_countValue number default).bind fun _ => .pure rfl

theorem blind_timeCounts
    (node : Node) (style : TimeStyle) (children : List Node) :
    BlindUpTo (Prod.map id (Prod.map id (List.map Node.bare)))
      (timeCounts node style children)
      (timeCounts node.bare style (children.map Node.bare)) := by
  cases style with
  | common => exact .pure rfl
  | cut => exact .pure rfl
  | singleNumber =>
      exact (blind_timeCount node 2 children).bind fun _ => .pure rfl
  | normal =>
      refine (blind_timeCount node 2 children).bind fun top => ?_
      exact (blind_timeCount node 4 top.2).bind fun _ => .pure rfl

theorem blind_analyseTime (node : Node) (anchor : Option Handle) :
    Blind (analyseTime node anchor) (analyseTime node.bare anchor) := by
  rw [analyseTime, analyseTime, Node.children_bare]
  refine (blind_optionalName _ _ (fun label => by
    rw [Node.location_bare, Node.text_bare]) (fun _ => rfl) _).bind
    fun named => ?_
  refine (blind_timeCounts node named.1 named.2).bind fun counted => ?_
  refine (blind_staffOptions {} counted.2.2).bind fun shown => ?_
  exact (blind_modifyContext _).bind fun _ =>
    blind_addStaffObject node anchor _ shown.2

theorem blind_analyseBarline (node : Node) (anchor : Option Handle) :
    Blind (analyseBarline node anchor) (analyseBarline node.bare anchor) := by
  rw [analyseBarline, analyseBarline, Node.children_bare]
  refine (blind_labelName _ _ .unknownBarline (fun _ => rfl) _).bind
    fun named => ?_
  refine (blind_optionalWord "middle" named.2).bind fun middle => ?_
  refine (blind_staffOptions {} middle.2).bind fun shown => ?_
  refine (blind_addStaffObject node anchor _ shown.2).bind fun handle => ?_
  exact (blind_modifyContext _).bind fun _ => .pure rfl

/-! ## Moves of the time cursor -/

theorem bare_of_labelShift
    {isForward : Bool} {text : String} {problem : Problem}
    (failed : labelShift isForward text = .error problem) :
    problem.bare = problem := by
  unfold labelShift at failed
  split at failed
  · cases failed
  · cases failed; rfl
  · cases failed
  · cases failed; rfl
  · split at failed <;> cases failed
    rfl

theorem blind_readShift (isForward : Bool) (node : Node) :
    BlindRest (readShift isForward node) (readShift isForward node.bare) := by
  rw [readShift, readShift, Node.children_bare]
  cases node.children with
  | nil =>
      rw [List.map_nil, Node.name_bare]
      exact (blind_report_bare node rfl).bind fun _ => .pure rfl
  | cons child rest =>
      rw [List.map_cons]
      dsimp only
      rw [Node.is_bare, Node.is_bare, Node.text_bare, Node.name_bare]
      split
      · split
        · exact .pure rfl
        · rename_i problem failed
          exact (blind_report_bare child (bare_of_labelShift failed)).bind
            fun _ => .pure rfl
      · split
        · refine (blind_realValue child).bind fun amount => ?_
          dsimp only [id]
          split
          · exact (blind_report_bare child rfl).bind fun _ => .pure rfl
          · exact .pure rfl
        · exact (blind_report_bare child rfl).bind fun _ => .pure rfl

theorem blind_analyseShift
    (isForward : Bool) (node : Node) (anchor : Option Handle) :
    Blind (analyseShift isForward node anchor)
      (analyseShift isForward node.bare anchor) := by
  refine (blind_readShift isForward node).bind fun result => ?_
  rcases result with ⟨_ | shift, rest⟩
  · exact .pure rfl
  · refine (blind_reportExtra node rest).bind fun _ => ?_
    refine (blind_modifyContext _).bind fun _ => ?_
    exact (blind_addObject node anchor _).bind fun _ => .pure rfl

/-! ## Directions -/

theorem blind_analyseSpacer (node : Node) (anchor : Option Handle) :
    Blind (analyseSpacer node anchor) (analyseSpacer node.bare anchor) := by
  rw [analyseSpacer, analyseSpacer, Node.children_bare, take?_bare]
  rcases take? .number node.children with ⟨_ | number, rest⟩
  · exact (blind_report_bare node rfl).bind fun _ => .pure rfl
  · refine (blind_realValue number).bind fun width => ?_
    refine (blind_staffOptions {} rest).bind fun shown => ?_
    refine (blind_addObject node anchor _).bind fun handle => ?_
    refine (blind_analyseEach (fun kind analyser child known =>
      blind_attachment known child) shown.2).bind fun _ => .pure rfl

theorem blind_analyseNewSystem (node : Node) (anchor : Option Handle) :
    Blind (analyseNewSystem node anchor)
      (analyseNewSystem node.bare anchor) := by
  rw [analyseNewSystem, analyseNewSystem, Node.children_bare]
  exact (blind_reportExtra node node.children).bind fun _ =>
    blind_addObject node anchor _

theorem blind_readMetronome (node : Node) (children : List Node) :
    BlindRest (readMetronome node children)
      (readMetronome node.bare (children.map Node.bare)) := by
  rw [readMetronome, readMetronome, take?_bare, take?_bare]
  rcases take? .label children with ⟨_ | label, rest⟩
  · dsimp only [bareTaken, Option.map_none]
    rcases take? .number children with ⟨_ | number, rest⟩
    · exact (blind_report_bare node rfl).bind fun _ => .pure rfl
    · exact (blind_integerValue number 60).bind fun _ => .pure rfl
  · refine (blind_noteValue label).bind fun value => ?_
    dsimp only [bareTaken, id]
    rw [take?_bare, take?_bare]
    rcases take? .number rest with ⟨_ | number, others⟩
    · dsimp only [bareTaken, Option.map_none]
      rcases take? .label rest with ⟨_ | right, others⟩
      · exact (blind_report_bare node rfl).bind fun _ => .pure rfl
      · exact (blind_noteValue right).bind fun _ => .pure rfl
    · exact (blind_integerValue number 60).bind fun _ => .pure rfl

theorem blind_analyseMetronome (node : Node) (anchor : Option Handle) :
    Blind (analyseMetronome node anchor)
      (analyseMetronome node.bare anchor) := by
  rw [analyseMetronome, analyseMetronome, Node.children_bare]
  refine (blind_readMetronome node node.children).bind fun result => ?_
  rcases result with ⟨_ | mark, rest⟩
  · exact blind_addObject node anchor _
  · refine (blind_optionalWord "parenthesis" rest).bind fun word => ?_
    exact blind_addMark node anchor word.2 _

/-- Whatever stands in music data. -/
theorem blind_staffObject
    {anchor : Option Handle} {kind : ElementKind}
    {analyser : Node → Analyser (Option Handle)}
    (known : staffObjectAnalyser? anchor kind = some analyser) (node : Node) :
    Blind (analyser node) (analyser node.bare) := by
  unfold staffObjectAnalyser? at known
  split at known <;> cases known
  · exact (blind_analyseNoteRest .note node anchor).map fun _ => rfl
  · exact (blind_analyseNoteRest .chordNote node anchor).map fun _ => rfl
  · exact (blind_analyseNoteRest .rest node anchor).map fun _ => rfl
  · exact blind_analyseChord node anchor
  · exact (blind_analyseClef node anchor).map fun _ => rfl
  · exact (blind_analyseKey node anchor).map fun _ => rfl
  · exact (blind_analyseTime node anchor).map fun _ => rfl
  · exact (blind_analyseBarline node anchor).map fun _ => rfl
  · exact blind_analyseShift false node anchor
  · exact blind_analyseShift true node anchor
  · exact blind_analyseSpacer node anchor
  · exact (blind_analyseNewSystem node anchor).map fun _ => rfl
  · exact (blind_analyseMetronome node anchor).map fun _ => rfl
  · exact blind_analyseText node anchor

/-! ## Score options -/

theorem optionValueNode?_bare (children : List Node) :
    optionValueNode? (children.map Node.bare) =
      (optionValueNode? children).map
        (Prod.map Node.bare (List.map Node.bare)) := by
  cases children with
  | nil => rfl
  | cons child rest =>
      rw [List.map_cons, optionValueNode?, optionValueNode?, Node.is_bare,
        Node.is_bare, Node.is_bare]
      split <;> rfl

theorem blind_readOption (node : Node) :
    Blind (readOption node) (readOption node.bare) := by
  rw [readOption, readOption, Node.children_bare]
  refine (blind_mandatory node .label node.children).bind fun result => ?_
  rcases result with ⟨label, rest⟩
  have sameName : ((label.map Node.bare).map Node.text).getD "" =
      (label.map Node.text).getD "" := by
    cases label with
    | none => rfl
    | some label => exact label.text_bare
  dsimp only [bareTaken]
  rw [sameName, optionValueNode?_bare]
  rcases optionValueNode? rest with _ | ⟨valueNode, others⟩
  · exact (blind_report_bare node rfl).bind fun _ => .pure rfl
  · dsimp only [Option.map_some, Prod.map]
    rw [Node.text_bare]
    split
    · exact (blind_report_bare valueNode rfl).bind fun _ => .pure rfl
    · split
      · exact (blind_report_bare valueNode rfl).bind fun _ => .pure rfl
      · exact (blind_reportExtra node others).bind fun _ => .pure rfl

theorem blind_analyseOption (node : Node) (anchor : Option Handle) :
    Blind (analyseOption node anchor) (analyseOption node.bare anchor) := by
  refine (blind_readOption node).bind fun result => ?_
  rcases result with _ | ⟨name, value⟩
  · exact .pure rfl
  · refine blind_model.bind fun current => ?_
    dsimp only [id]
    split
    · exact (blind_modifyModel _).bind fun _ => .pure rfl
    · exact (blind_addObject node anchor _).bind fun _ => .pure rfl

end LdpScore.Analyser
