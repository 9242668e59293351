import LdpScore.Proofs.Analysis.Leaving
import LdpScore.Proofs.Analysis.Yielding

/-!
# What an analysis performs

For the music an analysis is a performance: instruments start, notes and rests are
played, and everything else goes on beside them.  What there is to perform can be
read off the tree alone.  These are its `Cue`s, and an analysis `Performs` all of
them in order, and nothing else.
-/

namespace LdpScore

open Analyser

/-- What a tree gives to perform. -/
inductive Cue where
  /-- An instrument starts. -/
  | instrument
  /-- A note or rest is played. -/
  | play (flavor : Flavor) (node : Node)

/-! ## The cues of a tree -/

namespace Node

/-- The cues of the children of a chord: its first note, and the others that sound
with it. -/
def chordCues (children : List Node) : List Cue :=
  match children.filter fun child => child.is .note with
  | [] => []
  | first :: others => .play .note first :: others.map (.play .chordNote)

/-- The cues of what stands in music data. -/
def staffCues (node : Node) : List Cue :=
  match node.kind? with
  | some .note => [.play .note node]
  | some .chordNote => [.play .chordNote node]
  | some .rest => [.play .rest node]
  | some .chord => chordCues node.children
  | _ => []

def musicCues (node : Node) : List Cue :=
  node.children.flatMap staffCues

/-- What stands after the name, the abbreviation and the staves of an instrument. -/
def afterStaves (node : Node) : List Node :=
  let named := (take? .instrumentName node.children).2
  let abbreviated := (take? .abbreviation named).2
  (take? .staves abbreviated).2

def instrumentCues (node : Node) : List Cue :=
  .instrument :: (take? .musicData node.afterStaves).1.toList.flatMap musicCues

/-- What stands after the version, the language, the titles, the cursor and the
options of a score. -/
def afterOptions (node : Node) : List Node :=
  let versioned := (take? .version node.children).2
  let titled := (take? .language versioned).2.dropWhile fun child =>
    child.is .title
  (take? .cursor titled).2.dropWhile fun child => child.is .option

def scoreCues (node : Node) : List Cue :=
  node.afterOptions.flatMap fun child =>
    if child.is .instrument then child.instrumentCues else []

def contentCues (node : Node) : List Cue :=
  node.children.flatMap fun child =>
    if child.is .score then child.scoreCues else []

/-- The cues of a document; a document without a version has none. -/
def documentCues (node : Node) : List Cue :=
  match take? .version node.children with
  | (none, _) => []
  | (some _, rest) =>
      (take? .content (take? .language rest).2).1.toList.flatMap contentCues

/-- The cues of a tree, whatever its root is. -/
def cues (node : Node) : List Cue :=
  match node.kind? with
  | some .document => node.documentCues
  | some .content => node.contentCues
  | some .score => node.scoreCues
  | some .instrument => node.instrumentCues
  | some .musicData => node.musicCues
  | _ => node.staffCues

/-- The kinds of element around the notes and rests. -/
def containers : List ElementKind :=
  [.document, .content, .score, .instrument, .musicData]

theorem cues_eq_staffCues
    {node : Node} {kind : ElementKind} (isKind : node.kind? = some kind)
    (other : kind ∉ containers) :
    node.cues = node.staffCues := by
  simp only [containers, List.mem_cons, List.not_mem_nil, or_false, not_or]
    at other
  rw [cues, isKind]
  split
  all_goals simp_all

end Node

/-! ## Performances -/

/-- Some cues are performed in order, and beside that the music is left as it is. -/
inductive Performs : List Cue → Analysis → Analysis → Prop where
  | done (state : Analysis) : Performs [] state state
  /-- Something goes on beside the music. -/
  | aside {cues : List Cue} {first middle last : Analysis}
      (aside : first.Aside first.draft.model.size middle)
      (later : Performs cues middle last) :
      Performs cues first last
  /-- What waits is given up. -/
  | flush {cues : List Cue} {first last : Analysis}
      (later : Performs cues (clearPending.run first).run.2 last) :
      Performs cues first last
  | start {cues : List Cue} {first last : Analysis}
      (later : Performs cues
        { first with context := first.context.startInstrument } last) :
      Performs (.instrument :: cues) first last
  | play {flavor : Flavor} {node : Node} {cues : List Cue}
      {first last : Analysis} (anchor : Option Handle)
      (later : Performs cues
        ((analyseNoteRest flavor node anchor).run first).run.2 last) :
      Performs (.play flavor node :: cues) first last

namespace Performs

variable {cues more : List Cue} {first middle last before after : Analysis}

theorem trans
    (earlier : Performs cues first middle) (later : Performs more middle last) :
    Performs (cues ++ more) first last := by
  induction earlier with
  | done state => exact later
  | aside aside _ induction => exact .aside aside (induction later)
  | flush _ induction => exact .flush (induction later)
  | start _ induction => exact .start (induction later)
  | play anchor _ induction => exact .play anchor (induction later)

theorem of_aside (aside : before.Aside before.draft.model.size after) :
    Performs [] before after :=
  .aside aside (.done after)

end Performs

namespace Analyser

variable {Value Result : Type} {cues more : List Cue} {anchor : Option Handle}

/-- A step that performs some cues, whatever the state before it. -/
def Performing (cues : List Cue) (action : Analyser Value) : Prop :=
  ∀ before, Ensures action before fun _ after => Performs cues before after

namespace Performing

theorem of_leaving
    {action : Analyser Value} (leaving : ∀ bound, LeavingAll bound action) :
    Performing [] action :=
  fun before => .of_aside (leaving _ before (Nat.le_refl _)).1

theorem of_quiet
    {action : Analyser Value} {property : Value → Prop}
    (quiet : Quiet action property) :
    Performing [] action :=
  .of_leaving fun _ => (Leaving.of_quiet quiet).all

theorem pure (value : Value) : Performing [] (Pure.pure value) :=
  fun before => .done before

theorem map
    {action : Analyser Result} (performing : Performing cues action)
    (change : Result → Value) :
    Performing cues (change <$> action) :=
  performing

theorem discard
    {action : Analyser Value} (performing : Performing cues action) :
    Performing cues (discard action) :=
  performing.map _

theorem bind
    {action : Analyser Result} {next : Result → Analyser Value}
    (first : Performing cues action)
    (second : ∀ result, Performing more (next result)) :
    Performing (cues ++ more) (action >>= next) := by
  intro before
  apply (first before).bind
  intro result middle performs
  apply (second result middle).mono
  intro value after later
  exact performs.trans later

/-- Nothing is performed at first. -/
theorem after
    {action : Analyser Result} {next : Result → Analyser Value}
    (first : Performing [] action)
    (second : ∀ result, Performing cues (next result)) :
    Performing cues (action >>= next) :=
  first.bind second

/-- Nothing is performed afterwards. -/
theorem before
    {action : Analyser Result} {next : Result → Analyser Value}
    (first : Performing cues action)
    (second : ∀ result, Performing [] (next result)) :
    Performing cues (action >>= next) :=
  List.append_nil cues ▸ first.bind second

/-- What is taken from some children can be told in advance. -/
theorem mandatory
    {parent : Node} {kind : ElementKind} {children : List Node}
    {next : Option Node × List Node → Analyser Value}
    (second : Performing cues (next (take? kind children))) :
    Performing cues (mandatory parent kind children >>= next) := by
  have quiet := quiet_mandatory parent kind children
  have yields := yields_mandatory parent kind children
  intro before
  have taken : Ensures (Analyser.mandatory parent kind children) before
      fun result middle => before.Agrees middle ∧ result = take? kind children :=
    ⟨(quiet before).1, yields before⟩
  apply taken.bind
  rintro _ middle ⟨agrees, rfl⟩
  exact .aside (.of_agrees agrees) (second middle)

/-- The children of an element are performed one after the other. -/
theorem analyseEach
    {analyserOf : ElementKind → Option (Node → Analyser Unit)}
    {cuesOf : Node → List Cue}
    (each : ∀ child analyser, child.kind?.bind analyserOf = some analyser →
      Performing (cuesOf child) (analyser child))
    (others : ∀ child, child.kind?.bind analyserOf = none → cuesOf child = [])
    (children : List Node) :
    Performing (children.flatMap cuesOf) (analyseEach analyserOf children) := by
  induction children with
  | nil => exact .pure ()
  | cons child rest induction =>
      rw [Analyser.analyseEach, List.flatMap_cons]
      split
      · rename_i analyser isAnalyser
        exact (each child analyser isAnalyser).bind fun _ => induction
      · rename_i unknown
        rw [others child unknown]
        exact .bind (.of_quiet (reads_reportMisplaced child)) fun _ => induction

/-- A child that may be missing. -/
theorem optional
    {analyser : Node → Analyser Unit} {cuesOf : Node → List Cue}
    (each : ∀ child, Performing (cuesOf child) (analyser child))
    (child : Option Node) :
    Performing (child.toList.flatMap cuesOf) (analyseOptional analyser child) := by
  cases child with
  | none => exact .pure ()
  | some child =>
      rw [Option.toList_some, List.flatMap_singleton]
      exact each child

end Performing

/-! ## Notes, rests and chords -/

theorem performing_analyseNoteRest (flavor : Flavor) (node : Node) :
    Performing [.play flavor node] (analyseNoteRest flavor node anchor) :=
  fun _ => .play anchor (.done _)

theorem performing_chordNotes (children : List Node) :
    Performing ((children.filter fun child => child.is .note).map
      (.play .chordNote)) (chordNotes anchor children) := by
  induction children with
  | nil => exact .pure ()
  | cons child rest induction =>
      rw [chordNotes]
      split
      · rename_i isNote
        rw [List.filter_cons, if_pos isNote, List.map_cons]
        exact (performing_analyseNoteRest .chordNote child).bind
          fun _ => induction
      · rename_i noNote
        rw [List.filter_cons, if_neg noNote]
        exact .after (.of_quiet (reads_reportMisplaced child)) fun _ => induction

theorem performing_chordChildren (children : List Node) :
    Performing (Node.chordCues children) (chordChildren anchor children) := by
  induction children with
  | nil => exact .pure none
  | cons child rest induction =>
      rw [chordChildren]
      split
      · rename_i isNote
        rw [Node.chordCues, List.filter_cons, if_pos isNote]
        refine (performing_analyseNoteRest .note child).bind fun base => ?_
        exact (performing_chordNotes rest).before fun _ => .pure (some base)
      · rename_i noNote
        rw [Node.chordCues, List.filter_cons, if_neg noNote]
        exact .after (.of_quiet (reads_reportMisplaced child)) fun _ => induction

theorem performing_analyseChord (node : Node) :
    Performing (Node.chordCues node.children) (analyseChord node anchor) := by
  rw [analyseChord]
  refine (performing_chordChildren node.children).before fun base => ?_
  exact .after (.of_quiet reads_model) fun _ => .pure _

/-- Whatever stands in music data performs its cues. -/
theorem performing_staffObject
    {kind : ElementKind} {analyser : Node → Analyser (Option Handle)}
    (known : staffObjectAnalyser? anchor kind = some analyser) {node : Node}
    (isKind : node.kind? = some kind) :
    Performing node.staffCues (analyser node) := by
  have placed : ∀ {action : Analyser Handle},
      (∀ bound, LeavingAll bound action) → Performing [] (some <$> action) :=
    fun leaving => (Performing.of_leaving leaving).map some
  rw [Node.staffCues, isKind]
  cases kind <;> cases known
  case note => exact (performing_analyseNoteRest .note node).map some
  case chordNote => exact (performing_analyseNoteRest .chordNote node).map some
  case rest => exact (performing_analyseNoteRest .rest node).map some
  case chord => exact performing_analyseChord node
  case clef => exact placed fun _ => leaving_analyseClef node
  case key => exact placed fun _ => leaving_analyseKey node
  case time => exact placed fun _ => leaving_analyseTime node
  case barline => exact placed fun _ => leaving_analyseBarline node
  case goBack => exact .of_leaving fun _ => leaving_analyseShift false node
  case goForward => exact .of_leaving fun _ => leaving_analyseShift true node
  case spacer => exact .of_leaving fun _ => leaving_analyseSpacer node
  case newSystem => exact placed fun _ => leaving_analyseNewSystem node
  case metronome => exact placed fun _ => leaving_analyseMetronome node
  case text => exact .of_leaving fun _ => leaving_analyseText node

/-- What has no place in music data has no cues. -/
theorem staffCues_eq_nil
    (anchor : Option Handle) {node : Node}
    (unknown : ∀ kind, node.kind? = some kind →
      staffObjectAnalyser? anchor kind = none) :
    node.staffCues = [] := by
  rw [Node.staffCues]
  split
  · cases unknown _ ‹_›
  · cases unknown _ ‹_›
  · cases unknown _ ‹_›
  · cases unknown _ ‹_›
  · rfl

/-! ## Instruments -/

theorem performing_analyseMusicData (node : Node) :
    Performing node.musicCues (analyseMusicData node anchor) := by
  have added : Performing [] (addObject node anchor .musicData) :=
    .of_leaving fun _ => (leaving_addObject node anchor ⟨rfl, rfl⟩).all
  rw [analyseMusicData]
  refine added.after fun handle => ?_
  refine .before (.analyseEach (fun child analyser known => ?_)
    (fun child unknown => ?_) node.children) fun _ => .pure handle
  · obtain ⟨kind, isKind, mapped⟩ := Option.bind_eq_some_iff.mp known
    obtain ⟨given, isKnown, rfl⟩ := Option.map_eq_some_iff.mp mapped
    exact (performing_staffObject isKnown isKind).discard
  · refine staffCues_eq_nil (some handle) fun kind isKind => ?_
    rw [isKind, Option.bind_some, Option.map_eq_none_iff] at unknown
    exact unknown

theorem yields_optionalText
    (kind : ElementKind) (handle : Handle) (children : List Node) :
    Yields (optionalText kind handle children) fun result =>
      result.2 = (take? kind children).2 := by
  rw [optionalText]
  rcases take? kind children with ⟨_ | node, rest⟩
  · exact .pure rfl
  · exact .after fun _ => .after fun _ => .pure rfl

theorem yields_instrumentHead (handle : Handle) (node : Node) :
    Yields (instrumentHead handle node.children) fun rest =>
      rest = node.afterStaves := by
  rw [instrumentHead, Node.afterStaves]
  refine (yields_optionalText .instrumentName handle node.children).bind ?_
  rintro ⟨name, rest⟩ rfl
  refine (yields_optionalText .abbreviation handle _).bind ?_
  rintro ⟨abbreviation, rest⟩ rfl
  exact .after fun _ => .after fun _ => .after fun _ => .pure rfl

theorem performing_analyseInstrument (node : Node) :
    Performing node.instrumentCues (analyseInstrument node anchor) := by
  rw [analyseInstrument, Node.instrumentCues]
  have cleared : Performing [] clearPending := fun before => .flush (.done _)
  have started : Performing [.instrument]
      (modifyContext Context.startInstrument) := fun before => .start (.done _)
  refine cleared.after fun _ => started.bind fun _ first => ?_
  apply Ensures.bind (aside_addObject node anchor ⟨rfl, rfl⟩ first)
  rintro handle second ⟨toSecond, isInstrument⟩
  have head : Ensures (instrumentHead handle node.children) second
      fun rest third => second.Aside second.draft.model.size third ∧
        rest = node.afterStaves :=
    ⟨(aside_instrumentHead node.children isInstrument (Nat.le_refl _)).1,
      yields_instrumentHead handle node second⟩
  apply head.bind
  rintro _ third ⟨toThird, rfl⟩
  -- The music data is the only child in which anything is performed.
  have rest : Performing
      ((take? .musicData node.afterStaves).1.toList.flatMap Node.musicCues)
      (mandatory node .musicData node.afterStaves >>= fun taken => do
        analyseOptional (fun music =>
          Functor.discard (analyseMusicData music (some handle))) taken.1
        reportExtra node taken.2
        return handle) := by
    refine .mandatory (.before (.optional (fun music => ?_) _) fun _ => ?_)
    · exact (performing_analyseMusicData music).discard
    · exact .after (.of_quiet (reads_reportExtra _ _)) fun _ => .pure handle
  apply Ensures.mono (rest third)
  intro _ last performs
  exact .aside toSecond (.aside toThird performs)

/-! ## Scores -/

theorem yields_leadingTitles (handle : Handle) (children : List Node) :
    Yields (leadingTitles handle children) fun rest =>
      rest = children.dropWhile fun child => child.is .title := by
  induction children with
  | nil => exact .pure rfl
  | cons child rest induction =>
      rw [leadingTitles, List.dropWhile_cons]
      split
      · exact .after fun _ => induction
      · exact .pure rfl

theorem yields_leadingOptions (handle : Handle) (children : List Node) :
    Yields (leadingOptions handle children) fun rest =>
      rest = children.dropWhile fun child => child.is .option := by
  induction children with
  | nil => exact .pure rfl
  | cons child rest induction =>
      rw [leadingOptions, List.dropWhile_cons]
      split
      · exact .after fun _ => induction
      · exact .pure rfl

theorem yields_scoreHead (node : Node) (handle : Handle) :
    Yields (scoreHead node handle) fun rest => rest = node.afterOptions := by
  rw [scoreHead, Node.afterOptions]
  refine (yields_mandatory node .version node.children).bind ?_
  rintro ⟨version, rest⟩ taken
  rw [← taken]
  refine .after fun _ => .after fun _ => .after fun _ => ?_
  refine (yields_leadingTitles handle _).bind ?_
  rintro _ rfl
  exact .after fun _ => yields_leadingOptions handle _

theorem performing_analyseScore (node : Node) :
    Performing node.scoreCues (analyseScore node anchor) := by
  rw [analyseScore, Node.scoreCues]
  refine .after (.of_quiet (reads_modifyContext fun _ => rfl)) fun _ first => ?_
  apply Ensures.bind (aside_addObject node anchor ⟨rfl, rfl⟩ first)
  rintro handle second ⟨toSecond, isScore⟩
  have head : Ensures (scoreHead node handle) second
      fun rest third => second.Aside second.draft.model.size third ∧
        rest = node.afterOptions :=
    ⟨(aside_scoreHead node isScore (Nat.le_refl _)).1,
      yields_scoreHead node handle second⟩
  apply head.bind
  rintro _ third ⟨toThird, rfl⟩
  have rest : Performing (node.afterOptions.flatMap fun child =>
      if child.is .instrument then child.instrumentCues else []) (do
        requireInstrument node node.afterOptions
        analyseEach (instrumentAnalyser? handle) node.afterOptions
        return handle) := by
    refine .after (.of_quiet (reads_requireInstrument _ _)) fun _ => ?_
    refine .before (.analyseEach (fun child analyser known => ?_)
      (fun child unknown => ?_) node.afterOptions) fun _ => .pure handle
    · obtain ⟨kind, isKind, isKnown⟩ := Option.bind_eq_some_iff.mp known
      unfold instrumentAnalyser? at isKnown
      split at isKnown <;> cases isKnown
      rename_i isInstrument
      have isOne : child.is .instrument :=
        beq_iff_eq.mpr (isKind.trans (congrArg some isInstrument))
      rw [if_pos isOne]
      exact (performing_analyseInstrument child).discard
    · refine if_neg fun isInstrument => ?_
      rw [beq_iff_eq.mp isInstrument] at unknown
      cases unknown
  apply Ensures.mono (rest third)
  intro _ last performs
  exact .aside toSecond (.aside toThird performs)

/-! ## Documents -/

theorem performing_analyseContent (node : Node) :
    Performing node.contentCues (analyseContent node anchor) := by
  have added : Performing [] (addObject node anchor .body) :=
    .of_leaving fun _ => (leaving_addObject node anchor ⟨rfl, rfl⟩).all
  rw [analyseContent, Node.contentCues]
  refine added.after fun handle => ?_
  refine .before (.analyseEach (fun child analyser known => ?_)
    (fun child unknown => ?_) node.children) fun _ => .pure handle
  · obtain ⟨kind, isKind, isKnown⟩ := Option.bind_eq_some_iff.mp known
    rw [Node.is, isKind]
    unfold blockAnalyser? at isKnown
    split at isKnown <;> cases isKnown
    · exact (performing_analyseScore child).discard
    · exact .of_leaving fun _ => (leaving_analyseParagraph child).discard
    · exact .of_leaving fun _ => (leaving_analyseHeading child).discard
    · exact .of_leaving fun _ => (leaving_analyseTextItem child).discard
  · refine if_neg fun isScore => ?_
    rw [beq_iff_eq.mp isScore] at unknown
    cases unknown

theorem performing_analyseDocument (node : Node) :
    Performing node.documentCues (analyseDocument node anchor) := by
  rw [analyseDocument, Node.documentCues]
  refine .mandatory ?_
  rcases take? .version node.children with ⟨_ | version, rest⟩
  · exact .pure none
  · have added : Performing [] (addObject node anchor (.document
        (firstText version) ((take? .language rest).1.map firstText))) :=
      .of_leaving fun _ => (leaving_addObject node anchor ⟨rfl, rfl⟩).all
    refine added.after fun handle => .mandatory ?_
    refine .before (.optional (fun content => ?_) _) fun _ => ?_
    · exact (performing_analyseContent content).discard
    · exact .after (.of_quiet (reads_reportExtra _ _)) fun _ => .pure _

/-! ## Whole trees -/

theorem staffObjectAnalyser?_of_articulation :
    ∀ kind ∈ ElementKind.articulations,
      staffObjectAnalyser? anchor kind = none := by
  simp [ElementKind.articulations, staffObjectAnalyser?]

theorem isSome_analyserOf?_of_container (anchor : Option Handle) :
    ∀ kind ∈ Node.containers, (analyserOf? kind anchor).isSome := by
  simp [Node.containers, analyserOf?]

/-- An element of any kind performs its cues. -/
theorem performing_analyserOf
    {kind : ElementKind} {analyser : Node → Analyser Analysed}
    (known : analyserOf? kind anchor = some analyser) {node : Node}
    (isKind : node.kind? = some kind) :
    Performing node.cues (analyser node) := by
  have silent : ∀ {Value : Type} {action : Analyser Value}
      (wrap : Value → Analysed), (∀ bound, LeavingAll bound action) →
        Performing [] (wrap <$> action) :=
    fun wrap leaving => (Performing.of_leaving leaving).map wrap
  have read : ∀ {Value : Type} {action : Analyser Value}
      {property : Value → Prop} (wrap : Value → Analysed),
        Quiet action property → Performing [] (wrap <$> action) :=
    fun wrap quiet => (Performing.of_quiet quiet).map wrap
  have nothing : ∀ {action : Analyser Unit}, Reads action →
      Performing [] (do
        action
        return Analysed.nothing) :=
    fun reads => .after (.of_quiet reads) fun _ => .pure _
  have others : kind ∉ Node.containers → node.cues = node.staffCues :=
    fun other => Node.cues_eq_staffCues isKind other
  have none : kind ∉ Node.containers →
      staffObjectAnalyser? anchor kind = none → node.cues = [] := by
    intro other unknown
    rw [others other]
    refine staffCues_eq_nil anchor fun given isGiven => ?_
    cases isKind.symm.trans isGiven
    exact unknown
  unfold analyserOf? at known
  split at known
  case h_27 =>
    have other : kind ∉ Node.containers := by
      intro listed
      simp only [Node.containers, List.mem_cons, List.not_mem_nil, or_false]
        at listed
      rcases listed with rfl | rfl | rfl | rfl | rfl <;> contradiction
    split at known
    · rename_i isArticulation
      cases known
      rw [none other]
      · exact silent _ fun _ => leaving_analyseArticulation kind node
      · exact staffObjectAnalyser?_of_articulation kind
          (List.contains_iff_mem.mp isArticulation)
    · obtain ⟨given, isGiven, rfl⟩ := Option.map_eq_some_iff.mp known
      rw [others other]
      exact (performing_staffObject isGiven isKind).map _
  all_goals cases known
  case h_1 =>
    rw [Node.cues, isKind]
    exact (performing_analyseDocument node).map _
  case h_4 =>
    rw [Node.cues, isKind]
    exact (performing_analyseContent node).map _
  case h_8 =>
    rw [Node.cues, isKind]
    exact (performing_analyseScore node).map _
  case h_12 =>
    rw [Node.cues, isKind]
    exact (performing_analyseInstrument node).map _
  case h_16 =>
    rw [Node.cues, isKind]
    exact (performing_analyseMusicData node).map _
  all_goals rw [none (by decide) rfl]
  case h_2 => exact nothing (reads_analyseVersion node)
  case h_3 => exact .pure _
  case h_5 => exact silent _ fun _ => leaving_analyseParagraph node
  case h_6 => exact silent _ fun _ => leaving_analyseHeading node
  case h_7 => exact silent _ fun _ => leaving_analyseTextItem node
  case h_9 => exact silent _ fun _ => leaving_analyseTitle node
  case h_10 => exact silent _ fun _ => leaving_analyseOption node
  case h_11 => exact .pure _
  case h_13 => exact silent _ fun _ => leaving_analyseText node
  case h_14 => exact silent _ fun _ => leaving_analyseText node
  case h_15 => exact nothing (reads_analyseStaves node)
  case h_17 => exact read _ (quiet_analyseTie node anchor)
  case h_18 => exact read _ (quiet_analyseSlur node anchor)
  case h_19 => exact read _ (quiet_analyseBeam node anchor)
  case h_20 => exact read _ (quiet_analyseTuplet node anchor)
  case h_21 => exact read _ (reads_analyseTimeModification node)
  case h_22 => exact read _ (reads_analyseColor node)
  case h_23 => exact read _ (reads_analyseBezier node)
  case h_24 => exact silent _ fun _ => leaving_analyseFermata node
  case h_25 => exact silent _ fun _ => leaving_analyseDynamics node
  case h_26 => exact silent _ fun _ => leaving_analyseLyric node

/-- What cannot be analysed has no cues. -/
theorem cues_eq_nil
    {node : Node}
    (unknown : (node.kind?.bind fun kind => analyserOf? kind anchor) = none) :
    node.cues = [] := by
  rw [Option.bind_eq_none_iff] at unknown
  cases isKind : node.kind? with
  | none => rw [Node.cues, Node.staffCues, isKind]
  | some kind =>
      have noAnalyser := unknown kind isKind
      have other : kind ∉ Node.containers := by
        intro listed
        have known := isSome_analyserOf?_of_container anchor kind listed
        rw [noAnalyser] at known
        cases known
      rw [Node.cues_eq_staffCues isKind other]
      refine staffCues_eq_nil anchor fun given isGiven => ?_
      cases isKind.symm.trans isGiven
      unfold analyserOf? at noAnalyser
      split at noAnalyser
      case h_27 =>
        split at noAnalyser
        · cases noAnalyser
        · exact Option.map_eq_none_iff.mp noAnalyser
      all_goals cases noAnalyser

theorem performing_analyseNode (node : Node) :
    Performing node.cues (analyseNode node anchor) := by
  rw [analyseNode]
  split
  · rename_i analyser isAnalyser
    obtain ⟨kind, isKind, known⟩ := Option.bind_eq_some_iff.mp isAnalyser
    exact performing_analyserOf known isKind
  · rename_i unknown
    rw [cues_eq_nil unknown]
    exact .after (.of_quiet (reads_report _ (by simp))) fun _ => .pure _

theorem performing_analyseRoot (root : Node) :
    Performing root.cues (analyseRoot root) := by
  have cleared : Performing [] clearPending := fun before => .flush (.done _)
  rw [analyseRoot]
  refine (performing_analyseNode root).before fun result => ?_
  cases result with
  | object handle =>
      have isRoot : Performing [] (modifyModel fun model =>
          model.setRoot handle) := fun before =>
        .of_aside ⟨⟨.setRoot _ _ handle, rfl⟩, rfl, rfl, .refl before.draft⟩
      exact isRoot.after fun _ => cleared
  | _ => exact cleared

end Analyser

/-- Every analysis performs the cues of its tree. -/
theorem performs_analyse (root : Node) :
    Performs root.cues {} ((analyseRoot root).run {}).run.2 :=
  performing_analyseRoot root {}

/-! ## Where the notes and rests stand -/

namespace Cue

/-- The element of a note or rest that is played. -/
def node? : Cue → Option Node
  | instrument => none
  | play _ node => some node

def nodes (cues : List Cue) : List Node :=
  cues.filterMap node?

end Cue

namespace Node

theorem sublist_nodesOf (children : List Node) :
    children.Sublist (nodesOf children) := by
  induction children with
  | nil => exact List.Sublist.refl []
  | cons first rest induction =>
      rw [nodesOf, List.flatMap_cons]
      exact first.singleton_sublist_nodes.append induction

theorem nodesOf_children_sublist (node : Node) :
    (nodesOf node.children).Sublist node.nodes := by
  rw [nodes_eq]
  exact List.sublist_cons_self ..

mutual

/-- What stands below a node of a tree stands in the tree. -/
theorem children_subset_nodes
    (root : Node) {node : Node} (listed : node ∈ root.nodes) :
    node.children ⊆ root.nodes := by
  match root with
  | .leaf kind text location =>
      rw [List.mem_singleton.mp listed]
      exact List.nil_subset _
  | .element name id children location =>
      rw [nodes_eq] at listed ⊢
      rcases List.mem_cons.mp listed with rfl | isBelow
      · exact List.subset_cons_of_subset _ (sublist_nodesOf _).subset
      · exact List.subset_cons_of_subset _
          (children_subset_nodesOf children isBelow)

theorem children_subset_nodesOf
    (trees : List Node) {node : Node} (listed : node ∈ nodesOf trees) :
    node.children ⊆ nodesOf trees := by
  match trees with
  | [] => cases listed
  | first :: rest =>
      rw [nodesOf, List.flatMap_cons] at listed ⊢
      rcases List.mem_append.mp listed with inFirst | inRest
      · exact List.subset_append_of_subset_left _
          (children_subset_nodes first inFirst)
      · exact List.subset_append_of_subset_right _
          (children_subset_nodesOf rest inRest)

end

/-- The first of some children, if it is taken, is one of them. -/
theorem nodesOf_taken_sublist (kind : ElementKind) (children : List Node) :
    (nodesOf (take? kind children).1.toList).Sublist (nodesOf children) := by
  rw [(takes_take? kind children).nodesOf]
  exact List.sublist_append_left _ _

/-- What is played of every child is played of all of them. -/
theorem nodes_flatMap
    {cuesOf : Node → List Cue}
    (each : ∀ child, (Cue.nodes (cuesOf child)).Sublist child.nodes)
    (children : List Node) :
    (Cue.nodes (children.flatMap cuesOf)).Sublist (nodesOf children) := by
  induction children with
  | nil => exact List.Sublist.refl []
  | cons first rest induction =>
      rw [nodesOf, List.flatMap_cons, List.flatMap_cons, Cue.nodes,
        List.filterMap_append]
      exact (each first).append induction

theorem nodes_ite
    {cues : List Cue} {node : Node} (condition : Bool)
    (part : (Cue.nodes cues).Sublist node.nodes) :
    (Cue.nodes (if condition then cues else [])).Sublist node.nodes := by
  cases condition
  · exact List.nil_sublist _
  · exact part

theorem nodes_chordCues (children : List Node) :
    (Cue.nodes (chordCues children)).Sublist (nodesOf children) := by
  have notes : Cue.nodes (chordCues children) =
      children.filter fun child => child.is .note := by
    rw [chordCues]
    split
    · rename_i silent
      exact silent.symm
    · rename_i first others notes
      have isFirst : (Cue.play .note first).node? = some first := rfl
      rw [notes, Cue.nodes, List.filterMap_cons_some isFirst,
        List.filterMap_map]
      exact congrArg (first :: ·) List.filterMap_some
  rw [notes]
  exact List.filter_sublist.trans (sublist_nodesOf children)

theorem nodes_staffCues (node : Node) :
    (Cue.nodes node.staffCues).Sublist node.nodes := by
  rw [staffCues]
  split
  · exact node.singleton_sublist_nodes
  · exact node.singleton_sublist_nodes
  · exact node.singleton_sublist_nodes
  · exact (nodes_chordCues node.children).trans node.nodesOf_children_sublist
  · exact List.nil_sublist _

theorem nodes_musicCues (node : Node) :
    (Cue.nodes node.musicCues).Sublist node.nodes :=
  (nodes_flatMap nodes_staffCues node.children).trans
    node.nodesOf_children_sublist

theorem nodes_instrumentCues (node : Node) :
    (Cue.nodes node.instrumentCues).Sublist node.nodes := by
  have suffix : node.afterStaves <:+ node.children :=
    (takes_take? .staves _).suffix.trans
      ((takes_take? .abbreviation _).suffix.trans
        (takes_take? .instrumentName node.children).suffix)
  exact (nodes_flatMap nodes_musicCues _).trans
    ((nodesOf_taken_sublist .musicData _).trans
      ((nodesOf_sublist suffix).trans node.nodesOf_children_sublist))

theorem nodes_scoreCues (node : Node) :
    (Cue.nodes node.scoreCues).Sublist node.nodes := by
  have suffix : node.afterOptions <:+ node.children :=
    (List.dropWhile_suffix _).trans ((takes_take? .cursor _).suffix.trans
      ((List.dropWhile_suffix _).trans ((takes_take? .language _).suffix.trans
        (takes_take? .version node.children).suffix)))
  exact (nodes_flatMap (fun child => nodes_ite _ child.nodes_instrumentCues)
    _).trans ((nodesOf_sublist suffix).trans node.nodesOf_children_sublist)

theorem nodes_contentCues (node : Node) :
    (Cue.nodes node.contentCues).Sublist node.nodes :=
  (nodes_flatMap (fun child => nodes_ite _ child.nodes_scoreCues)
    node.children).trans node.nodesOf_children_sublist

theorem nodes_documentCues (node : Node) :
    (Cue.nodes node.documentCues).Sublist node.nodes := by
  have takes := takes_take? .version node.children
  rw [documentCues]
  split
  · exact List.nil_sublist _
  · rename_i version rest taken
    have suffix : rest <:+ node.children := by
      have whole := takes.suffix
      rwa [taken] at whole
    exact (nodes_flatMap nodes_contentCues _).trans
      ((nodesOf_taken_sublist .content _).trans ((nodesOf_sublist
        ((takes_take? .language rest).suffix.trans suffix)).trans
          node.nodesOf_children_sublist))

/-- What is played stands in the tree, in the order of the tree. -/
theorem nodes_cues (node : Node) :
    (Cue.nodes node.cues).Sublist node.nodes := by
  rw [cues]
  split
  · exact node.nodes_documentCues
  · exact node.nodes_contentCues
  · exact node.nodes_scoreCues
  · exact node.nodes_instrumentCues
  · exact node.nodes_musicCues
  · exact node.nodes_staffCues

end Node

end LdpScore
