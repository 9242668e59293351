import LdpScore.Proofs.Analysis.Performing
import LdpScore.Proofs.Analysis.Tupling

/-!
# The counts of tuplets

A tuplet is started by an element among the options of a note or rest, or by a
legacy label.  Both give its counts, and both may fail to: then nothing is handed
over, and a report tells of the start.
-/

namespace LdpScore

open Analyser

/-! ## The starts that are written -/

namespace Cue

/-- The options of a note or rest that is played. -/
def options : Cue → List Node
  | instrument => []
  | play flavor node => Written.options ⟨0, flavor, node⟩

/-- The label of a legacy tuplet of a note or rest; of several the last one counts. -/
def tupletLabel? : Cue → Option Node
  | instrument => none
  | play flavor node => Written.tupletLabel? ⟨0, flavor, node⟩

/-- A note or rest has the start of a tuplet, with the counts that it gives. -/
inductive StartsTuplet (cue : Cue) : Node → Option (Nat × Nat) → Prop where
  | option {node : Node} (listed : node ∈ cue.options)
      (isTuplet : node.is .tuplet) (starts : node.startsTuplet) :
      StartsTuplet cue node node.startCounts?
  | label {label : Node} (isLabel : cue.tupletLabel? = some label)
      (noStop : label.isTupletStop = false) :
      StartsTuplet cue label label.labelCounts?

end Cue

/-- A normal count of zero comes from a label, and there is no usual one. -/
theorem Cue.StartsTuplet.no_normal
    {cue : Cue} {start : Node} {actual : Nat}
    (starts : cue.StartsTuplet start (some (actual, 0))) :
    start.is .label ∧ Tuplet.defaultNormal? actual = none := by
  generalize isCounts : some (actual, 0) = counts at starts
  cases starts with
  | option _ _ =>
      have positive := (countsOf?_facts isCounts.symm).2.2
      exact absurd positive (Nat.not_succ_le_zero 0)
  | label isLabel =>
      refine ⟨?_, labelCounts?_no_normal isCounts.symm⟩
      cases cue with
      | instrument => cases isLabel
      | play => exact (Written.mem_of_tupletLabel? isLabel).2.1

/-- The problems of a start whose counts cannot be found. -/
def Node.countProblems (start : Node) : List Problem :=
  [.missingActualNotes, .missingNormalNotes, .invalidAbbreviation start.text]

namespace Draft

/-- A report tells that the counts of a start cannot be found. -/
def TellsOf (draft : Draft) (start : Node) : Prop :=
  ∃ problem ∈ start.countProblems,
    (⟨problem, start.location⟩ : Diagnostic) ∈ draft.diagnostics

variable {before after draft : Draft} {start : Node}

theorem TellsOf.keep (tells : before.TellsOf start)
    (keeps : before.KeepsReports after) :
    after.TellsOf start := by
  obtain ⟨problem, listed, reported⟩ := tells
  exact ⟨problem, listed, keeps.mem reported⟩

theorem tellsOf_report
    {problem : Problem} (listed : problem ∈ start.countProblems) :
    (draft.report start.location problem).TellsOf start :=
  ⟨problem, listed, draft.mem_report start.location problem⟩

/-- Reports tell of all starts among some options that give no counts. -/
def TellsOfAll (draft : Draft) (options : List Node) : Prop :=
  ∀ start ∈ options, start.is .tuplet → start.startsTuplet →
    start.startCounts? = none → draft.TellsOf start

theorem TellsOfAll.keep
    {options : List Node} (tells : before.TellsOfAll options)
    (keeps : before.KeepsReports after) :
    after.TellsOfAll options :=
  fun start listed isTuplet starts noCounts =>
    (tells start listed isTuplet starts noCounts).keep keeps

theorem tellsOfAll_nil (draft : Draft) : draft.TellsOfAll [] :=
  fun _ listed => absurd listed List.not_mem_nil

/-- A list of one option is told of when that option is. -/
theorem tellsOfAll_singleton
    {draft : Draft} {option : Node}
    (tells : option.is .tuplet → option.startsTuplet →
      option.startCounts? = none → draft.TellsOf option) :
    draft.TellsOfAll [option] := by
  intro start listed
  rw [List.mem_singleton.mp listed]
  exact tells

theorem TellsOfAll.cons
    {draft : Draft} {option : Node} {options : List Node}
    (first : draft.TellsOfAll [option]) (rest : draft.TellsOfAll options) :
    draft.TellsOfAll (option :: options) := by
  intro start listed
  rcases List.mem_cons.mp listed with rfl | isLater
  · exact first start (List.mem_singleton_self start)
  · exact rest start isLater

end Draft

namespace Analyser

variable {Value : Type} {flavor : Flavor} {handle : Handle} {before : Analysis}

/-! ## Elements of tuplets -/

/-- What is read for sure is known of every state. -/
theorem Yields.ensures
    {action : Analyser Value} {property : Value → Prop}
    (yields : Yields action property) (before : Analysis) :
    Ensures action before fun value _ => property value :=
  yields before

/-- Counts that cannot be found are reported. -/
theorem tells_tupletCounts (node : Node) (children : List Node) :
    Ensures (tupletCounts node children) before fun _ after =>
      Node.countsOf? children = none → after.draft.TellsOf node := by
  have counted : ∀ (actual normal : Nat) (rest : List Node) (state : Analysis),
      Ensures (if normal = 0 then do
          report node.location .missingNormalNotes
          return ((none : Option (Nat × Nat)), rest)
        else return (some (actual, normal), rest)) state fun _ after =>
          (if normal = 0 then none else some (actual, normal)) = none →
            after.draft.TellsOf node := by
    intro actual normal rest state
    split
    · exact fun _ => Draft.tellsOf_report (by simp [Node.countProblems])
    · exact nofun
  rw [tupletCounts, Node.countsOf?]
  rcases take? .number children with ⟨_ | actualNode, rest⟩
  · exact fun _ => Draft.tellsOf_report (by simp [Node.countProblems])
  · apply ((yields_countValue actualNode 0).ensures before).bind
    rintro actual first rfl
    dsimp only
    rw [Node.normalCount]
    rcases take? .number rest with ⟨_ | normalNode, rest⟩
    · simp only [pure_bind]
      exact counted _ _ _ first
    · simp only [pure_bind]
      apply ((yields_countValue normalNode 0).ensures first).bind
      rintro normal second rfl
      exact counted _ _ _ second

/-- A start whose counts cannot be found is reported. -/
theorem tells_analyseTuplet (node : Node) (anchor : Option Handle) :
    Ensures (analyseTuplet node anchor) before fun _ after =>
      node.startsTuplet → node.startCounts? = none →
        after.draft.TellsOf node := by
  rw [analyseTuplet]
  apply Ensures.readContext
  apply ((yields_tupletNumber node).ensures before).bind
  rintro ⟨number, rest⟩ first rfl
  dsimp only
  split
  · have counted : Ensures (tupletCounts node node.afterNumber.tail) first
        fun result after => result.1 = node.startCounts? ∧
          (node.startCounts? = none → after.draft.TellsOf node) :=
      ⟨yields_tupletCounts node _ first, tells_tupletCounts node _⟩
    apply counted.bind
    rintro ⟨_ | ⟨actual, normal⟩, rest⟩ second ⟨counts, tells⟩
    · exact fun _ => tells
    · intro _ noCounts
      rw [noCounts] at counts
      cases counts
  · rename_i isStop
    intro starts
    rw [Node.startsTuplet, isStop] at starts
    cases starts
  · rename_i noStart _
    intro starts
    exact absurd (beq_iff_eq.mp starts) noStart

/-! ## Notes and rests -/

theorem Leaving.keepsReports
    {action : Analyser Value} (leaving : LeavingAll 0 action)
    (before : Analysis) :
    Ensures action before fun _ after =>
      before.draft.KeepsReports after.draft :=
  (leaving before (Nat.zero_le _)).1.reports

theorem tells_noteRestOptions
    (decorations : Decorations) (children : List Node) :
    Ensures (noteRestOptions handle decorations children) before fun _ after =>
      before.draft.KeepsReports after.draft ∧
        after.draft.TellsOfAll (children.takeWhile Node.isOption) := by
  induction children generalizing decorations before with
  | nil => exact ⟨.refl before.draft, before.draft.tellsOfAll_nil⟩
  | cons child rest induction =>
      -- An option keeps all reports, and if it is the start of a tuplet, it may
      -- be told of; after that the others follow.
      have later : ∀ {Result : Type} {action : Analyser Result}
          (changed : Result → Decorations), child.isOption →
          Ensures action before (fun _ middle =>
            before.draft.KeepsReports middle.draft ∧
              middle.draft.TellsOfAll [child]) →
          Ensures (action >>= fun result =>
            noteRestOptions handle (changed result) rest) before fun _ after =>
              before.draft.KeepsReports after.draft ∧
                after.draft.TellsOfAll
                  ((child :: rest).takeWhile Node.isOption) := by
        intro Result action changed isOption first
        apply first.bind
        rintro result middle ⟨reports, tells⟩
        apply Ensures.mono (induction (changed result))
        rintro _ after ⟨moreReports, tellsRest⟩
        refine ⟨reports.trans moreReports, ?_⟩
        rw [List.takeWhile_cons_of_pos isOption]
        exact (tells.keep moreReports).cons tellsRest
      have silent : ∀ {draft : Draft}, ¬ child.is .tuplet →
          draft.TellsOfAll [child] := by
        intro draft other
        exact Draft.tellsOfAll_singleton fun isTuplet => absurd isTuplet other
      rw [noteRestOptions]
      split
      · rename_i isKind
        refine later (fun point => { decorations with
          tuplet := point <|> decorations.tuplet })
            (Node.isOption_of isKind rfl) ⟨?_, ?_⟩
        · exact (quiet_analyseTuplet child (some handle) before).1.draft.reports
        · apply Draft.tellsOfAll_singleton
          intro _ starts noCounts
          exact tells_analyseTuplet child (some handle) starts noCounts
      · rename_i isKind
        refine later (fun modification => { decorations with
          timeModification := modification <|> decorations.timeModification })
            (Node.isOption_of isKind rfl) ⟨?_, silent (by simp [Node.is, isKind])⟩
        exact (reads_analyseTimeModification child before).1.draft.reports
      · rename_i isKind
        refine later (fun point => { decorations with
          beam := point <|> decorations.beam }) (Node.isOption_of isKind rfl)
            ⟨?_, silent (by simp [Node.is, isKind])⟩
        exact (quiet_analyseBeam child (some handle) before).1.draft.reports
      · rename_i isKind
        refine later (fun _ => decorations) (Node.isOption_of isKind rfl)
          ⟨?_, silent (by simp [Node.is, isKind])⟩
        exact Leaving.keepsReports
          (leaving_voiceProperty (Nat.zero_le handle) child) before
      · rename_i noTuplet noModification noBeam noVoice
        have noOption : ¬ child.isOption := by
          apply Node.not_isOption
          simpa [Node.optionKinds] using
            ⟨noTuplet, noModification, noBeam, noVoice⟩
        rw [List.takeWhile_cons_of_neg noOption]
        exact ⟨.refl before.draft, before.draft.tellsOfAll_nil⟩

/-- Reports tell of the starts among the options of a note or rest. -/
theorem tells_readOptions (note : Written) (decorations : Decorations) :
    Ensures (readOptions note.flavor note.handle decorations note.afterLabels)
      before fun _ after => after.draft.TellsOfAll note.options := by
  unfold readOptions
  split
  · rename_i isRest
    rw [Written.options, if_pos isRest]
    exact (tells_noteRestOptions decorations _).2
  · rename_i isNote
    rw [Written.options, if_neg isNote]
    apply ((yields_noteOptions note.handle decorations
      note.afterLabels).ensures before).bind
    rintro ⟨middle, left⟩ state reads
    obtain rfl := reads.rest
    exact (tells_noteRestOptions middle _).2

theorem tells_addNoteRest
    (flavor : Flavor) (node : Node) (anchor base : Option Handle) :
    Ensures (addNoteRest flavor node anchor base) before fun _ after =>
      after.draft.TellsOfAll (Cue.play flavor node).options := by
  rw [addNoteRest]
  apply ((yields_readPitch flavor node node.children).ensures before).bind
  rintro ⟨pitch, pitched⟩ first isPitched
  apply ((yields_readNoteValue node pitched).ensures first).bind
  rintro ⟨value, valued⟩ second isValued
  have added : Ensures (addObject node anchor (noteRestContent flavor value
      pitch)) second fun _ _ => True := trivial
  apply added.bind
  intro handle third _
  have labels := labels_of_read ⟨handle, flavor, node⟩ isPitched isValued
  apply ((yields_abbreviations flavor {} valued).ensures third).bind
  rintro ⟨decorations, rest⟩ fourth labelled
  obtain rfl : rest = Written.afterLabels ⟨handle, flavor, node⟩ :=
    labelled.rest.trans labels.2
  have voiced : Ensures (placeInVoice handle) fourth fun _ _ => True := trivial
  apply voiced.bind
  intro _ fifth _
  apply Ensures.bind (tells_readOptions ⟨handle, flavor, node⟩ decorations)
  rintro ⟨options, left⟩ sixth tells
  apply Ensures.bind (Leaving.keepsReports
    (leaving_placeInTime (Nat.zero_le handle) base left) sixth)
  intro shown seventh reports
  have attached : LeavingAll 0 (analyseEach (attachmentAnalyser? handle) shown) :=
    .analyseEach (fun _ _ node known => leaving_attachment known node) shown
  apply Ensures.bind (Leaving.keepsReports attached seventh)
  intro _ last moreReports
  exact tells.keep (reports.trans moreReports)

end Analyser

end LdpScore
