import LdpScore.Proofs.Analysis.Element

/-!
# The legacy beam of a note or rest

A label opens the legacy beam or closes it, and a note or rest without a label
belongs to the one that is open.  `Beaming` lists all that can come of this at the
turn of a note or rest, if no element of a numbered beam is among its options.
-/

namespace LdpScore

open Analyser

/-! ## Labels -/

namespace Node

/-- Whether a node is a label of a legacy beam. -/
def isLegacyBeam (node : Node) : Bool :=
  node.text.toList.head? == some 'g'

/-- A label, if it is one of a legacy beam. -/
def legacyBeam? (node : Node) : Option Node :=
  if node.isLegacyBeam then some node else none

variable {node : Node}

theorem legacyBeam?_of_head (isG : node.text.toList.head? = some 'g') :
    node.legacyBeam? = some node :=
  if_pos (beq_iff_eq.mpr isG)

theorem legacyBeam?_of_other (noG : node.text.toList.head? ≠ some 'g') :
    node.legacyBeam? = none :=
  if_neg fun isG => noG (beq_iff_eq.mp isG)

end Node

namespace Written

/-- The label of a legacy beam of a note or rest, if it has one: the last one. -/
def beamLabel? (note : Written) : Option Node :=
  lastGiven? .label Node.legacyBeam? note.abbreviations

/-- A note or rest is labelled as the first of a beam. -/
def OpensBeam (note : Written) : Prop :=
  ∃ label, note.beamLabel? = some label ∧ label.text = "g+"

/-- A note or rest is labelled as the last of a beam. -/
def ClosesBeam (note : Written) : Prop :=
  ∃ label, note.beamLabel? = some label ∧ label.text = "g-"

variable {note : Written} {label : Node}

theorem head?_of_beamLabel? (isLabel : note.beamLabel? = some label) :
    label.text.toList.head? = some 'g' := by
  obtain ⟨other, _, given⟩ :=
    List.mem_filterMap.mp (List.mem_of_getLast? isLabel)
  unfold Node.legacyBeam? at given
  split at given
  · cases given
    exact beq_iff_eq.mp ‹_›
  · cases given

/-- What stands after the first character of the label is all that matters. -/
theorem text_of_beamLabel?
    {sign : Char} (isLabel : note.beamLabel? = some label)
    (isSign : label.text.toList.tail = [sign]) :
    label.text = String.ofList ['g', sign] := by
  obtain ⟨signs, isText⟩ :=
    List.head?_eq_some_iff.mp (head?_of_beamLabel? isLabel)
  apply String.toList_inj.mp
  rw [String.toList_ofList, ← isSign, isText, List.tail_cons]

theorem options_subset (note : Written) : note.options ⊆ note.node.children := by
  have afterLabels : note.afterLabels ⊆ note.node.children :=
    (List.dropWhile_sublist _).subset
  rw [Written.options]
  refine List.Subset.trans (List.takeWhile_sublist _).subset ?_
  split
  · exact afterLabels
  · exact List.Subset.trans (List.dropWhile_sublist _).subset afterLabels

/-- Without elements of beams nothing is asked for of numbered beams. -/
theorem Says.beam_eq_none
    {decorations : Decorations} (decorated : note.Says decorations)
    (noBeams : ∀ child ∈ note.node.children, ¬ child.is .beam) :
    decorations.beam = none := by
  cases given : decorations.beam with
  | none => rfl
  | some point =>
      have last := decorated.beam
      rw [given] at last
      obtain ⟨child, listed, isBeam, _⟩ := last.exists_mem
      exact absurd isBeam (noBeams child (note.options_subset listed))

end Written

namespace Analyser

/-! ## Reading the label -/

theorem Decorations.legacyBeam_readLabel
    {flavor : Flavor} (decorations : Decorations) (label : Node) :
    (readLabel flavor decorations label).legacyBeam =
      label.legacyBeam?.or decorations.legacyBeam := by
  by_cases isG : label.text.toList.head? = some 'g'
  · rw [Node.legacyBeam?_of_head isG, readLabel, isG]
    rfl
  · rw [Node.legacyBeam?_of_other isG, Option.none_or]
    unfold readLabel
    split
    · split <;> rfl
    · exact absurd ‹_› isG
    · rfl
    · rfl

/-- Of several labels of legacy beams the last one is left. -/
theorem yields_abbreviations_legacyBeam
    (flavor : Flavor) (decorations : Decorations) (children : List Node) :
    Yields (abbreviations flavor decorations children) fun result =>
      result.1.legacyBeam = (lastGiven? .label Node.legacyBeam?
        (children.takeWhile Node.isLabel)).or decorations.legacyBeam := by
  refine (yields_abbreviations_foldl flavor decorations children).mono ?_
  rintro _ rfl
  exact Decorations.foldl_readLabel_of_last Decorations.legacyBeam_readLabel
    (isLabel_of_mem_takeWhile children) decorations

/-- Options do not touch the label. -/
theorem yields_readOptions_legacyBeam
    (flavor : Flavor) (handle : Handle) (decorations : Decorations)
    (children : List Node) :
    Yields (readOptions flavor handle decorations children) fun result =>
      result.1.legacyBeam = decorations.legacyBeam := by
  have ofNotes : ∀ (children : List Node) (decorations : Decorations),
      Yields (noteOptions handle decorations children) fun result =>
        result.1.legacyBeam = decorations.legacyBeam := by
    intro children
    induction children with
    | nil => exact fun _ => .pure rfl
    | cons child rest induction =>
        intro decorations
        rw [noteOptions]
        split
        · exact .after fun _ => induction _
        · exact .after fun _ => induction _
        · exact .after fun _ => induction _
        · exact .after fun _ => induction _
        · exact .pure rfl
  have ofBoth : ∀ (children : List Node) (decorations : Decorations),
      Yields (noteRestOptions handle decorations children) fun result =>
        result.1.legacyBeam = decorations.legacyBeam := by
    intro children
    induction children with
    | nil => exact fun _ => .pure rfl
    | cons child rest induction =>
        intro decorations
        rw [noteRestOptions]
        split
        · exact .after fun _ => induction _
        · exact .after fun _ => induction _
        · exact .after fun _ => induction _
        · exact .after fun _ => induction _
        · exact .pure rfl
  unfold readOptions
  split
  · exact ofBoth children decorations
  · refine (ofNotes children decorations).bind ?_
    rintro ⟨middle, rest⟩ same
    exact (ofBoth rest middle).mono fun _ reads => reads.trans same

/-- The label that is read is the last one of the element. -/
theorem yields_addNoteRest_legacyBeam
    (flavor : Flavor) (node : Node) (anchor base : Option Handle) :
    Yields (addNoteRest flavor node anchor base) fun result =>
      result.2.2.legacyBeam = Written.beamLabel? ⟨result.1, flavor, node⟩ := by
  rw [addNoteRest]
  refine (yields_readPitch flavor node node.children).bind ?_
  rintro ⟨pitch, pitched⟩ isPitched
  refine (yields_readNoteValue node pitched).bind ?_
  rintro ⟨value, valued⟩ isValued
  refine .after fun handle => ?_
  have labels := labels_of_read ⟨handle, flavor, node⟩ isPitched isValued
  refine (yields_abbreviations_legacyBeam flavor {} valued).bind ?_
  rintro ⟨decorations, rest⟩ reads
  refine .after fun _ => ?_
  have isLabel : decorations.legacyBeam =
      Written.beamLabel? ⟨handle, flavor, node⟩ := by
    rw [Written.beamLabel?, ← labels.1, reads]
    exact Option.or_none
  refine (yields_readOptions_legacyBeam flavor handle decorations rest).bind ?_
  rintro ⟨taken, rest⟩ same
  exact .after fun _ => .after fun _ => .pure (same.trans isLabel)

end Analyser

/-! ## The turn of the legacy beam -/

namespace Analysis

/-- A note or rest joins the legacy beam. -/
def joinBeam (state : Analysis) (point : BeamPoint) : Analysis :=
  { state with
    pending :=
      { state.pending with legacyBeam := state.pending.legacyBeam ++ [point] } }

/-- A note or rest joins the legacy beam, which is complete with it. -/
def closeBeam (state : Analysis) (point : BeamPoint) : Analysis :=
  let (legacyBeam, draft) :=
    LegacyBeam.close state.pending.legacyBeam point state.draft
  { state with
    pending := { state.pending with legacyBeam := legacyBeam }
    draft := draft }

end Analysis

/-- What becomes of the legacy beam at the turn of a note or rest. -/
inductive Beaming (note : Written) (before : Analysis) : Analysis → Prop where
  /-- Something is wrong with the label. -/
  | told (after : Analysis) (reported : after.draft.diagnostics ≠ #[]) :
      Beaming note before after
  /-- There is no label and no beam. -/
  | apart (noLabel : note.beamLabel? = none)
      (noBeam : before.pending.legacyBeam = []) :
      Beaming note before before
  /-- The label opens a beam. -/
  | opens (point : BeamPoint) (isOwn : point.noteRest = note.handle)
      (opens : note.OpensBeam) (noBeam : before.pending.legacyBeam = []) :
      Beaming note before (before.joinBeam point)
  /-- There is no label, but a beam is open. -/
  | joins (point : BeamPoint) (isOwn : point.noteRest = note.handle)
      (noLabel : note.beamLabel? = none)
      (isOpen : before.pending.legacyBeam ≠ []) :
      Beaming note before (before.joinBeam point)
  /-- The label closes the beam. -/
  | closes (point : BeamPoint) (isOwn : point.noteRest = note.handle)
      (closes : note.ClosesBeam) (isOpen : before.pending.legacyBeam ≠ []) :
      Beaming note before (before.closeBeam point)

namespace Analyser

variable {note : Written} {decorations : Decorations} {before : Analysis}

theorem beaming_settleLegacyBeam
    (isRead : decorations.legacyBeam = note.beamLabel?)
    (noPoint : decorations.beam = none) (type : NoteType) :
    Ensures (settleLegacyBeam decorations note.handle type note.node) before
      fun _ after => Beaming note before after := by
  have told : ∀ (state : Analysis) (location : Location) (problem : Problem),
      (state.draft.report location problem).diagnostics ≠ #[] :=
    fun _ _ _ => Array.push_ne_empty
  have reads : Ensures pending before fun waiting after =>
      waiting = before.pending ∧ after = before := ⟨rfl, rfl⟩
  rw [settleLegacyBeam]
  apply reads.bind
  rintro _ _ ⟨rfl, rfl⟩
  dsimp only
  split
  · rename_i label given
    have isLabel := isRead.symm.trans given
    split
    · rename_i isPlus
      split
      · exact .told _ (told _ _ _)
      · split
        · exact .told _ (told _ _ _)
        · rename_i noneOpen
          exact .opens _ rfl ⟨label, isLabel, Written.text_of_beamLabel? isLabel
            isPlus⟩ (by simpa using noneOpen)
    · rename_i isMinus
      split
      · rename_i isOpen
        exact .closes _ rfl ⟨label, isLabel, Written.text_of_beamLabel? isLabel
          isMinus⟩ (by simpa using isOpen)
      · exact .told _ (told _ _ _)
    · exact .told _ (told _ _ _)
  · rename_i noneGiven
    have noLabel := isRead.symm.trans noneGiven
    split
    · rename_i isOpen
      exact .joins _ rfl noLabel (by simpa [noPoint] using isOpen)
    · rename_i noneOpen
      exact .apart noLabel (by simpa [noPoint] using noneOpen)

end Analyser

end LdpScore
