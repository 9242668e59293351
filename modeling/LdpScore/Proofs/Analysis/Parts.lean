import LdpScore.Proofs.Analysis.Element
import Mathlib.Data.List.Basic
import Mathlib.Data.List.TakeWhile

/-!
# The parts of an element

The children of the element of a note or rest stand in parts: the labels of its pitch
and its value, its abbreviations, the options of notes, the options that notes share
with rests, and all others.  A note or rest is added part by part, and no part is read
with regard to where it begins or ends.

What is asked about tuplets is only handed through where nothing is said about them.
-/

namespace LdpScore

open Analyser

/-- The children of the element of a note or rest, part by part. -/
structure Parts where
  /-- The labels of the pitch and the value. -/
  required : List Node
  abbreviations : List Node
  /-- The options that only notes have. -/
  noteOptions : List Node
  /-- The options that notes share with rests. -/
  options : List Node
  /-- How the note or rest is shown, and what is attached to it. -/
  others : List Node

namespace Written

/-- The labels before the abbreviations: a rest has no pitch. -/
def required (note : Written) : List Node :=
  (note.node.children.takeWhile Node.isLabel).take
    (if note.flavor = .rest then 1 else 2)

/-- What stands after the options of notes. -/
def afterNoteOptions (note : Written) : List Node :=
  if note.flavor = .rest then note.afterLabels
  else note.afterLabels.dropWhile Node.isNoteOption

def parts (note : Written) : Parts where
  required := note.required
  abbreviations := note.abbreviations
  noteOptions := note.noteOptions
  options := note.options
  others := note.afterNoteOptions.dropWhile Node.isOption

variable (note : Written)

theorem children_eq :
    note.node.children =
      note.required ++ (note.abbreviations ++ note.afterLabels) := by
  rw [← List.append_assoc, required, abbreviations, List.take_append_drop]
  exact List.takeWhile_append_dropWhile.symm

theorem afterLabels_eq :
    note.afterLabels = note.noteOptions ++ note.afterNoteOptions := by
  rw [noteOptions, afterNoteOptions]
  split
  · rfl
  · exact List.takeWhile_append_dropWhile.symm

theorem afterNoteOptions_eq :
    note.afterNoteOptions = note.options ++ note.parts.others :=
  List.takeWhile_append_dropWhile.symm

theorem isLabel_of_mem_abbreviations
    {label : Node} (listed : label ∈ note.abbreviations) :
    label.isLabel :=
  List.mem_takeWhile_imp (List.mem_of_mem_drop listed)

theorem isLabel_of_mem_required
    {label : Node} (listed : label ∈ note.required) :
    label.isLabel :=
  List.mem_takeWhile_imp (List.mem_of_mem_take listed)

theorem isNoteOption_of_mem_noteOptions
    {option : Node} (listed : option ∈ note.noteOptions) :
    option.isNoteOption := by
  rw [noteOptions] at listed
  split at listed
  · exact absurd listed List.not_mem_nil
  · exact List.mem_takeWhile_imp listed

theorem isOption_of_mem_options
    {option : Node} (listed : option ∈ note.options) :
    option.isOption :=
  List.mem_takeWhile_imp listed

/-- Where there are abbreviations, no label before them is missing. -/
theorem length_required
    (abbreviated : note.abbreviations ≠ []) :
    note.required.length = if note.flavor = .rest then 1 else 2 := by
  have enough := List.length_pos_iff.mpr abbreviated
  rw [abbreviations, List.length_drop] at enough
  rw [required, List.length_take]
  omega

end Written

/-- Children that do not begin with one of some sort. -/
def EndsAt (test : Node → Bool) (children : List Node) : Prop :=
  ∀ first ∈ children.head?, ¬ test first

theorem endsAt_dropWhile (test : Node → Bool) (children : List Node) :
    EndsAt test (children.dropWhile test) := by
  intro first isFirst
  have fails := List.head?_dropWhile_not test children
  rw [Option.mem_def.mp isFirst] at fails
  simpa using fails

namespace Analyser

variable {flavor : Flavor} {handle : Handle} {decorations : Decorations}

/-! ## Reading part by part -/

/-- Reads the labels of the pitch and the value. -/
def readHead : List Node → Analyser (Option Pitch × NoteValue)
  | [value] => do return (none, ← noteValue value)
  | [pitch, value] => do return (← pitchValue pitch, ← noteValue value)
  | _ => return (none, ⟨.quarter, 0⟩)

theorem mandatory_of_is
    {label : Node} (isLabel : label.isLabel) (node : Node) (rest : List Node) :
    mandatory node .label (label :: rest) = pure (some label, rest) := by
  have isKind : label.is .label := isLabel
  rw [mandatory, take?, if_pos isKind]
  rfl

/-- If no label is missing, the pitch and the value are read from theirs. -/
theorem readHead_eq
    {Value : Type} {required : List Node}
    (are : ∀ label ∈ required, label.isLabel)
    (complete : required.length = if flavor = .rest then 1 else 2)
    (node : Node) (rest : List Node)
    (next : Option Pitch → NoteValue → List Node → Analyser Value) :
    (readPitch flavor node (required ++ rest) >>= fun pitched =>
      readNoteValue node pitched.2 >>= fun valued =>
        next pitched.1 valued.1 valued.2) =
      (readHead required >>= fun head => next head.1 head.2 rest) := by
  by_cases isRest : flavor = .rest
  · rw [if_pos isRest] at complete
    obtain ⟨value, rfl⟩ := List.length_eq_one_iff.mp complete
    have isValue := are value (List.mem_singleton_self value)
    subst isRest
    simp only [readPitch, readHead, readNoteValue, List.singleton_append,
      pure_bind, mandatory_of_is isValue, bind_assoc]
  · rw [if_neg isRest] at complete
    obtain ⟨pitch, value, rfl⟩ := List.length_eq_two.mp complete
    have isPitch := are pitch (List.mem_cons_self ..)
    have isValue := are value
      (List.mem_cons_of_mem _ (List.mem_singleton_self _))
    unfold readPitch
    split
    · exact absurd rfl isRest
    · simp only [readHead, readNoteValue, List.cons_append, List.nil_append,
        pure_bind, mandatory_of_is isPitch, mandatory_of_is isValue, bind_assoc]

theorem abbreviations_append
    {labels : List Node} (are : ∀ label ∈ labels, label.isLabel)
    (decorations : Decorations) (rest : List Node) :
    abbreviations flavor decorations (labels ++ rest) = (do
      let result ← abbreviations flavor decorations labels
      abbreviations flavor result.1 rest) := by
  induction labels generalizing decorations with
  | nil => exact (pure_bind ..).symm
  | cons label labels induction =>
      obtain ⟨isLabel, others⟩ := List.forall_mem_cons.mp are
      have isKind : label.is .label := isLabel
      have later := induction others
      rw [List.cons_append, abbreviations, abbreviations, if_pos isKind,
        if_pos isKind]
      split
      · split
        · simp only [later, bind_assoc]
        · exact later _
      · exact later _
      · exact later _
      · simp only [later, bind_assoc]
      · simp only [later, bind_assoc]
      · simp only [later, bind_assoc]

theorem abbreviations_of_endsAt
    {rest : List Node} (ends : EndsAt Node.isLabel rest)
    (decorations : Decorations) :
    abbreviations flavor decorations rest = pure (decorations, rest) := by
  cases rest with
  | nil => rfl
  | cons first rest =>
      have noLabel : ¬ first.is .label := ends first rfl
      rw [abbreviations, if_neg noLabel]

theorem noteOptions_append
    {options : List Node} (are : ∀ option ∈ options, option.isNoteOption)
    (decorations : Decorations) (rest : List Node) :
    noteOptions handle decorations (options ++ rest) = (do
      let result ← noteOptions handle decorations options
      noteOptions handle result.1 rest) := by
  induction options generalizing decorations with
  | nil => exact (pure_bind ..).symm
  | cons option options induction =>
      obtain ⟨isOption, others⟩ := List.forall_mem_cons.mp are
      have later := induction others
      rw [List.cons_append, noteOptions, noteOptions]
      split
      · simp only [later, bind_assoc]
      · simp only [later, bind_assoc]
      · simp only [later, bind_assoc]
      · simp only [later, bind_assoc]
      · rename_i noTie noSlur noStem noLyric
        refine absurd isOption (Node.not_isNoteOption ?_)
        simpa [Node.noteOptionKinds] using ⟨noTie, noSlur, noStem, noLyric⟩

theorem noteOptions_of_endsAt
    {rest : List Node} (ends : EndsAt Node.isNoteOption rest)
    (decorations : Decorations) :
    noteOptions handle decorations rest = pure (decorations, rest) := by
  cases rest with
  | nil => rfl
  | cons first rest =>
      have other : ∀ kind, Node.noteOptionKinds.contains kind →
          first.kind? ≠ some kind :=
        fun kind listed isKind =>
          ends first rfl (Node.isNoteOption_of isKind listed)
      rw [noteOptions]
      split
      · exact absurd ‹_› (other .tie rfl)
      · exact absurd ‹_› (other .slur rfl)
      · exact absurd ‹_› (other .stem rfl)
      · exact absurd ‹_› (other .lyric rfl)
      · rfl

theorem noteRestOptions_append
    {options : List Node} (are : ∀ option ∈ options, option.isOption)
    (decorations : Decorations) (rest : List Node) :
    noteRestOptions handle decorations (options ++ rest) = (do
      let result ← noteRestOptions handle decorations options
      noteRestOptions handle result.1 rest) := by
  induction options generalizing decorations with
  | nil => exact (pure_bind ..).symm
  | cons option options induction =>
      obtain ⟨isOption, others⟩ := List.forall_mem_cons.mp are
      have later := induction others
      rw [List.cons_append, noteRestOptions, noteRestOptions]
      split
      · simp only [later, bind_assoc]
      · simp only [later, bind_assoc]
      · simp only [later, bind_assoc]
      · simp only [later, bind_assoc]
      · rename_i noTuplet noModification noBeam noVoice
        refine absurd isOption (Node.not_isOption ?_)
        simpa [Node.optionKinds] using
          ⟨noTuplet, noModification, noBeam, noVoice⟩

theorem noteRestOptions_of_endsAt
    {rest : List Node} (ends : EndsAt Node.isOption rest)
    (decorations : Decorations) :
    noteRestOptions handle decorations rest = pure (decorations, rest) := by
  cases rest with
  | nil => rfl
  | cons first rest =>
      have other : ∀ kind, Node.optionKinds.contains kind →
          first.kind? ≠ some kind :=
        fun kind listed isKind => ends first rfl (Node.isOption_of isKind listed)
      rw [noteRestOptions]
      split
      · exact absurd ‹_› (other .tuplet rfl)
      · exact absurd ‹_› (other .timeModification rfl)
      · exact absurd ‹_› (other .beam rfl)
      · exact absurd ‹_› (other .voice rfl)
      · rfl

/-- Adds a note or rest up to the options that it shares with rests. -/
def beginParts
    (flavor : Flavor) (node : Node) (anchor : Option Handle) (parts : Parts) :
    Analyser (Handle × NoteValue × Decorations) := do
  let (pitch, value) ← readHead parts.required
  let handle ← addObject node anchor (noteRestContent flavor value pitch)
  let (decorations, _) ← abbreviations flavor {} parts.abbreviations
  placeInVoice handle
  let (decorations, _) ← noteOptions handle decorations parts.noteOptions
  return (handle, value, decorations)

/-- Places a note or rest and adds what is attached to it. -/
def endParts
    (handle : Handle) (base : Option Handle) (others : List Node) :
    Analyser Unit := do
  let rest ← placeInTime handle base others
  analyseEach (attachmentAnalyser? handle) rest

/-- Adds a note or rest part by part. -/
def addParts
    (flavor : Flavor) (node : Node) (anchor base : Option Handle)
    (parts : Parts) : Analyser (Handle × NoteValue × Decorations) := do
  let (handle, value, decorations) ← beginParts flavor node anchor parts
  let (decorations, _) ← noteRestOptions handle decorations parts.options
  endParts handle base parts.others
  return (handle, value, decorations)

/-- Options are read part by part. -/
theorem readOptions_eq
    (note : Written) (handle : Handle) (decorations : Decorations) :
    readOptions note.flavor handle decorations note.afterLabels = (do
      let (decorations, _) ← noteOptions handle decorations note.noteOptions
      let (decorations, _) ← noteRestOptions handle decorations note.options
      return (decorations, note.parts.others)) := by
  have shared : ∀ decorations,
      noteRestOptions handle decorations note.afterNoteOptions = (do
        let (decorations, _) ← noteRestOptions handle decorations note.options
        return (decorations, note.parts.others)) := by
    intro decorations
    rw [note.afterNoteOptions_eq, noteRestOptions_append
      fun _ listed => note.isOption_of_mem_options listed]
    have ends : EndsAt Node.isOption note.parts.others :=
      endsAt_dropWhile _ _
    simp only [noteRestOptions_of_endsAt ends]
  by_cases isRest : note.flavor = .rest
  · have noNoteOptions : note.noteOptions = [] := if_pos isRest
    have same : note.afterNoteOptions = note.afterLabels := if_pos isRest
    rw [same] at shared
    rw [isRest, noNoteOptions, noteOptions, readOptions, shared]
    rfl
  · have ends : EndsAt Node.isNoteOption note.afterNoteOptions := by
      rw [Written.afterNoteOptions, if_neg isRest]
      exact endsAt_dropWhile _ _
    have both : (do
        let (decorations, rest) ←
          noteOptions handle decorations note.afterLabels
        noteRestOptions handle decorations rest) = (do
          let (decorations, _) ← noteOptions handle decorations note.noteOptions
          let (decorations, _) ← noteRestOptions handle decorations note.options
          return (decorations, note.parts.others)) := by
      rw [note.afterLabels_eq, noteOptions_append
        fun _ listed => note.isNoteOption_of_mem_noteOptions listed]
      simp only [noteOptions_of_endsAt ends, bind_assoc, pure_bind, shared]
    unfold readOptions
    split
    · exact absurd ‹_› isRest
    · exact both

/-- A note or rest is added part by part. -/
theorem addNoteRest_eq
    (note : Written)
    (complete : note.required.length = if note.flavor = .rest then 1 else 2)
    (anchor base : Option Handle) :
    addNoteRest note.flavor note.node anchor base =
      addParts note.flavor note.node anchor base note.parts := by
  have ends : EndsAt Node.isLabel note.afterLabels := endsAt_dropWhile _ _
  rw [addNoteRest, note.children_eq]
  refine (readHead_eq (fun _ listed => note.isLabel_of_mem_required listed)
    complete note.node _ fun pitch value rest => do
      let handle ← addObject note.node anchor
        (noteRestContent note.flavor value pitch)
      let (decorations, rest) ← abbreviations note.flavor {} rest
      placeInVoice handle
      let (decorations, rest) ← readOptions note.flavor handle decorations rest
      let rest ← placeInTime handle base rest
      analyseEach (attachmentAnalyser? handle) rest
      return (handle, value, decorations)).trans ?_
  simp only [abbreviations_append fun _ listed =>
      note.isLabel_of_mem_abbreviations listed,
    abbreviations_of_endsAt ends, readOptions_eq note, bind_assoc, pure_bind]
  simp only [addParts, beginParts, endParts, bind_assoc, pure_bind]
  rfl

end Analyser

end LdpScore
