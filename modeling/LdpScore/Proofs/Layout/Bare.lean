import LdpScore.Analysis.NoteRest
import LdpScore.Proofs.Relation.Curve
import LdpScore.Proofs.Relation.Group

/-!
# Without locations

Where something is written does not matter to what it means.  `bare` takes the
locations away: from a tree, from the descriptors that wait and from what was
reported, with the lines that a report mentions.  Two things are the same up to
locations if they are the same when they are bare.

Bare descriptors are paired like those with locations, and the relations that come
of it are the same.
-/

namespace LdpScore

/-! ## Trees -/

namespace Node

mutual

/-- A tree without locations. -/
def bare : Node → Node
  | leaf kind text _ => leaf kind text .nowhere
  | element name id children _ => element name id (bareAll children) .nowhere

/-- Siblings without locations. -/
def bareAll : List Node → List Node
  | [] => []
  | first :: rest => first.bare :: bareAll rest

end

@[simp]
theorem bareAll_eq (nodes : List Node) : bareAll nodes = nodes.map bare := by
  induction nodes with
  | nil => rfl
  | cons first rest induction => rw [bareAll, induction, List.map_cons]

variable (node : Node)

@[simp]
theorem location_bare : node.bare.location = .nowhere := by
  cases node <;> rfl

@[simp]
theorem name_bare : node.bare.name = node.name := by
  cases node <;> rfl

@[simp]
theorem kind?_bare : node.bare.kind? = node.kind? := by
  cases node <;> rfl

@[simp]
theorem is_bare (kind : ElementKind) : node.bare.is kind = node.is kind := by
  rw [is, kind?_bare]
  rfl

@[simp]
theorem id?_bare : node.bare.id? = node.id? := by
  cases node <;> rfl

@[simp]
theorem text_bare : node.bare.text = node.text := by
  cases node <;> rfl

@[simp]
theorem children_bare : node.bare.children = node.children.map bare := by
  cases node with
  | leaf => rfl
  | element name id children => exact bareAll_eq children

@[simp]
theorem describe_bare : node.bare.describe = node.describe := by
  simp [describe]

end Node

/-! ## Reports -/

/-- A problem without the line that it mentions. -/
def Problem.bare : Problem → Problem
  | .alreadyOnElement relation _ => .alreadyOnElement relation 0
  | .alreadyStarted relation _ => .alreadyStarted relation 0
  | problem => problem

def Diagnostic.bare (diagnostic : Diagnostic) : Diagnostic :=
  ⟨diagnostic.problem.bare, .nowhere⟩

namespace Draft

/-- A draft whose reports have no locations. -/
def bare (draft : Draft) : Draft :=
  { draft with diagnostics := draft.diagnostics.map Diagnostic.bare }

variable (draft : Draft)

@[simp]
theorem model_bare : draft.bare.model = draft.model :=
  rfl

@[simp]
theorem ids_bare : draft.bare.ids = draft.ids :=
  rfl

theorem bare_report (location : Location) (problem : Problem) :
    (draft.report location problem).bare =
      draft.bare.report .nowhere problem.bare := by
  simp [bare, report, Diagnostic.bare]

theorem assignId_bare (wanted : Option Int) (location : Location) :
    draft.bare.assignId wanted .nowhere =
      ((draft.assignId wanted location).1,
        (draft.assignId wanted location).2.bare) := by
  rw [assignId, assignId, ids_bare]
  rcases draft.ids.assign wanted with ⟨id | id, rest⟩
  · rfl
  · dsimp only
    rw [bare_report]
    rfl

theorem addObject_bare
    (wanted : Option Int) (location : Location) (parent : Option Handle)
    (content : Content) :
    draft.bare.addObject wanted .nowhere parent content =
      ((draft.addObject wanted location parent content).1,
        (draft.addObject wanted location parent content).2.bare) := by
  rw [addObject, addObject, assignId_bare draft wanted location]
  rfl

/-- What is done for every part of a list. -/
theorem foldl_bare
    {Part : Type} {step : Draft → Part → Draft} {change : Part → Part}
    (each : ∀ draft part,
      step draft.bare (change part) = (step draft part).bare)
    (parts : List Part) :
    (parts.map change).foldl step draft.bare =
      (parts.foldl step draft).bare := by
  induction parts generalizing draft with
  | nil => rfl
  | cons part rest induction =>
      rw [List.map_cons, List.foldl_cons, List.foldl_cons, each]
      exact induction _

/-- A new relation, and what is done with it for every part of a list. -/
theorem createFoldl_bare
    {Part : Type} (change : Part → Part) (step : Handle → Draft → Part → Draft)
    (each : ∀ relation draft part,
      step relation draft.bare (change part) = (step relation draft part).bare)
    (empty : Content) (parts : List Part) :
    (parts.map change).foldl (step (draft.bare.create empty).1)
        (draft.bare.create empty).2 =
      (parts.foldl (step (draft.create empty).1) (draft.create empty).2).bare :=
  foldl_bare (draft.create empty).2 (each draft.model.size) parts

end Draft

/-! ## Descriptors -/

def TiePoint.bare (point : TiePoint) : TiePoint :=
  { point with location := .nowhere }

def LegacyTie.bare (tie : LegacyTie) : LegacyTie :=
  { tie with location := .nowhere }

def SlurPoint.bare (point : SlurPoint) : SlurPoint :=
  { point with location := .nowhere }

def BeamPoint.bare (point : BeamPoint) : BeamPoint :=
  { point with location := .nowhere }

def TupletPoint.bare (point : TupletPoint) : TupletPoint :=
  { point with location := .nowhere }

/-- What waits, without locations. -/
def Pending.bare (pending : Pending) : Pending where
  ties := pending.ties.map TiePoint.bare
  legacyTie := pending.legacyTie.map LegacyTie.bare
  slurs := pending.slurs.map SlurPoint.bare
  beams := pending.beams.map BeamPoint.bare
  legacyBeam := pending.legacyBeam.map BeamPoint.bare
  tuplets := pending.tuplets.map TupletPoint.bare

/-! ## Pairing -/

namespace Pairing

variable {Point : Type} [Descriptor Point] {strip : Point → Point}

/-- A change of descriptors that takes away their locations and nothing else that
pairing needs to know. -/
structure Strips (strip : Point → Point) : Prop where
  number : ∀ point, number (strip point) = number point
  phase : ∀ point, phase (strip point) = phase point
  member : ∀ point, member (strip point) = member point
  location : ∀ point, location (strip point) = .nowhere

theorem strips_tie : Strips TiePoint.bare :=
  ⟨fun _ => rfl, fun _ => rfl, fun _ => rfl, fun _ => rfl⟩

theorem strips_slur : Strips SlurPoint.bare :=
  ⟨fun _ => rfl, fun _ => rfl, fun _ => rfl, fun _ => rfl⟩

theorem strips_beam : Strips BeamPoint.bare :=
  ⟨fun _ => rfl, fun _ => rfl, fun _ => rfl, fun _ => rfl⟩

theorem strips_tuplet : Strips TupletPoint.bare :=
  ⟨fun _ => rfl, fun _ => rfl, fun _ => rfl, fun _ => rfl⟩

theorem Strips.sameNumber (strips : Strips strip) (point other : Point) :
    sameNumber (strip point) (strip other) = Pairing.sameNumber point other := by
  rw [Pairing.sameNumber, strips.number, strips.number]
  rfl

/-- Why a descriptor is rejected, without the line of the other one. -/
def Rejection.bare : Rejection → Rejection
  | alreadyOnElement _ => alreadyOnElement 0
  | alreadyStarted _ => alreadyStarted 0
  | neverStarted => neverStarted

theorem Rejection.bare_problem
    (relation : PairedRelation) (number : Int) (reason : Rejection) :
    (reason.problem relation number).bare =
      reason.bare.problem relation number := by
  cases reason <;> rfl

/-- What becomes of a descriptor, without locations. -/
def Outcome.bare (strip : Point → Point) : Outcome Point → Outcome Point
  | rejected reason => rejected reason.bare
  | waiting => waiting
  | complete chain => complete (chain.map strip)

/-- The same becomes of a descriptor wherever it is written. -/
theorem offer_strip
    (strips : Strips strip) (pending : List Point) (point : Point) :
    offer (pending.map strip) (strip point) =
      (offer pending point).bare strip := by
  have sameObject : (pending.map strip).find? (fun other =>
      member other == member (strip point) &&
        sameNumber (strip point) other) =
        (pending.find? fun other =>
          member other == member point && sameNumber point other).map strip := by
    simp only [List.find?_map, Function.comp_def, strips.member,
      strips.sameNumber]
  have sameStart : (pending.map strip).find? (fun other =>
      phase other == .start && sameNumber (strip point) other) =
        (pending.find? fun other =>
          phase other == .start && sameNumber point other).map strip := by
    simp only [List.find?_map, Function.comp_def, strips.phase,
      strips.sameNumber]
  have chain : (pending.map strip).filter (sameNumber (strip point)) =
      (pending.filter (sameNumber point)).map strip := by
    simp only [List.filter_map, Function.comp_def, strips.sameNumber]
  rw [offer, offer, sameObject, sameStart, chain, strips.phase]
  cases pending.find? fun other =>
      member other == member point && sameNumber point other with
  | some existing =>
      simp only [Option.map_some, strips.location]
      rfl
  | none =>
      cases phase point with
      | start =>
          cases pending.find? fun other =>
              phase other == .start && sameNumber point other with
          | some existing =>
              simp only [Option.map_none, Option.map_some, strips.location]
              rfl
          | none => rfl
      | «continue» => rfl
      | stop =>
          simp only [Option.map_none, List.isEmpty_map]
          split
          · rfl
          · simp [Outcome.bare]

/-- Settling a bare descriptor settles it in the same way. -/
theorem settleWith_strip
    (strips : Strips strip) {link : List Point → Draft → Draft}
    (links : ∀ chain draft,
      link (chain.map strip) draft.bare = (link chain draft).bare)
    (kind : PairedRelation) (pending : List Point) (point : Point)
    (draft : Draft) :
    settleWith link kind (pending.map strip) (strip point) draft.bare =
      ((settleWith link kind pending point draft).1.map strip,
        (settleWith link kind pending point draft).2.bare) := by
  have alike := offer_strip strips pending point
  cases outcome : offer pending point with
  | rejected reason =>
      rw [outcome] at alike
      rw [settleWith_of_rejected link kind draft outcome,
        settleWith_of_rejected link kind draft.bare alike, strips.location,
        strips.number, Draft.bare_report, Rejection.bare_problem]
  | waiting =>
      rw [outcome] at alike
      rw [settleWith_of_waiting link kind draft outcome,
        settleWith_of_waiting link kind draft.bare alike, List.map_append]
      rfl
  | complete chain =>
      rw [outcome] at alike
      rw [settleWith_of_complete link kind draft outcome,
        settleWith_of_complete link kind draft.bare alike, links]
      simp only [List.filter_map, Function.comp_def, strips.sameNumber]

end Pairing

/-! ## Builders -/

namespace Tie

theorem linkChain_bare (chain : List TiePoint) (draft : Draft) :
    linkChain (chain.map TiePoint.bare) draft.bare =
      (linkChain chain draft).bare := by
  match chain with
  | [] => rfl
  | [single] => rfl
  | start :: next :: rest =>
      have isLast : (((next :: rest).map TiePoint.bare).getLast (by simp)) =
          ((next :: rest).getLast (by simp)).bare :=
        List.getLast_map ..
      simp only [List.map_cons] at isLast ⊢
      unfold linkChain
      dsimp only
      rw [isLast]
      generalize (next :: rest).getLast _ = finish
      have same : canTie draft.bare.model start.bare.note finish.bare.note =
        canTie draft.model start.note finish.note := rfl
      simp only [same]
      split
      · rfl
      · rw [Draft.bare_report]
        rfl

theorem add_bare (pending : List TiePoint) (point : TiePoint) (draft : Draft) :
    add (pending.map TiePoint.bare) point.bare draft.bare =
      ((add pending point draft).1.map TiePoint.bare,
        (add pending point draft).2.bare) := by
  rw [add_eq_settleWith, add_eq_settleWith]
  exact Pairing.settleWith_strip Pairing.strips_tie linkChain_bare .tie pending
    point draft

end Tie

theorem LegacyTie.offer_bare
    (pending : Option LegacyTie) (note : Handle) (draft : Draft) :
    offer (pending.map LegacyTie.bare) note draft.bare =
      ((offer pending note draft).1.map LegacyTie.bare,
        (offer pending note draft).2.bare) := by
  cases pending with
  | none => rfl
  | some tie =>
      have canTie : Tie.canTie draft.bare.model tie.bare.note note =
        Tie.canTie draft.model tie.note note := rfl
      have sameVoice : Tie.sameVoice draft.bare.model tie.bare.note note =
        Tie.sameVoice draft.model tie.note note := rfl
      simp only [Option.map_some, offer, canTie, sameVoice]
      split
      · rfl
      · split
        · rw [Draft.bare_report]
          rfl
        · rfl

namespace Slur

theorem linkChain_bare (chain : List SlurPoint) (draft : Draft) :
    linkChain (chain.map SlurPoint.bare) draft.bare =
      (linkChain chain draft).bare := by
  unfold linkChain
  rw [List.head?_map, List.getLast?_map]
  cases chain.head? with
  | none => rfl
  | some start =>
      cases chain.getLast? with
      | none => rfl
      | some finish =>
          refine Draft.createFoldl_bare draft SlurPoint.bare includePoint
            (fun slur draft point => ?_) (.slur finish.number start.color [])
            chain
          unfold includePoint
          dsimp only [SlurPoint.bare]
          split <;> rfl

theorem add_bare (pending : List SlurPoint) (point : SlurPoint) (draft : Draft) :
    add (pending.map SlurPoint.bare) point.bare draft.bare =
      ((add pending point draft).1.map SlurPoint.bare,
        (add pending point draft).2.bare) := by
  rw [add_eq_settleWith, add_eq_settleWith]
  exact Pairing.settleWith_strip Pairing.strips_slur linkChain_bare .slur pending
    point draft

end Slur

namespace Beam

theorem linkChain_bare
    (chain : List BeamPoint) (isAutomatic : Bool) (draft : Draft) :
    linkChain (chain.map BeamPoint.bare) isAutomatic draft.bare =
      (linkChain chain isAutomatic draft).bare := by
  have created : create (chain.map BeamPoint.bare) draft.bare =
      ((create chain draft).1, (create chain draft).2.bare) :=
    congrArg (Prod.mk draft.model.size)
      (Draft.createFoldl_bare draft BeamPoint.bare
        (fun beam draft point =>
          draft.includeMember beam point.noteRest (.beam point.levels))
        (fun _ _ _ => rfl) (.beam []) chain)
  rw [linkChain, linkChain, created]
  dsimp only
  split <;> rfl

theorem add_bare (pending : List BeamPoint) (point : BeamPoint) (draft : Draft) :
    add (pending.map BeamPoint.bare) point.bare draft.bare =
      ((add pending point draft).1.map BeamPoint.bare,
        (add pending point draft).2.bare) := by
  rw [add_eq_settleWith, add_eq_settleWith]
  refine Pairing.settleWith_strip Pairing.strips_beam (fun chain draft => ?_) .beam
    pending point draft
  rw [List.all_map]
  exact linkChain_bare chain _ draft

end Beam

theorem LegacyBeam.close_bare
    (pending : List BeamPoint) (point : BeamPoint) (draft : Draft) :
    close (pending.map BeamPoint.bare) point.bare draft.bare =
      ((close pending point draft).1.map BeamPoint.bare,
        (close pending point draft).2.bare) := by
  have linked := Beam.linkChain_bare (pending ++ [point]) true draft
  rw [List.map_append] at linked
  exact congrArg (Prod.mk []) linked

namespace Tuplet

theorem linkChain_bare (chain : List TupletPoint) (draft : Draft) :
    linkChain (chain.map TupletPoint.bare) draft.bare =
      (linkChain chain draft).bare := by
  cases chain with
  | nil => rfl
  | cons start rest =>
      exact Draft.createFoldl_bare draft TupletPoint.bare
        (fun tuplet => includePoint tuplet start.modification)
        (fun _ _ _ => rfl)
        (.tuplet start.actual start.normal start.bracket start.display [])
        (start :: rest)

theorem add_bare
    (pending : List TupletPoint) (point : TupletPoint) (draft : Draft) :
    add (pending.map TupletPoint.bare) point.bare draft.bare =
      ((add pending point draft).1.map TupletPoint.bare,
        (add pending point draft).2.bare) := by
  rw [add_eq_settleWith, add_eq_settleWith]
  exact Pairing.settleWith_strip Pairing.strips_tuplet linkChain_bare .tuplet
    pending point draft

variable (pending : List TupletPoint)

@[simp]
theorem openStarts_bare :
    openStarts (pending.map TupletPoint.bare) =
      (openStarts pending).map TupletPoint.bare := by
  rw [openStarts, List.filter_map]
  rfl

@[simp]
theorem isOpen_bare :
    isOpen (pending.map TupletPoint.bare) = isOpen pending := by
  rw [isOpen, openStarts_bare, List.isEmpty_map]
  rfl

@[simp]
theorem innermostOpen?_bare :
    innermostOpen? (pending.map TupletPoint.bare) = innermostOpen? pending := by
  rw [innermostOpen?, openStarts_bare, List.getLast?_map, Option.map_map]
  rfl

@[simp]
theorem openRatio_bare :
    openRatio (pending.map TupletPoint.bare) = openRatio pending := by
  rw [openRatio, openStarts_bare, List.foldl_map]
  rfl

theorem join_bare (noteRest : Handle) (location : Location) :
    join (pending.map TupletPoint.bare) noteRest .nowhere =
      (join pending noteRest location).map TupletPoint.bare := by
  rw [join, join, openStarts_bare, List.map_append, List.map_map, List.map_map]
  rfl

end Tuplet

/-! ## Analyses -/

/-- The state of an analysis, without locations. -/
def Analysis.bare (state : Analysis) : Analysis where
  draft := state.draft.bare
  context := state.context
  pending := state.pending.bare

end LdpScore
