import LdpScore.Analysis.NoteRest
import LdpScore.Proofs.Relation.Curve
import LdpScore.Proofs.Relation.Echo
import LdpScore.Proofs.Relation.Group

/-!
# The same relations further on

Descriptors refer to the notes and rests that carry them.  Where those have later
handles, the same descriptors are paired in the same way, and the relations that
come of it are the same: every builder takes echoes to echoes.
-/

namespace LdpScore

/-! ## Descriptors -/

def TiePoint.shift (base : Handle) (point : TiePoint) : TiePoint :=
  { point with note := base + point.note }

def LegacyTie.shift (base : Handle) (tie : LegacyTie) : LegacyTie :=
  { tie with note := base + tie.note }

def SlurPoint.shift (base : Handle) (point : SlurPoint) : SlurPoint :=
  { point with note := base + point.note }

def BeamPoint.shift (base : Handle) (point : BeamPoint) : BeamPoint :=
  { point with noteRest := base + point.noteRest }

def TupletPoint.shift (base : Handle) (point : TupletPoint) : TupletPoint :=
  { point with noteRest := base + point.noteRest }

/-- What waits, carried by later notes and rests. -/
def Pending.shift (base : Handle) (pending : Pending) : Pending where
  ties := pending.ties.map (TiePoint.shift base)
  legacyTie := pending.legacyTie.map (LegacyTie.shift base)
  slurs := pending.slurs.map (SlurPoint.shift base)
  beams := pending.beams.map (BeamPoint.shift base)
  legacyBeam := pending.legacyBeam.map (BeamPoint.shift base)
  tuplets := pending.tuplets.map (TupletPoint.shift base)

/-! ## Pairing -/

namespace Pairing

variable {Point : Type} [Descriptor Point]
variable {base : Handle} {shift : Point → Point}

/-- A change of descriptors that makes the handles of what carries them later, and
leaves the rest of their endpoints alone. -/
structure ShiftsBy (base : Handle) (shift : Point → Point) : Prop where
  number : ∀ point, number (shift point) = number point
  phase : ∀ point, phase (shift point) = phase point
  member : ∀ point, member (shift point) = base + member point
  location : ∀ point, location (shift point) = location point

theorem shiftsBy_tie : ShiftsBy base (TiePoint.shift base) :=
  ⟨fun _ => rfl, fun _ => rfl, fun _ => rfl, fun _ => rfl⟩

theorem shiftsBy_slur : ShiftsBy base (SlurPoint.shift base) :=
  ⟨fun _ => rfl, fun _ => rfl, fun _ => rfl, fun _ => rfl⟩

theorem shiftsBy_beam : ShiftsBy base (BeamPoint.shift base) :=
  ⟨fun _ => rfl, fun _ => rfl, fun _ => rfl, fun _ => rfl⟩

theorem shiftsBy_tuplet : ShiftsBy base (TupletPoint.shift base) :=
  ⟨fun _ => rfl, fun _ => rfl, fun _ => rfl, fun _ => rfl⟩

namespace ShiftsBy

theorem sameNumber (shifts : ShiftsBy base shift) (point other : Point) :
    sameNumber (shift point) (shift other) = Pairing.sameNumber point other := by
  rw [Pairing.sameNumber, shifts.number, shifts.number]
  rfl

/-- Two descriptors have the same object if they had the same one. -/
theorem sameMember (shifts : ShiftsBy base shift) (point other : Point) :
    (Pairing.member (shift other) == Pairing.member (shift point)) =
      (Pairing.member other == Pairing.member point) := by
  rw [shifts.member, shifts.member]
  exact Bool.eq_iff_iff.mpr (by simp)

/-- The descriptors that share a number, or do not. -/
theorem filter
    (shifts : ShiftsBy base shift) (test : Bool → Bool) (pending : List Point)
    (point : Point) :
    (pending.map shift).filter
        (fun other => test (Pairing.sameNumber (shift point) other)) =
      (pending.filter fun other =>
        test (Pairing.sameNumber point other)).map shift := by
  rw [List.filter_map]
  refine congrArg _ (List.filter_congr fun other _ => ?_)
  exact congrArg test (shifts.sameNumber point other)

end ShiftsBy

omit [Descriptor Point] in
theorem find?_shift
    {test test' : Point → Bool} (fits : ∀ other, test' (shift other) = test other)
    (pending : List Point) :
    (pending.map shift).find? test' = (pending.find? test).map shift := by
  rw [List.find?_map]
  exact congrArg (fun test => (pending.find? test).map shift) (funext fits)

/-- What becomes of a descriptor, with other descriptors in the chain. -/
def Outcome.map (change : Point → Point) : Outcome Point → Outcome Point
  | rejected reason => rejected reason
  | waiting => waiting
  | complete chain => complete (chain.map change)

/-- The same becomes of a descriptor further on. -/
theorem offer_shift
    (shifts : ShiftsBy base shift) (pending : List Point) (point : Point) :
    offer (pending.map shift) (shift point) =
      (offer pending point).map shift := by
  have sameObject : (pending.map shift).find? (fun other =>
      member other == member (shift point) && sameNumber (shift point) other) =
        (pending.find? fun other =>
          member other == member point && sameNumber point other).map shift := by
    refine find?_shift (fun other => ?_) pending
    rw [shifts.sameMember, shifts.sameNumber]
  have sameStart : (pending.map shift).find? (fun other =>
      phase other == .start && sameNumber (shift point) other) =
        (pending.find? fun other =>
          phase other == .start && sameNumber point other).map shift := by
    refine find?_shift (fun other => ?_) pending
    rw [shifts.phase, shifts.sameNumber]
  have chain := shifts.filter id pending point
  simp only [id] at chain
  rw [offer, offer, sameObject, sameStart, shifts.phase, chain]
  cases pending.find? fun other =>
      member other == member point && sameNumber point other with
  | some existing =>
      simp only [Option.map_some, Outcome.map, shifts.location]
  | none =>
      cases phase point with
      | start =>
          cases pending.find? fun other =>
              phase other == .start && sameNumber point other with
          | some existing =>
              simp only [Option.map_none, Option.map_some, Outcome.map,
                shifts.location]
          | none => rfl
      | «continue» => rfl
      | stop =>
          simp only [Option.map_none, List.isEmpty_map]
          split
          · rfl
          · simp [Outcome.map]

/-- Whether a chain becomes the same relation further on. -/
def LinksAlike
    (site : Site) (shift : Point → Point)
    (link : List Point → Draft → Draft) : Prop :=
  ∀ chain alone within, Draft.Echoes site alone within →
    Draft.Echoes site (link chain alone) (link (chain.map shift) within)

variable {site : Site} {alone within : Draft}

/-- Settling a descriptor further on settles it in the same way. -/
theorem echoes_settleWith
    {shift : Point → Point} (shifts : ShiftsBy site.base shift)
    {link : List Point → Draft → Draft} (links : LinksAlike site shift link)
    (kind : PairedRelation) (pending : List Point) (point : Point)
    (echoes : Draft.Echoes site alone within) :
    Draft.EchoesWith site (List.map shift)
      (settleWith link kind pending point alone)
      (settleWith link kind (pending.map shift) (shift point) within) := by
  have alike := offer_shift shifts pending point
  cases outcome : offer pending point with
  | rejected reason =>
      rw [outcome] at alike
      rw [settleWith_of_rejected link kind alone outcome,
        settleWith_of_rejected link kind within alike, shifts.location,
        shifts.number]
      exact ⟨rfl, echoes.report _ _⟩
  | waiting =>
      rw [outcome] at alike
      rw [settleWith_of_waiting link kind alone outcome,
        settleWith_of_waiting link kind within alike]
      refine ⟨?_, echoes⟩
      rw [List.map_append]
      rfl
  | complete chain =>
      rw [outcome] at alike
      rw [settleWith_of_complete link kind alone outcome,
        settleWith_of_complete link kind within alike]
      exact ⟨shifts.filter not pending point, links chain _ _ echoes⟩

theorem firstOfEach_shift
    (shifts : ShiftsBy base shift) (reported : List Int)
    (pending : List Point) :
    firstOfEach reported (pending.map shift) =
      (firstOfEach reported pending).map shift := by
  induction pending generalizing reported with
  | nil => rfl
  | cons point rest induction =>
      rw [List.map_cons, firstOfEach, firstOfEach, shifts.number]
      split
      · exact induction reported
      · rw [induction]
        rfl

/-- What waits in vain is reported alike. -/
theorem echoes_clear
    {shift : Point → Point} (shifts : ShiftsBy site.base shift)
    (kind : PairedRelation) (pending : List Point)
    (echoes : Draft.Echoes site alone within) :
    Draft.Echoes site (clear kind pending alone)
      (clear kind (pending.map shift) within) := by
  rw [clear, clear, flush, flush, firstOfEach_shift shifts]
  refine echoes.foldl (fun alone within point echoes => ?_) _
  rw [shifts.location, shifts.number]
  exact echoes.report _ _

end Pairing

/-! ## Ties -/

variable {site : Site} {alone within : Draft}

namespace Tie

theorem canTie_shift
    (echoes : Draft.Echoes site alone within) (first second : Handle) :
    canTie within.model (site.base + first) (site.base + second) =
      canTie alone.model first second := by
  rw [canTie, canTie, echoes.model.note?, echoes.model.note?]
  cases alone.model.note? first <;> cases alone.model.note? second <;> rfl

theorem sameVoice_shift
    (echoes : Draft.Echoes site alone within) (first second : Handle) :
    sameVoice within.model (site.base + first) (site.base + second) =
      sameVoice alone.model first second := by
  rw [sameVoice, sameVoice, echoes.model.note?, echoes.model.note?]
  cases alone.model.note? first <;> cases alone.model.note? second <;> rfl

/-- An end that is a later note. -/
def End.shift (base : Handle) (tieEnd : End) : End :=
  { tieEnd with note := base + tieEnd.note }

/-- Makes two notes the members of a tie, and the tie known to them. -/
def joinEnds (tie : Handle) (start finish : End) (draft : Draft) : Draft :=
  ((draft.includeMember tie start.note (.tie true start.bezier)).includeMember
    tie finish.note (.tie false finish.bezier)).mapModel fun model =>
      (model.modifyNote start.note fun note =>
        { note with tieNext := some tie }).modifyNote finish.note fun note =>
          { note with tiePrevious := some tie }

theorem echoes_joinEnds
    (tie : Handle) (start finish : End)
    (echoes : Draft.Echoes site alone within) :
    Draft.Echoes site (joinEnds tie start finish alone)
      (joinEnds (site.base + tie) (start.shift site.base)
        (finish.shift site.base) within) := by
  have joined := (echoes.includeMember tie start.note
    (.tie true start.bezier)).includeMember tie finish.note
      (.tie false finish.bezier)
  refine joined.mapModel (Model.Echoes.modifyNote ?_ finish.note ?_)
  · exact joined.model.modifyNote start.note fun _ => rfl
  · exact fun _ => rfl

/-- A tie that is numbered after its id is so wherever it stands. -/
theorem echoes_link
    (start finish : End) (number : Option Int) (color : Option Color)
    (echoes : Draft.Echoes site alone within) :
    Draft.Echoes site (link start finish number color alone)
      (link (start.shift site.base) (finish.shift site.base) number color
        within) := by
  have linked : ∀ {old new : Content},
      Content.Echoes site.base alone.ids.next.1 within.ids.next.1 old new →
        Draft.Echoes site
          (joinEnds alone.model.size start finish (alone.create old).2)
          (joinEnds within.model.size (start.shift site.base)
            (finish.shift site.base) (within.create new).2) := by
    intro old new content
    rw [echoes.model.size]
    exact echoes_joinEnds _ start finish (echoes.create content).draft
  cases number with
  | some given => exact linked (.shifted (.tie given color []))
  | none => exact linked (.numbered color [])

theorem linksAlike_linkChain :
    Pairing.LinksAlike site (TiePoint.shift site.base) linkChain := by
  intro chain alone within echoes
  match chain with
  | [] => exact echoes
  | [single] => exact echoes
  | start :: next :: rest =>
      have isLast : (((next :: rest).map (TiePoint.shift site.base)).getLast
          (by simp)) =
            ((next :: rest).getLast (by simp)).shift site.base :=
        List.getLast_map ..
      simp only [List.map_cons] at isLast ⊢
      unfold linkChain
      dsimp only
      rw [isLast]
      generalize (next :: rest).getLast _ = finish
      have same := canTie_shift echoes start.note finish.note
      simp only [TiePoint.shift, same]
      split
      · exact echoes_link ⟨start.note, start.bezier⟩
          ⟨finish.note, finish.bezier⟩ _ _ echoes
      · exact echoes.report _ _

theorem echoes_add
    (pending : List TiePoint) (point : TiePoint)
    (echoes : Draft.Echoes site alone within) :
    Draft.EchoesWith site (List.map (TiePoint.shift site.base))
      (add pending point alone)
      (add (pending.map (TiePoint.shift site.base)) (point.shift site.base)
        within) := by
  rw [add_eq_settleWith, add_eq_settleWith]
  exact Pairing.echoes_settleWith Pairing.shiftsBy_tie linksAlike_linkChain
    .tie pending point echoes

end Tie

namespace LegacyTie

theorem echoes_offer
    (pending : Option LegacyTie) (note : Handle)
    (echoes : Draft.Echoes site alone within) :
    Draft.EchoesWith site (Option.map (LegacyTie.shift site.base))
      (offer pending note alone)
      (offer (pending.map (LegacyTie.shift site.base)) (site.base + note)
        within) := by
  cases pending with
  | none => exact ⟨rfl, echoes⟩
  | some tie =>
      have sameTie := Tie.canTie_shift echoes tie.note note
      have sameVoice := Tie.sameVoice_shift echoes tie.note note
      simp only [Option.map_some, offer, LegacyTie.shift, sameTie, sameVoice]
      split
      · exact ⟨rfl, Tie.echoes_link ⟨tie.note, none⟩ ⟨note, none⟩ none none
          echoes⟩
      · split
        · exact ⟨rfl, echoes.report _ _⟩
        · exact ⟨rfl, echoes⟩

theorem echoes_clear
    (pending : Option LegacyTie) (echoes : Draft.Echoes site alone within) :
    Draft.Echoes site (clear pending alone)
      (clear (pending.map (LegacyTie.shift site.base)) within) := by
  cases pending with
  | none => exact echoes
  | some tie => exact echoes.report _ _

end LegacyTie

/-! ## Slurs -/

namespace Slur

theorem linksAlike_linkChain :
    Pairing.LinksAlike site (SlurPoint.shift site.base) linkChain := by
  intro chain alone within echoes
  unfold linkChain
  rw [List.head?_map, List.getLast?_map]
  cases chain.head? with
  | none => exact echoes
  | some start =>
      cases chain.getLast? with
      | none => exact echoes
      | some finish =>
          refine echoes.createFoldl (SlurPoint.shift site.base) includePoint
            (fun slur alone within point echoes => ?_)
            (.slur finish.number start.color []) rfl chain
          unfold includePoint
          dsimp only [SlurPoint.shift]
          split
          · exact echoes
          · exact echoes.includeMember slur point.note _
          · exact echoes.includeMember slur point.note _

theorem echoes_add
    (pending : List SlurPoint) (point : SlurPoint)
    (echoes : Draft.Echoes site alone within) :
    Draft.EchoesWith site (List.map (SlurPoint.shift site.base))
      (add pending point alone)
      (add (pending.map (SlurPoint.shift site.base)) (point.shift site.base)
        within) := by
  rw [add_eq_settleWith, add_eq_settleWith]
  exact Pairing.echoes_settleWith Pairing.shiftsBy_slur linksAlike_linkChain
    .slur pending point echoes

end Slur

/-! ## Beams -/

namespace Autobeam

theorem setLevels_shift
    (base : Handle) (members : Members) (note : Handle) (levels : BeamLevels) :
    setLevels (shiftMembers base members) (base + note, levels) =
      shiftMembers base (setLevels members (note, levels)) := by
  simp only [setLevels, shiftMembers, List.map_map]
  refine List.map_congr_left fun member _ => ?_
  simp only [Function.comp, Nat.add_left_cancel_iff]
  split <;> rfl

theorem foldl_setLevels_shift
    (base : Handle) (assignments : List (Handle × BeamLevels))
    (members : Members) :
    (assignments.map fun entry => (base + entry.1, entry.2)).foldl setLevels
        (shiftMembers base members) =
      shiftMembers base (assignments.foldl setLevels members) := by
  induction assignments generalizing members with
  | nil => rfl
  | cons assignment rest induction =>
      rw [List.map_cons, List.foldl_cons, setLevels_shift]
      exact induction _

theorem notesOf_shift
    (echoes : Draft.Echoes site alone within) (members : Members) :
    notesOf within.model (shiftMembers site.base members) =
      (notesOf alone.model members).map fun entry =>
        (site.base + entry.1, entry.2.shift site.base) := by
  rw [notesOf, notesOf, shiftMembers, List.filterMap_map, List.map_filterMap]
  refine congrArg (List.filterMap · members) (funext fun member => ?_)
  simp only [Function.comp, echoes.model.note?, Option.map_map]
  rfl

/-- Later notes are beamed in the same way. -/
theorem beamed_shift
    (echoes : Draft.Echoes site alone within) (members : Members) :
    beamed within.model (shiftMembers site.base members) =
      shiftMembers site.base (beamed alone.model members) := by
  rw [beamed, beamed, notesOf_shift echoes]
  dsimp only
  rw [List.length_map]
  split
  · rfl
  · rw [List.map_map, List.map_map, ← foldl_setLevels_shift]
    have handles : Prod.fst ∘ (fun entry : Handle × Note =>
        (site.base + entry.1, entry.2.shift site.base)) =
          (site.base + ·) ∘ Prod.fst := rfl
    rw [handles, ← List.map_map, List.zip_map_left]
    rfl

end Autobeam

namespace Beam

theorem echoes_create
    (chain : List BeamPoint) (echoes : Draft.Echoes site alone within) :
    Draft.EchoesWith site (site.base + ·) (create chain alone)
      (create (chain.map (BeamPoint.shift site.base)) within) := by
  refine ⟨echoes.model.size, ?_⟩
  exact echoes.createFoldl (BeamPoint.shift site.base)
    (fun beam draft point =>
      draft.includeMember beam point.noteRest (.beam point.levels))
    (fun beam alone within point echoes =>
      echoes.includeMember beam point.noteRest (.beam point.levels))
    (.beam []) rfl chain

theorem echoes_linkChain
    (chain : List BeamPoint) (isAutomatic : Bool)
    (echoes : Draft.Echoes site alone within) :
    Draft.Echoes site (linkChain chain isAutomatic alone)
      (linkChain (chain.map (BeamPoint.shift site.base)) isAutomatic
        within) := by
  have created := echoes_create chain echoes
  unfold linkChain
  dsimp only
  split
  · refine created.draft.mapModel ?_
    rw [created.value]
    refine created.draft.model.modifyContent _ fun content =>
      content.mapMembers ?_
    exact Autobeam.beamed_shift created.draft
  · exact created.draft

theorem echoes_add
    (pending : List BeamPoint) (point : BeamPoint)
    (echoes : Draft.Echoes site alone within) :
    Draft.EchoesWith site (List.map (BeamPoint.shift site.base))
      (add pending point alone)
      (add (pending.map (BeamPoint.shift site.base)) (point.shift site.base)
        within) := by
  rw [add_eq_settleWith, add_eq_settleWith]
  refine Pairing.echoes_settleWith Pairing.shiftsBy_beam ?_ .beam pending point
    echoes
  intro chain alone within echoes
  dsimp only
  rw [List.all_map]
  exact echoes_linkChain chain _ echoes

end Beam

namespace LegacyBeam

theorem echoes_close
    (pending : List BeamPoint) (point : BeamPoint)
    (echoes : Draft.Echoes site alone within) :
    Draft.EchoesWith site (List.map (BeamPoint.shift site.base))
      (close pending point alone)
      (close (pending.map (BeamPoint.shift site.base)) (point.shift site.base)
        within) := by
  refine ⟨rfl, ?_⟩
  have linked := Beam.echoes_linkChain (pending ++ [point]) true echoes
  rw [List.map_append] at linked
  exact linked

theorem echoes_clear
    (pending : List BeamPoint) (echoes : Draft.Echoes site alone within) :
    Draft.Echoes site (clear pending alone)
      (clear (pending.map (BeamPoint.shift site.base)) within) := by
  cases pending with
  | nil => exact echoes
  | cons start rest => exact echoes.report _ _

end LegacyBeam

/-! ## Tuplets -/

namespace Tuplet

theorem linksAlike_linkChain :
    Pairing.LinksAlike site (TupletPoint.shift site.base) linkChain := by
  intro chain alone within echoes
  cases chain with
  | nil => exact echoes
  | cons start rest =>
      refine echoes.createFoldl (TupletPoint.shift site.base)
        (fun tuplet => includePoint tuplet start.modification)
        (fun tuplet alone within point echoes => ?_)
        (.tuplet start.actual start.normal start.bracket start.display []) rfl
        (start :: rest)
      have joined := echoes.includeMember tuplet point.noteRest .tuplet
      exact joined.mapModel
        (joined.model.modifyNoteRest point.noteRest _)

theorem echoes_add
    (pending : List TupletPoint) (point : TupletPoint)
    (echoes : Draft.Echoes site alone within) :
    Draft.EchoesWith site (List.map (TupletPoint.shift site.base))
      (add pending point alone)
      (add (pending.map (TupletPoint.shift site.base))
        (point.shift site.base) within) := by
  rw [add_eq_settleWith, add_eq_settleWith]
  exact Pairing.echoes_settleWith Pairing.shiftsBy_tuplet linksAlike_linkChain
    .tuplet pending point echoes

theorem openStarts_shift (base : Handle) (pending : List TupletPoint) :
    openStarts (pending.map (TupletPoint.shift base)) =
      (openStarts pending).map (TupletPoint.shift base) := by
  rw [openStarts, List.filter_map]
  rfl

theorem isOpen_shift (base : Handle) (pending : List TupletPoint) :
    isOpen (pending.map (TupletPoint.shift base)) = isOpen pending := by
  rw [isOpen, openStarts_shift, List.isEmpty_map]
  rfl

theorem innermostOpen?_shift (base : Handle) (pending : List TupletPoint) :
    innermostOpen? (pending.map (TupletPoint.shift base)) =
      innermostOpen? pending := by
  rw [innermostOpen?, openStarts_shift, List.getLast?_map, Option.map_map]
  rfl

theorem openRatio_shift (base : Handle) (pending : List TupletPoint) :
    openRatio (pending.map (TupletPoint.shift base)) = openRatio pending := by
  rw [openRatio, openStarts_shift, List.foldl_map]
  rfl

theorem join_shift
    (base : Handle) (pending : List TupletPoint) (noteRest : Handle)
    (location : Location) :
    join (pending.map (TupletPoint.shift base)) (base + noteRest) location =
      (join pending noteRest location).map (TupletPoint.shift base) := by
  rw [join, join, openStarts_shift, List.map_append, List.map_map,
    List.map_map]
  rfl

end Tuplet

/-- What waits in vain is reported alike. -/
theorem Pending.echoes_clear
    (pending : Pending) (echoes : Draft.Echoes site alone within) :
    Draft.EchoesWith site (Pending.shift site.base) (pending.clear alone)
      ((pending.shift site.base).clear within) := by
  refine ⟨rfl, ?_⟩
  have ties := Pairing.echoes_clear Pairing.shiftsBy_tie .tie pending.ties echoes
  have legacyTie := LegacyTie.echoes_clear pending.legacyTie ties
  have slurs := Pairing.echoes_clear Pairing.shiftsBy_slur .slur pending.slurs
    legacyTie
  have beams := Pairing.echoes_clear Pairing.shiftsBy_beam .beam pending.beams
    slurs
  have legacyBeam := LegacyBeam.echoes_clear pending.legacyBeam beams
  exact Pairing.echoes_clear Pairing.shiftsBy_tuplet .tuplet pending.tuplets
    legacyBeam

/-! ## Chords -/

namespace Analyser

theorem echoes_chordOf
    (base : Handle) (echoes : Draft.Echoes site alone within) :
    Draft.EchoesWith site (site.base + ·) (chordOf base alone)
      (chordOf (site.base + base) within) := by
  unfold chordOf
  rw [echoes.model.note?]
  have chord : ((alone.model.note? base).map (Note.shift site.base)).bind
      Note.chord = ((alone.model.note? base).bind Note.chord).map
        (site.base + ·) := by
    cases alone.model.note? base <;> rfl
  rw [chord]
  cases (alone.model.note? base).bind Note.chord with
  | some chord => exact ⟨rfl, echoes⟩
  | none =>
      have created := echoes.create (.shifted (.chord []))
      have joined := created.draft.includeMember (alone.create (.chord [])).1
        base .chord
      rw [← created.value] at joined
      refine ⟨created.value, ?_⟩
      dsimp only [Option.map_none]
      refine joined.mapModel ?_
      refine joined.model.modifyNote base fun note => ?_
      exact congrArg (fun chord => { note.shift site.base with
        chord := some chord }) created.value

theorem echoes_joinChord
    (base note : Handle) (echoes : Draft.Echoes site alone within) :
    Draft.Echoes site (joinChord base note alone)
      (joinChord (site.base + base) (site.base + note) within) := by
  have chord := echoes_chordOf base echoes
  unfold joinChord
  dsimp only
  rw [chord.value]
  have joined := chord.draft.includeMember (chordOf base alone).1 note .chord
  refine joined.mapModel (joined.model.modifyNote note ?_)
  exact fun _ => rfl

end Analyser

end LdpScore
