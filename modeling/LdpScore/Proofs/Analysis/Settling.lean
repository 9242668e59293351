import LdpScore.Proofs.Analysis.NoteRest
import LdpScore.Proofs.Relation.Group

/-!
# Settling the relations of a note or rest

What waits is `Pending.Ready`: under every number in order, all of it below a
bound, and notes where only notes can be joined.  The relations of a new note or
rest are settled kind by kind.  Each kind has a bound of its own, which the new
object passes at the moment when that kind is settled.
-/

namespace LdpScore

/-- What waits is in order, below a bound for every kind of relation. -/
structure Pending.Ready
    (model : Model) (ties tuplets beams slurs : Handle) (pending : Pending) :
    Prop where
  tiesWait : Pairing.Waiting ties pending.ties
  tieNotes : ∀ point ∈ pending.ties, model.IsNote point.note
  legacyTie : ∀ member ∈ LegacyTie.members pending.legacyTie,
    model.IsNote member ∧ member < ties
  tupletsWait : Pairing.Waiting tuplets pending.tuplets
  tupletMembers : ∀ point ∈ pending.tuplets, model.IsNoteRest point.noteRest
  beamsWait : Pairing.Waiting beams pending.beams
  beamMembers : ∀ point ∈ pending.beams, model.IsNoteRest point.noteRest
  legacyBeam : (pending.legacyBeam.map BeamPoint.noteRest).Pairwise (· < ·)
  legacyMembers : ∀ point ∈ pending.legacyBeam,
    model.IsNoteRest point.noteRest ∧ point.noteRest < beams
  slursWait : Pairing.Waiting slurs pending.slurs
  slurNotes : ∀ point ∈ pending.slurs, model.IsNote point.note

namespace Pending.Ready

variable {model later : Model} {ties tuplets beams slurs : Handle}
variable {pending : Pending}

theorem empty (model : Model) (ties tuplets beams slurs : Handle) :
    Ready model ties tuplets beams slurs {} := by
  constructor <;> simp [Pairing.Waiting.nil, LegacyTie.members]

theorem persists
    (ready : Ready model ties tuplets beams slurs pending)
    (kept : model.Persists later) :
    Ready later ties tuplets beams slurs pending := by
  constructor
  · exact ready.tiesWait
  · exact fun point waits => kept.isNote (ready.tieNotes point waits)
  · exact fun member waits =>
      ⟨kept.isNote (ready.legacyTie member waits).1,
        (ready.legacyTie member waits).2⟩
  · exact ready.tupletsWait
  · exact fun point waits => kept.isNoteRest (ready.tupletMembers point waits)
  · exact ready.beamsWait
  · exact fun point waits => kept.isNoteRest (ready.beamMembers point waits)
  · exact ready.legacyBeam
  · exact fun point waits =>
      ⟨kept.isNoteRest (ready.legacyMembers point waits).1,
        (ready.legacyMembers point waits).2⟩
  · exact ready.slursWait
  · exact fun point waits => kept.isNote (ready.slurNotes point waits)

theorem mono
    {bound : Handle} (ready : Ready model ties tuplets beams slurs pending)
    (tiesLe : ties ≤ bound) (tupletsLe : tuplets ≤ bound)
    (beamsLe : beams ≤ bound) (slursLe : slurs ≤ bound) :
    Ready model bound bound bound bound pending :=
  { ready with
    tiesWait := ready.tiesWait.mono tiesLe
    legacyTie := fun member waits =>
      ⟨(ready.legacyTie member waits).1,
        Nat.lt_of_lt_of_le (ready.legacyTie member waits).2 tiesLe⟩
    tupletsWait := ready.tupletsWait.mono tupletsLe
    beamsWait := ready.beamsWait.mono beamsLe
    legacyMembers := fun point waits =>
      ⟨(ready.legacyMembers point waits).1,
        Nat.lt_of_lt_of_le (ready.legacyMembers point waits).2 beamsLe⟩
    slursWait := ready.slursWait.mono slursLe }

theorem raiseTies
    (ready : Ready model ties tuplets beams slurs pending) :
    Ready model (ties + 1) tuplets beams slurs pending :=
  { ready with
    tiesWait := ready.tiesWait.mono (Nat.le_succ ties)
    legacyTie := fun member waits =>
      ⟨(ready.legacyTie member waits).1,
        Nat.lt_succ_of_lt (ready.legacyTie member waits).2⟩ }

theorem raiseTuplets
    (ready : Ready model ties tuplets beams slurs pending) :
    Ready model ties (tuplets + 1) beams slurs pending :=
  { ready with tupletsWait := ready.tupletsWait.mono (Nat.le_succ tuplets) }

theorem raiseBeams
    (ready : Ready model ties tuplets beams slurs pending) :
    Ready model ties tuplets (beams + 1) slurs pending :=
  { ready with
    beamsWait := ready.beamsWait.mono (Nat.le_succ beams)
    legacyMembers := fun point waits =>
      ⟨(ready.legacyMembers point waits).1,
        Nat.lt_succ_of_lt (ready.legacyMembers point waits).2⟩ }

theorem raiseSlurs
    (ready : Ready model ties tuplets beams slurs pending) :
    Ready model ties tuplets beams (slurs + 1) pending :=
  { ready with slursWait := ready.slursWait.mono (Nat.le_succ slurs) }

/-- The newest note or rest comes last in the legacy beam. -/
theorem legacyRising
    (ready : Ready model ties tuplets beams slurs pending)
    (point : BeamPoint) (newest : point.noteRest = beams) :
    ((pending.legacyBeam ++ [point]).map BeamPoint.noteRest).Pairwise
      (· < ·) := by
  rw [List.map_append, List.map_singleton, List.pairwise_append]
  refine ⟨ready.legacyBeam, List.pairwise_singleton .., ?_⟩
  intro earlier listed last isLast
  obtain ⟨other, waits, rfl⟩ := List.mem_map.mp listed
  rw [List.mem_singleton.mp isLast, newest]
  exact (ready.legacyMembers other waits).2

end Pending.Ready

namespace Pending

/-! ## Who waits -/

variable {pending : Pending}

theorem tie_mem_members {point : TiePoint} (waits : point ∈ pending.ties) :
    point.note ∈ pending.members := by
  simp only [members, List.mem_append]
  exact Or.inl (Or.inl (Or.inl (Or.inl (Or.inl (List.mem_map_of_mem waits)))))

theorem legacyTie_mem_members
    {member : Handle} (waits : member ∈ LegacyTie.members pending.legacyTie) :
    member ∈ pending.members := by
  simp only [members, List.mem_append]
  exact Or.inl (Or.inl (Or.inl (Or.inl (Or.inr waits))))

theorem slur_mem_members
    {point : SlurPoint} (waits : point ∈ pending.slurs) :
    point.note ∈ pending.members := by
  simp only [members, List.mem_append]
  exact Or.inl (Or.inl (Or.inl (Or.inr (List.mem_map_of_mem waits))))

theorem beam_mem_members
    {point : BeamPoint} (waits : point ∈ pending.beams) :
    point.noteRest ∈ pending.members := by
  simp only [members, List.mem_append]
  exact Or.inl (Or.inl (Or.inr (List.mem_map_of_mem waits)))

theorem legacyBeam_mem_members
    {point : BeamPoint} (waits : point ∈ pending.legacyBeam) :
    point.noteRest ∈ pending.members := by
  simp only [members, List.mem_append]
  exact Or.inl (Or.inr (List.mem_map_of_mem waits))

theorem tuplet_mem_members
    {point : TupletPoint} (waits : point ∈ pending.tuplets) :
    point.noteRest ∈ pending.members := by
  simp only [members, List.mem_append]
  exact Or.inr (List.mem_map_of_mem waits)

/-- Of all objects, only the one at a handle may wait anew. -/
structure AddsOnly (handle : Handle) (before after : Pending) : Prop where
  ties : ∀ point ∈ after.ties,
    point ∈ before.ties ∨ point.note = handle
  legacyTie : ∀ member ∈ LegacyTie.members after.legacyTie,
    member ∈ LegacyTie.members before.legacyTie ∨ member = handle
  slurs : ∀ point ∈ after.slurs,
    point ∈ before.slurs ∨ point.note = handle
  beams : ∀ point ∈ after.beams,
    point ∈ before.beams ∨ point.noteRest = handle
  legacyBeam : ∀ point ∈ after.legacyBeam,
    point ∈ before.legacyBeam ∨ point.noteRest = handle
  tuplets : ∀ point ∈ after.tuplets,
    point ∈ before.tuplets ∨ point.noteRest = handle

namespace AddsOnly

variable {handle : Handle} {before after : Pending}

theorem refl (handle : Handle) (pending : Pending) :
    AddsOnly handle pending pending :=
  ⟨fun _ => Or.inl, fun _ => Or.inl, fun _ => Or.inl, fun _ => Or.inl,
    fun _ => Or.inl, fun _ => Or.inl⟩

theorem members
    (adds : AddsOnly handle before after)
    {member : Handle} (waits : member ∈ after.members) :
    member ∈ before.members ∨ member = handle := by
  simp only [Pending.members, List.mem_append, List.mem_map] at waits
  rcases waits with ((((⟨point, listed, rfl⟩ | legacy) |
    ⟨point, listed, rfl⟩) | ⟨point, listed, rfl⟩) | ⟨point, listed, rfl⟩) |
    ⟨point, listed, rfl⟩
  · exact (adds.ties point listed).imp_left tie_mem_members
  · exact (adds.legacyTie member legacy).imp_left legacyTie_mem_members
  · exact (adds.slurs point listed).imp_left slur_mem_members
  · exact (adds.beams point listed).imp_left beam_mem_members
  · exact (adds.legacyBeam point listed).imp_left legacyBeam_mem_members
  · exact (adds.tuplets point listed).imp_left tuplet_mem_members

end AddsOnly

end Pending

/-! ## Joining -/

/-- Some objects were joined, and nothing else changed but what waits. -/
structure Analysis.Joins
    (scope : Option Handle) (nodes : List Node) (before after : Analysis) :
    Prop where
  builds : Builds nodes scope scope before after
  model : Model.Extends before.draft.model after.draft.model
  notes : before.draft.model.KeepsNotes after.draft.model
  stands : before.draft.Stands after.draft
  lastNote : after.context.lastNote = before.context.lastNote

theorem Edits.joins
    {nodes : List Node} {before after : Analysis}
    (edits : Edits nodes before after) (scope : Option Handle) :
    Analysis.Joins scope nodes before after :=
  ⟨edits.builds scope, edits.model,
    .of_spares edits.amends.model edits.amends.chords, edits.amends.stands,
    edits.lastNote⟩

instance (scope : Option Handle) : Tracing (Analysis.Joins scope) where
  of_agrees agrees := (Edits.of_agrees agrees).joins scope
  trans earlier later :=
    ⟨earlier.builds.trans later.builds, earlier.model.trans later.model,
      earlier.notes.trans later.notes, earlier.stands.trans later.stands,
      later.lastNote.trans earlier.lastNote⟩
  mono joins part :=
    ⟨joins.builds.mono part, joins.model, joins.notes, joins.stands,
      joins.lastNote⟩

namespace Analyser

variable {before : Analysis} {scope : Option Handle} {handle : Handle}

/-- A step joins objects, and what waits afterwards is in order. -/
abbrev JoinsUntil
    {Value : Type} (scope : Option Handle)
    (ties tuplets beams slurs : Handle) (action : Analyser Value)
    (before : Analysis) : Prop :=
  Traces (Analysis.Joins scope) [] action before fun _ after =>
    after.pending.Ready after.draft.model ties tuplets beams slurs

theorem JoinsUntil.of_quiet
    {Value : Type} {ties tuplets beams slurs : Handle}
    {action : Analyser Value} {property : Value → Prop}
    (quiet : Quiet action property)
    (ready : before.pending.Ready before.draft.model ties tuplets beams
      slurs) :
    JoinsUntil scope ties tuplets beams slurs action before := by
  apply Traces.of_quiet quiet
  intro _ after agrees _
  rw [agrees.pending, agrees.draft.model]
  exact ready

/-- Settling joins objects if all of them waited or are the new one, and if nothing
waits afterwards but what waited before and the new one. -/
theorem joins_settle
    {change : Pending → Draft → Pending × Draft}
    {kind : PairedRelation} {joining : List Handle}
    {ties tuplets beams slurs : Handle}
    (under : before.draft.model.IsUnder scope handle)
    (relates : Draft.Relates kind joining before.draft
      (change before.pending before.draft).2)
    (canJoin : ∀ member ∈ joining,
      member ∈ before.pending.members ∨ member = handle)
    (adds : Pending.AddsOnly handle before.pending
      (change before.pending before.draft).1)
    (ready : ∀ later, before.draft.model.Persists later →
      (change before.pending before.draft).1.Ready later ties tuplets beams
        slurs) :
    JoinsUntil scope ties tuplets beams slurs (settle change) before := by
  have extended := relates.extendsModel
  have related : Builds [] scope scope before
      { before with draft := (change before.pending before.draft).2 } := by
    refine .relate relates fun member listed => ?_
    rcases canJoin member listed with old | new
    · exact Or.inl (Or.inl old)
    · exact Or.inr (new ▸ under)
  have attended : Builds [] scope scope
      { before with draft := (change before.pending before.draft).2 }
      { before with
        draft := (change before.pending before.draft).2
        pending := (change before.pending before.draft).1 } := by
    refine .single fun earlier => .attend ⟨_, scope, earlier⟩ (.refl _) ?_
    intro member awaited
    rcases awaited with waiting | isLast
    · rcases adds.members waiting with old | new
      · exact Or.inl (Or.inl old)
      · exact Or.inr (new ▸ extended.persists.isUnder under)
    · exact Or.inl (Or.inr isLast)
  exact ⟨⟨related.trans attended, extended, relates.keepsNotes,
      relates.stands, rfl⟩,
    ready _ extended.persists⟩

/-! ## Numbered descriptors -/

section Numbered

variable {Point : Type} [Descriptor Point] {pending : List Point}
variable {point : Point} {bound : Handle} {draft : Draft}
variable {kind : PairedRelation} {result : List Point × Draft}

/-- What still waits waited before or is the new one. -/
theorem kept_of_settles
    (settled : Pairing.Settles kind bound pending point draft result)
    (isOwn : Pairing.member point = handle) (other : Point)
    (waits : other ∈ result.1) :
    other ∈ pending ∨ Pairing.member other = handle := by
  rcases settled.members other waits with old | rfl
  · exact Or.inl old
  · exact Or.inr isOwn

/-- What a chain joins waited before or is the new one. -/
theorem waits_of_mem_offered
    {waiting : List Handle}
    (wait : ∀ other ∈ pending, Pairing.member other ∈ waiting)
    (isOwn : Pairing.member point = handle) (member : Handle)
    (listed : member ∈ (pending ++ [point]).map Pairing.member) :
    member ∈ waiting ∨ member = handle := by
  obtain ⟨other, isOther, rfl⟩ := List.mem_map.mp listed
  rcases List.mem_append.mp isOther with old | new
  · exact Or.inl (wait other old)
  · exact Or.inr (List.mem_singleton.mp new ▸ isOwn)

/-- What holds of all that waits and of the new one holds of all descriptors that
can be joined. -/
theorem forall_offered
    {holds : Handle → Prop}
    (old : ∀ other ∈ pending, holds (Pairing.member other))
    (isOwn : Pairing.member point = handle) (new : holds handle) :
    ∀ other ∈ pending ++ [point], holds (Pairing.member other) := by
  refine List.forall_mem_append.mpr ⟨old, ?_⟩
  exact List.forall_mem_singleton.mpr (isOwn ▸ new)

/-- What holds of all that waited and of the new one holds of all that waits. -/
theorem forall_kept
    {holds : Handle → Prop} {later : List Point}
    (kept : ∀ other ∈ later, other ∈ pending ∨ Pairing.member other = handle)
    (old : ∀ other ∈ pending, holds (Pairing.member other))
    (new : holds handle) :
    ∀ other ∈ later, holds (Pairing.member other) := by
  intro other waits
  rcases kept other waits with waited | isNew
  · exact old other waited
  · exact isNew ▸ new

end Numbered

/-! ## Ties -/

theorem joins_settleLegacyTie
    {tuplets beams slurs : Handle} (label : Option Node)
    (isNote : before.draft.model.IsNote handle)
    (under : before.draft.model.IsUnder scope handle)
    (ready : before.pending.Ready before.draft.model handle tuplets beams
      slurs) :
    JoinsUntil scope (handle + 1) tuplets beams slurs
      (settleLegacyTie label handle) before := by
  have related : Draft.Relates .tie
      (LegacyTie.members before.pending.legacyTie ++ [handle]) before.draft _ :=
    LegacyTie.relates_offer
      (fun member waits => (ready.legacyTie member waits).1) isNote
      fun member waits => (ready.legacyTie member waits).2
  have kept := LegacyTie.members_offer before.pending.legacyTie handle
    before.draft
  have canJoin : ∀ member ∈
      LegacyTie.members before.pending.legacyTie ++ [handle],
        member ∈ before.pending.members ∨ member = handle := by
    intro member listed
    rcases List.mem_append.mp listed with old | new
    · exact Or.inl (Pending.legacyTie_mem_members old)
    · exact Or.inr (List.mem_singleton.mp new)
  cases label with
  | none =>
      refine joins_settle under related canJoin
        { Pending.AddsOnly.refl handle before.pending with
          legacyTie := fun member waits => Or.inl (kept waits) }
        fun later persists => ?_
      have raised := ready.raiseTies.persists persists
      exact { raised with
        legacyTie := fun member waits =>
          raised.legacyTie member (kept waits) }
  | some label =>
      refine joins_settle under related canJoin
        { Pending.AddsOnly.refl handle before.pending with
          legacyTie := fun member waits =>
            Or.inr (List.mem_singleton.mp waits) }
        fun later persists => ?_
      exact { ready.raiseTies.persists persists with
        legacyTie := fun member waits => by
          rw [List.mem_singleton.mp waits]
          exact ⟨persists.isNote isNote, Nat.lt_succ_self handle⟩ }

/-- Offers the numbered tie of a note, if it has one. -/
def offerTie (decorations : Decorations) : Analyser Unit :=
  match decorations.tie with
  | some point =>
      settle fun pending draft =>
        let (ties, draft) := Tie.add pending.ties point draft
        ({ pending with ties := ties }, draft)
  | none => pure ()

theorem settleTies_eq (note : Handle) (decorations : Decorations) :
    settleTies note decorations = (do
      settleLegacyTie decorations.legacyTie note
      offerTie decorations) :=
  rfl

theorem joins_offerTie
    {tuplets beams slurs : Handle} {decorations : Decorations}
    (isNote : before.draft.model.IsNote handle)
    (under : before.draft.model.IsUnder scope handle)
    (own : ∀ point, decorations.tie = some point → point.note = handle)
    (ready : before.pending.Ready before.draft.model (handle + 1) tuplets
      beams slurs) :
    JoinsUntil scope (handle + 1) tuplets beams slurs
      (offerTie decorations) before := by
  rw [offerTie]
  cases isPoint : decorations.tie with
  | none => exact .pure ready
  | some point =>
      have isOwn := own point isPoint
      have settled := Tie.settles_add ready.tiesWait isOwn
        (forall_offered ready.tieNotes isOwn isNote)
      have kept := kept_of_settles settled isOwn
      refine joins_settle under settled.relates
        (waits_of_mem_offered (fun _ => Pending.tie_mem_members) isOwn)
        { Pending.AddsOnly.refl handle before.pending with ties := kept }
        fun later persists => ?_
      have stays := ready.persists persists
      exact { stays with
        tiesWait := settled.waiting
        tieNotes := forall_kept kept stays.tieNotes (persists.isNote isNote) }

/-! ## Modifications -/

/-- A note or rest takes the modification that its element gives. -/
theorem joins_applyModification
    {ties tuplets beams slurs : Handle}
    (modification : Option TimeModification)
    (ready : before.pending.Ready before.draft.model ties tuplets beams
      slurs) :
    JoinsUntil scope ties tuplets beams slurs
      (applyModification handle modification) before := by
  cases modification with
  | none => exact .pure ready
  | some given =>
      have keeps : ∀ content, before.draft.model.content? handle =
          some content → content.Keeps (content.mapNoteRest fun noteRest =>
            { noteRest with
              timeModification := some given
              isModificationExplicit := true }) :=
        fun content _ => .mapNoteRest _ content
      have extended : Model.Extends before.draft.model
          (before.draft.model.modifyContent handle _) :=
        .modifyContent _ _ keeps
      refine ⟨⟨.single fun earlier => ?_, extended, ?_,
          ⟨?_, List.prefix_refl _⟩, rfl⟩,
        ready.persists extended.persists⟩
      · exact .revise ⟨before, scope, earlier⟩ handle _ keeps
      · refine .of_map (Model.content?_modifyContent _ _ _) ?_ ?_
        · intro other content
          split
          · exact Content.name_mapNoteRest ..
          · rfl
        · intro other content
          split
          · exact Content.chord?_mapNoteRest _ content
          · rfl
      · refine .of_map (Model.content?_modifyContent _ _ _) ?_
        intro other content isRelation
        split
        · exact Content.mapNoteRest_of_members? isRelation _
        · rfl

/-! ## Tuplets -/

theorem joins_settleTuplet
    {ties beams slurs bound : Handle} {point : TupletPoint}
    (isNoteRest : before.draft.model.IsNoteRest handle)
    (under : before.draft.model.IsUnder scope handle)
    (isOwn : point.noteRest = handle)
    (ready : before.pending.Ready before.draft.model ties (handle + 1) beams
      slurs)
    (waiting : Pairing.Waiting bound
      (Tuplet.add before.pending.tuplets point before.draft).1) :
    JoinsUntil scope ties bound beams slurs (settleTuplet point) before := by
  have settled := Tuplet.settles_add ready.tupletsWait isOwn
    (forall_offered ready.tupletMembers isOwn isNoteRest)
  have kept := kept_of_settles settled isOwn
  refine joins_settle under settled.relates
    (waits_of_mem_offered (fun _ => Pending.tuplet_mem_members) isOwn)
    { Pending.AddsOnly.refl handle before.pending with tuplets := kept }
    fun later persists => ?_
  have stays := ready.persists persists
  exact { stays with
    tupletsWait := waiting
    tupletMembers :=
      forall_kept kept stays.tupletMembers (persists.isNoteRest isNoteRest) }

/-- The stop of a tuplet leaves everything below the new object. -/
theorem joins_settleTuplet_stop
    {ties beams slurs : Handle} {point : TupletPoint}
    (isNoteRest : before.draft.model.IsNoteRest handle)
    (under : before.draft.model.IsUnder scope handle)
    (isOwn : point.noteRest = handle) (isStop : point.phase = .stop)
    (ready : before.pending.Ready before.draft.model ties handle beams
      slurs) :
    JoinsUntil scope ties handle beams slurs (settleTuplet point) before := by
  refine joins_settleTuplet isNoteRest under isOwn
    { ready with tupletsWait := ready.tupletsWait.mono (Nat.le_succ handle) } ?_
  exact ready.tupletsWait.sublist
    (Tuplet.add_sublist_of_stop isStop _ before.draft)

/-- Any other descriptor of a tuplet may wait itself. -/
theorem joins_settleTuplet_start
    {ties beams slurs : Handle} {point : TupletPoint}
    (isNoteRest : before.draft.model.IsNoteRest handle)
    (under : before.draft.model.IsUnder scope handle)
    (isOwn : point.noteRest = handle)
    (ready : before.pending.Ready before.draft.model ties (handle + 1) beams
      slurs) :
    JoinsUntil scope ties (handle + 1) beams slurs (settleTuplet point)
      before := by
  apply joins_settleTuplet isNoteRest under isOwn ready
  rw [Tuplet.add_eq_settleWith, Pairing.settleWith_fst]
  exact ready.tupletsWait.offer isOwn

theorem joins_joinTuplets
    {ties beams slurs : Handle} (location : Location)
    (isNoteRest : before.draft.model.IsNoteRest handle)
    (under : before.draft.model.IsUnder scope handle)
    (ready : before.pending.Ready before.draft.model ties handle beams
      slurs) :
    JoinsUntil scope ties (handle + 1) beams slurs
      (joinTuplets handle location) before := by
  have kept : ∀ other ∈ Tuplet.join before.pending.tuplets handle location,
      other ∈ before.pending.tuplets ∨ other.noteRest = handle :=
    fun _ => Tuplet.mem_join
  have related : Draft.Relates .tuplet [] before.draft before.draft :=
    .silent (.refl before.draft)
  refine joins_settle under related
    (fun _ impossible => absurd impossible List.not_mem_nil)
    { Pending.AddsOnly.refl handle before.pending with tuplets := kept }
    fun later persists => ?_
  have stays := ready.persists persists
  exact { stays with
    tupletsWait := Tuplet.waiting_join ready.tupletsWait location
    tupletMembers :=
      forall_kept kept stays.tupletMembers (persists.isNoteRest isNoteRest) }

theorem reads_openRatio : Reads openRatio := by
  rw [openRatio]
  exact reads_pending.bind fun _ _ => .pure trivial

theorem quiet_legacyTuplet
    (label : Node) (phase : Phase) (number : Int) (actual normal : Nat)
    (handle : Handle) :
    Quiet (legacyTuplet label phase number actual normal handle)
      fun point => point.noteRest = handle ∧ point.phase = phase := by
  rw [legacyTuplet]
  exact reads_context.bind fun _ _ => .pure ⟨rfl, rfl⟩

theorem joins_settleLegacyTuplet
    {ties beams slurs : Handle} (label : Node)
    (isNoteRest : before.draft.model.IsNoteRest handle)
    (under : before.draft.model.IsUnder scope handle)
    (ready : before.pending.Ready before.draft.model ties handle beams
      slurs) :
    JoinsUntil scope ties (handle + 1) beams slurs
      (settleLegacyTuplet label handle) before := by
  have nothing : ∀ problem, problem ≠ .idTaken →
      JoinsUntil scope ties (handle + 1) beams slurs (do
        report label.location problem
        openRatio) before := by
    intro problem other
    exact .of_quiet
      ((reads_report _ other).bind fun _ _ => reads_openRatio)
      ready.raiseTuplets
  rw [settleLegacyTuplet]
  dsimp only
  split
  · refine .read reads_openRatio fun ratio first toFirst _ => ?_
    refine .read reads_pending fun pending second toSecond _ => ?_
    refine .read (quiet_legacyTuplet _ _ _ _ _ handle)
      fun point third toThird facts => ?_
    have agrees := toFirst.trans (toSecond.trans toThird)
    rw [← agrees.draft.model, ← agrees.pending] at ready
    rw [← agrees.draft.model] at isNoteRest under
    refine (joins_settleTuplet_stop isNoteRest under facts.1 facts.2
      ready).bind fun _ last _ ready => ?_
    exact .pure ready.raiseTuplets
  · split
    · exact nothing _ (by simp)
    · apply Traces.readPending
      split
      · exact nothing _ (by simp)
      · refine .read (quiet_legacyTuplet _ _ _ _ _ handle)
          fun point middle agrees facts => ?_
        rw [← agrees.draft.model, ← agrees.pending] at ready
        rw [← agrees.draft.model] at isNoteRest under
        refine (joins_settleTuplet_start isNoteRest under facts.1
          ready.raiseTuplets).bind fun _ last _ ready => ?_
        exact JoinsUntil.of_quiet reads_openRatio ready

/-- A note or rest joins the tuplets around it: after the one that stops at it, and
before the one that starts at it. -/
theorem joins_settleTuplets
    {ties beams slurs : Handle} {point : Option TupletPoint} (node : Node)
    (isNoteRest : before.draft.model.IsNoteRest handle)
    (under : before.draft.model.IsUnder scope handle)
    (own : ∀ given, point = some given → given.noteRest = handle)
    (ready : before.pending.Ready before.draft.model ties handle beams
      slurs) :
    JoinsUntil scope ties (handle + 1) beams slurs
      (settleTuplets point handle node) before := by
  cases point with
  | none =>
      refine (joins_joinTuplets node.location isNoteRest under ready).seq
        fun _ last _ ready => ?_
      exact JoinsUntil.of_quiet reads_openRatio ready
  | some given =>
      have isOwn := own given rfl
      have started : JoinsUntil scope ties (handle + 1) beams slurs (do
          joinTuplets handle node.location
          settleTuplet given
          openRatio) before := by
        refine (joins_joinTuplets node.location isNoteRest under ready).seq
          fun _ middle joins ready => ?_
        refine (joins_settleTuplet_start
          (joins.model.persists.isNoteRest isNoteRest)
          (joins.model.persists.isUnder under) isOwn ready).seq
            fun _ last _ ready => ?_
        exact JoinsUntil.of_quiet reads_openRatio ready
      unfold settleTuplets
      cases isPhase : given.phase with
      | start => simpa only [isPhase] using started
      | «continue» => simpa only [isPhase] using started
      | stop =>
          -- The note first ends its own tuplet, while it is newer than all that
          -- waits, and then joins those that are still open.
          simp only [isPhase]
          refine .read reads_openRatio fun ratio first agrees _ => ?_
          rw [← agrees.draft.model, ← agrees.pending] at ready
          rw [← agrees.draft.model] at isNoteRest under
          refine (joins_settleTuplet_stop isNoteRest under isOwn isPhase
            ready).bind fun _ middle joins ready => ?_
          refine (joins_joinTuplets node.location
            (joins.model.persists.isNoteRest isNoteRest)
            (joins.model.persists.isUnder under) ready).seq
              fun _ last _ ready => ?_
          exact .pure ready

theorem joins_tupletFactor
    {ties beams slurs : Handle} {decorations : Decorations} (node : Node)
    (isNoteRest : before.draft.model.IsNoteRest handle)
    (under : before.draft.model.IsUnder scope handle)
    (own : ∀ point, decorations.tuplet = some point →
      point.noteRest = handle)
    (ready : before.pending.Ready before.draft.model ties handle beams
      slurs) :
    JoinsUntil scope ties (handle + 1) beams slurs
      (tupletFactor decorations handle node) before := by
  rw [tupletFactor]
  split
  · exact joins_settleLegacyTuplet _ isNoteRest under ready
  · exact joins_settleTuplets node isNoteRest under own ready

/-! ## Beams -/

theorem joins_joinLegacyBeam
    {ties tuplets slurs : Handle} (location : Location)
    (isNoteRest : before.draft.model.IsNoteRest handle)
    (under : before.draft.model.IsUnder scope handle)
    (ready : before.pending.Ready before.draft.model ties tuplets handle
      slurs) :
    JoinsUntil scope ties tuplets (handle + 1) slurs
      (joinLegacyBeam handle location) before := by
  have rising := ready.legacyRising ⟨0, BeamLevels.empty, handle, location⟩ rfl
  have related : Draft.Relates .beam [] before.draft before.draft :=
    .silent (.refl before.draft)
  refine joins_settle under related
    (fun _ impossible => absurd impossible List.not_mem_nil)
    { Pending.AddsOnly.refl handle before.pending with
      legacyBeam := fun other waits => by
        rcases List.mem_append.mp waits with old | new
        · exact Or.inl old
        · exact Or.inr (List.mem_singleton.mp new ▸ rfl) }
    fun later persists => ?_
  have raised := ready.raiseBeams.persists persists
  exact { raised with
    legacyBeam := rising
    legacyMembers := fun other waits => by
      rcases List.mem_append.mp waits with old | new
      · exact raised.legacyMembers other old
      · rw [List.mem_singleton.mp new]
        exact ⟨persists.isNoteRest isNoteRest, Nat.lt_succ_self handle⟩ }

theorem joins_closeLegacyBeam
    {ties tuplets slurs : Handle} (location : Location)
    (isNoteRest : before.draft.model.IsNoteRest handle)
    (under : before.draft.model.IsUnder scope handle)
    (someWait : before.pending.legacyBeam ≠ [])
    (ready : before.pending.Ready before.draft.model ties tuplets handle
      slurs) :
    JoinsUntil scope ties tuplets (handle + 1) slurs
      (closeLegacyBeam handle location) before := by
  have rising := ready.legacyRising ⟨0, BeamLevels.empty, handle, location⟩ rfl
  have related : Draft.Relates .beam _ before.draft _ :=
    LegacyBeam.relates_close rising someWait fun other listed => by
      rcases List.mem_append.mp listed with old | new
      · exact (ready.legacyMembers other old).1
      · rw [List.mem_singleton.mp new]
        exact isNoteRest
  refine joins_settle under related ?_
    { Pending.AddsOnly.refl handle before.pending with
      legacyBeam := fun other impossible =>
        absurd impossible List.not_mem_nil }
    fun later persists => ?_
  · exact waits_of_mem_offered (fun _ => Pending.legacyBeam_mem_members) rfl
  · exact { ready.raiseBeams.persists persists with
      legacyBeam := List.Pairwise.nil
      legacyMembers := fun other impossible =>
        absurd impossible List.not_mem_nil }

theorem joins_settleLegacyBeam
    {ties tuplets slurs : Handle} (decorations : Decorations)
    (type : NoteType) (node : Node)
    (isNoteRest : before.draft.model.IsNoteRest handle)
    (under : before.draft.model.IsUnder scope handle)
    (ready : before.pending.Ready before.draft.model ties tuplets handle
      slurs) :
    JoinsUntil scope ties tuplets (handle + 1) slurs
      (settleLegacyBeam decorations handle type node) before := by
  have reported : ∀ location problem, problem ≠ .idTaken →
      JoinsUntil scope ties tuplets (handle + 1) slurs
        (report location problem) before :=
    fun location _ other =>
      .of_quiet (reads_report location other) ready.raiseBeams
  have joined := fun location =>
    joins_joinLegacyBeam location isNoteRest under ready
  rw [settleLegacyBeam]
  apply Traces.readPending
  dsimp only
  split
  · rename_i label _
    split
    · split
      · exact reported _ _ (by simp)
      · split
        · refine .read (reads_report _ (by simp)) fun _ middle agrees _ => ?_
          rw [← agrees.draft.model] at isNoteRest under
          rw [← agrees.draft.model, ← agrees.pending] at ready
          exact joins_joinLegacyBeam _ isNoteRest under ready
        · exact joined _
    · split
      · rename_i isOpen
        refine joins_closeLegacyBeam _ isNoteRest under ?_ ready
        intro noneWaits
        rw [noneWaits] at isOpen
        cases isOpen
      · exact reported _ _ (by simp)
    · exact reported _ _ (by simp)
  · split
    · exact joined _
    · exact .pure ready.raiseBeams

/-- Offers the numbered beam of a note or rest, if it has one. -/
def offerBeam (decorations : Decorations) : Analyser Unit :=
  match decorations.beam with
  | some point =>
      settle fun pending draft =>
        let (beams, draft) := Beam.add pending.beams point draft
        ({ pending with beams := beams }, draft)
  | none => pure ()

theorem settleBeams_eq
    (decorations : Decorations) (noteRest : Handle) (type : NoteType)
    (node : Node) :
    settleBeams decorations noteRest type node = (do
      settleLegacyBeam decorations noteRest type node
      offerBeam decorations) :=
  rfl

theorem joins_offerBeam
    {ties tuplets slurs : Handle} {decorations : Decorations}
    (isNoteRest : before.draft.model.IsNoteRest handle)
    (under : before.draft.model.IsUnder scope handle)
    (own : ∀ point, decorations.beam = some point → point.noteRest = handle)
    (ready : before.pending.Ready before.draft.model ties tuplets
      (handle + 1) slurs) :
    JoinsUntil scope ties tuplets (handle + 1) slurs
      (offerBeam decorations) before := by
  rw [offerBeam]
  cases isPoint : decorations.beam with
  | none => exact .pure ready
  | some point =>
      have isOwn := own point isPoint
      have settled := Beam.settles_add ready.beamsWait isOwn
        (forall_offered ready.beamMembers isOwn isNoteRest)
      have kept := kept_of_settles settled isOwn
      refine joins_settle under settled.relates
        (waits_of_mem_offered (fun _ => Pending.beam_mem_members) isOwn)
        { Pending.AddsOnly.refl handle before.pending with beams := kept }
        fun later persists => ?_
      have stays := ready.persists persists
      exact { stays with
        beamsWait := settled.waiting
        beamMembers :=
          forall_kept kept stays.beamMembers (persists.isNoteRest isNoteRest) }

/-! ## Slurs -/

theorem joins_settleSlur
    {ties tuplets beams : Handle} {decorations : Decorations}
    (isNote : decorations.slur.isSome → before.draft.model.IsNote handle)
    (under : before.draft.model.IsUnder scope handle)
    (own : ∀ point, decorations.slur = some point → point.note = handle)
    (ready : before.pending.Ready before.draft.model ties tuplets beams
      handle) :
    JoinsUntil scope ties tuplets beams (handle + 1)
      (settleSlur decorations) before := by
  have ready := ready.raiseSlurs
  rw [settleSlur]
  cases isPoint : decorations.slur with
  | none => exact .pure ready
  | some point =>
      have isOwn := own point isPoint
      have isNote : before.draft.model.IsNote handle :=
        isNote (by rw [isPoint]; rfl)
      have settled := Slur.settles_add ready.slursWait isOwn
        (forall_offered ready.slurNotes isOwn isNote)
      have kept := kept_of_settles settled isOwn
      refine joins_settle under settled.relates
        (waits_of_mem_offered (fun _ => Pending.slur_mem_members) isOwn)
        { Pending.AddsOnly.refl handle before.pending with slurs := kept }
        fun later persists => ?_
      have stays := ready.persists persists
      exact { stays with
        slursWait := settled.waiting
        slurNotes := forall_kept kept stays.slurNotes (persists.isNote isNote) }

/-! ## All relations -/

/-- Settles what notes and rests have in common, and the slur.  Returns the factor
that tuplets apply to the duration. -/
def settleGroups
    (node : Node) (noteRest : Handle) (type : NoteType)
    (decorations : Decorations) : Analyser Float := do
  applyModification noteRest decorations.timeModification
  let factor ← tupletFactor decorations noteRest node
  settleBeams decorations noteRest type node
  settleSlur decorations
  return factor

/-- Only notes have ties, which come first. -/
theorem settleRelations_eq
    (flavor : Flavor) (node : Node) (noteRest : Handle) (type : NoteType)
    (decorations : Decorations) :
    settleRelations flavor node noteRest type decorations =
      if flavor = .rest then settleGroups node noteRest type decorations
      else (do
        settleTies noteRest decorations
        settleGroups node noteRest type decorations) := by
  rw [settleRelations]
  by_cases isRest : flavor = .rest
  · rw [if_pos isRest, if_neg (not_not_intro isRest)]
    rfl
  · rw [if_neg isRest, if_pos isRest]
    rfl

end Analyser

end LdpScore
