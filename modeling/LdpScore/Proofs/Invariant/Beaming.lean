import LdpScore.Proofs.Analysis.Beaming
import LdpScore.Proofs.Analysis.Passage
import LdpScore.Proofs.Analysis.Reporting
import LdpScore.Proofs.Analysis.Run
import LdpScore.Proofs.Invariant.Account
import LdpScore.Proofs.Invariant.Sounding

/-!
# The notes and rests of legacy beams

Where nothing is reported and no element of a numbered beam is written, a beam has
as members all notes and rests from one whose label opens it to the next one whose
label closes it.  Until then they wait, and they are always the last ones that were
played: so it does not matter which chords, tuplets and cursor movements come in
between.
-/

namespace LdpScore

open Analyser

/-- A legacy beam that is given up is reported. -/
theorem Pending.legacyBeam_eq_nil
    {pending : Pending} {draft : Draft}
    (silent : (pending.reportAll draft).diagnostics = #[]) :
    pending.legacyBeam = [] := by
  have reports : Draft.KeepsReports _ (pending.reportAll draft) :=
    (silent_clear_pairing .tuplet pending.tuplets _).reports
  have cleared := reports.nothing silent
  cases waits : pending.legacyBeam with
  | nil => rfl
  | cons start rest =>
      rw [waits] at cleared
      exact absurd cleared Array.push_ne_empty

/-! ## Elements of beams -/

namespace Node

/-- Whether a tree has no element of a beam. -/
def UsesNoBeams (root : Node) : Prop :=
  ∀ node ∈ root.nodes, ¬ node.is .beam

instance (root : Node) : Decidable root.UsesNoBeams :=
  inferInstanceAs (Decidable (∀ node ∈ root.nodes, ¬ node.is .beam))

end Node

/-! ## Beams of a model -/

/-- Notes and rests in a row of which the first opens a beam and the last closes it,
and no other one has a label. -/
inductive BeamGroup : List Written → Prop where
  | group {first last : Written} {inner : List Written} (opens : first.OpensBeam)
      (noLabels : ∀ note ∈ inner, note.beamLabel? = none)
      (closes : last.ClosesBeam) :
      BeamGroup (first :: inner ++ [last])

/-- Notes and rests in a row that wait for the last one of their beam. -/
inductive OpenBeam : List Written → Prop where
  | nothing : OpenBeam []
  | started {first : Written} {inner : List Written} (opens : first.OpensBeam)
      (noLabels : ∀ note ∈ inner, note.beamLabel? = none) :
      OpenBeam (first :: inner)

theorem Content.isRelation_of_beam
    (content : Content) (named : content.name = "beam") :
    content.members?.isSome := by
  rw [members?_isSome_iff, named]
  decide

/-- A beam that is found when one has been created is that one, or it was there
before. -/
theorem Draft.Creates.beam_iff
    {members others : Members} {before after : Draft}
    (created : before.Creates (.beam members) after) (beam : Handle) :
    after.model.content? beam = some (.beam others) ↔
      (beam = before.model.size ∧ others = members) ∨
        before.model.content? beam = some (.beam others) := by
  rw [created.content?]
  split
  · rename_i isNew
    subst isNew
    have noOld : before.model.content? before.model.size ≠
        some (.beam others) :=
      fun found => Nat.lt_irrefl _ (Model.lt_size_of_content? found)
    simp [noOld, eq_comm]
  · rename_i isOld
    have sameContent : (before.model.content? beam).map
        ((Content.beam members).effectOn before.model.size beam) =
          before.model.content? beam := by
      cases before.model.content? beam <;> rfl
    rw [sameContent]
    simp [isOld]

namespace Model

/-- Beams stay as they are. -/
def KeepsBeams (before after : Model) : Prop :=
  ∀ beam members, after.content? beam = some (.beam members) ↔
    before.content? beam = some (.beam members)

theorem KeepsBeams.of_eq
    {before after : Model} (same : after = before) :
    before.KeepsBeams after := by
  subst same
  exact fun _ _ => Iff.rfl

theorem KeepsBeams.of_leaves
    {before after : Model} (leaves : before.Leaves before.size after) :
    before.KeepsBeams after :=
  fun beam members =>
    (leaves.omits Content.isRelation_of_beam).same beam (.beam members) rfl

theorem KeepsBeams.of_adds
    {word : String} {before after : Model} (adds : before.Adds word after)
    (other : "beam" ≠ word) :
    before.KeepsBeams after :=
  fun beam members =>
    (adds.omits other Content.isRelation_of_beam).same beam (.beam members) rfl

/-- The beams of a score are those that the labels of its notes and rests ask for:
each joins notes and rests in a row, no note or rest is in two beams, and each one that
has a label is in a beam. -/
structure BeamsAgree (notes : List Written) (model : Model) : Prop where
  groups : ∀ beam members, model.content? beam = some (.beam members) →
    ∃ group, group <:+: notes ∧ BeamGroup group ∧
      members.map Prod.fst = group.map Written.handle
  single : ∀ noteRest first firstMembers second secondMembers,
    model.content? first = some (.beam firstMembers) →
    model.content? second = some (.beam secondMembers) →
    noteRest ∈ firstMembers.map Prod.fst →
    noteRest ∈ secondMembers.map Prod.fst →
      first = second
  labelled : ∀ note ∈ notes, note.beamLabel?.isSome →
    ∃ beam members, model.content? beam = some (.beam members) ∧
      note.handle ∈ members.map Prod.fst

namespace BeamsAgree

variable {notes : List Written} {before after model : Model}

theorem empty : BeamsAgree [] ({} : Model) := by
  have nothing : ∀ beam members,
      ({} : Model).content? beam ≠ some (.beam members) :=
    fun beam members found =>
      absurd (lt_size_of_content? found) (Nat.not_lt_zero beam)
  exact ⟨fun beam members found => absurd found (nothing beam members),
    fun _ first firstMembers _ _ found _ =>
      absurd found (nothing first firstMembers), nofun⟩

theorem keep
    (agree : before.BeamsAgree notes) (keeps : before.KeepsBeams after) :
    after.BeamsAgree notes := by
  refine ⟨fun beam members found =>
    agree.groups beam members ((keeps beam members).mp found),
    fun noteRest first firstMembers second secondMembers isFirst isSecond =>
      agree.single noteRest first firstMembers second secondMembers
        ((keeps first firstMembers).mp isFirst)
        ((keeps second secondMembers).mp isSecond),
    fun note listed isLabelled => ?_⟩
  obtain ⟨beam, members, found, isMember⟩ :=
    agree.labelled note listed isLabelled
  exact ⟨beam, members, (keeps beam members).mpr found, isMember⟩

/-- The members of a beam are among the notes and rests. -/
theorem mem_of_member
    (agree : model.BeamsAgree notes) {beam : Handle} {members : Members}
    (found : model.content? beam = some (.beam members)) {noteRest : Handle}
    (isMember : noteRest ∈ members.map Prod.fst) :
    noteRest ∈ notes.map Written.handle := by
  obtain ⟨group, part, _, same⟩ := agree.groups beam members found
  rw [same] at isMember
  exact (part.sublist.map Written.handle).subset isMember

/-- One more note or rest has no label. -/
theorem concat
    (agree : model.BeamsAgree notes) {note : Written}
    (noLabel : note.beamLabel? = none) :
    model.BeamsAgree (notes ++ [note]) := by
  refine ⟨fun beam members found => ?_, agree.single, ?_⟩
  · obtain ⟨group, part, isGroup⟩ := agree.groups beam members found
    exact ⟨group, part.trans (List.prefix_append ..).isInfix, isGroup⟩
  · refine List.forall_mem_append.mpr ⟨agree.labelled, ?_⟩
    refine List.forall_mem_singleton.mpr fun isLabelled => ?_
    rw [noLabel] at isLabelled
    cases isLabelled

/-- One more beam is complete. -/
theorem complete
    {earlier later : Draft} (agree : earlier.model.BeamsAgree notes)
    {group : List Written} (isGroup : BeamGroup group) {members : Members}
    (same : members.map Prod.fst = group.map Written.handle)
    (created : earlier.Creates (.beam members) later)
    (distinct : ((notes ++ group).map Written.handle).Nodup) :
    later.model.BeamsAgree (notes ++ group) := by
  -- A member of an old beam is none of the new one.
  have apart : ∀ {beam others noteRest},
      earlier.model.content? beam = some (.beam others) →
        noteRest ∈ others.map Prod.fst → noteRest ∉ members.map Prod.fst := by
    intro beam others noteRest found isMember isNew
    rw [List.map_append, List.nodup_append] at distinct
    rw [same] at isNew
    exact distinct.2.2 _ (agree.mem_of_member found isMember) _ isNew rfl
  refine ⟨fun beam others found => ?_, ?_, ?_⟩
  · rcases (created.beam_iff beam).mp found with ⟨rfl, rfl⟩ | isOld
    · exact ⟨group, (List.suffix_append ..).isInfix, isGroup, same⟩
    · obtain ⟨other, part, isOther⟩ := agree.groups beam others isOld
      exact ⟨other, part.trans (List.prefix_append ..).isInfix, isOther⟩
  · intro noteRest first firstMembers second secondMembers isFirst isSecond
      inFirst inSecond
    rcases (created.beam_iff first).mp isFirst with ⟨rfl, rfl⟩ | firstIsOld
    · rcases (created.beam_iff second).mp isSecond
        with ⟨rfl, rfl⟩ | secondIsOld
      · rfl
      · exact absurd inFirst (apart secondIsOld inSecond)
    · rcases (created.beam_iff second).mp isSecond
        with ⟨rfl, rfl⟩ | secondIsOld
      · exact absurd inSecond (apart firstIsOld inFirst)
      · exact agree.single noteRest first firstMembers second secondMembers
          firstIsOld secondIsOld inFirst inSecond
  · refine List.forall_mem_append.mpr ⟨fun note listed isLabelled => ?_,
      fun note listed _ => ?_⟩
    · obtain ⟨beam, others, isOld, isMember⟩ :=
        agree.labelled note listed isLabelled
      exact ⟨beam, others, (created.beam_iff beam).mpr (Or.inr isOld), isMember⟩
    · refine ⟨earlier.model.size, members,
        (created.beam_iff _).mpr (Or.inl ⟨rfl, rfl⟩), ?_⟩
      rw [same]
      exact List.mem_map_of_mem listed

end BeamsAgree

end Model

/-! ## What is complete and what waits -/

namespace Analysis

/-- Of some notes and rests in order the last ones may wait for the end of a beam,
and all beams of the others are complete. -/
def HoldsBeams (notes : List Written) (state : Analysis) : Prop :=
  ∃ closed opened, closed ++ opened = notes ∧
    state.draft.model.BeamsAgree closed ∧ OpenBeam opened ∧
    state.pending.legacyBeam.map BeamPoint.noteRest =
      opened.map Written.handle

theorem HoldsBeams.keep
    {notes : List Written} {before after : Analysis}
    (holds : before.HoldsBeams notes)
    (keeps : before.draft.model.KeepsBeams after.draft.model)
    (waits : after.pending.legacyBeam = before.pending.legacyBeam) :
    after.HoldsBeams notes := by
  obtain ⟨closed, opened, inOrder, agree, isOpen, sameWait⟩ := holds
  exact ⟨closed, opened, inOrder, agree.keep keeps, isOpen, waits ▸ sameWait⟩

/-- Where no beam is open, all of them are complete. -/
theorem HoldsBeams.agree
    {notes : List Written} {state : Analysis} (holds : state.HoldsBeams notes)
    (noBeam : state.pending.legacyBeam = []) :
    state.draft.model.BeamsAgree notes := by
  obtain ⟨closed, opened, rfl, agree, _, sameWait⟩ := holds
  rw [noBeam, List.map_nil, eq_comm, List.map_eq_nil_iff] at sameWait
  rw [sameWait, List.append_nil]
  exact agree

/-- A beam that is open has been started. -/
theorem HoldsBeams.started
    {notes : List Written} {state : Analysis} (holds : state.HoldsBeams notes)
    (isOpen : state.pending.legacyBeam ≠ []) :
    ∃ closed first inner, closed ++ first :: inner = notes ∧
      state.draft.model.BeamsAgree closed ∧ first.OpensBeam ∧
      (∀ note ∈ inner, note.beamLabel? = none) ∧
      state.pending.legacyBeam.map BeamPoint.noteRest =
        (first :: inner).map Written.handle := by
  obtain ⟨closed, opened, inOrder, agree, started, sameWait⟩ := holds
  cases started with
  | nothing => exact absurd (List.map_eq_nil_iff.mp sameWait) isOpen
  | started opens noLabels =>
      exact ⟨closed, _, _, inOrder, agree, opens, noLabels, sameWait⟩

end Analysis

/-- One more note or rest waits for the end of a beam. -/
theorem BeamPoint.map_concat
    {waiting : List BeamPoint} {opened : List Written}
    (same : waiting.map BeamPoint.noteRest = opened.map Written.handle)
    {point : BeamPoint} {note : Written} (isOwn : point.noteRest = note.handle) :
    (waiting ++ [point]).map BeamPoint.noteRest =
      (opened ++ [note]).map Written.handle := by
  rw [List.map_append, List.map_append, same, List.map_singleton,
    List.map_singleton, isOwn]

/-- At its turn a note or rest without a report is one of those that wait, or it
completes their beam, or it has nothing to do with beams. -/
theorem Beaming.holdsBeams
    {notes : List Written} {note : Written} {before after : Analysis}
    (beaming : Beaming note before after) (silent : after.draft.diagnostics = #[])
    (holds : before.HoldsBeams notes)
    (noteRests : before.draft.model.noteRests =
      (notes ++ [note]).map Written.handle) :
    after.HoldsBeams (notes ++ [note]) := by
  cases beaming with
  | told _ reported => exact absurd silent reported
  | apart noLabel noBeam =>
      refine ⟨notes ++ [note], [], List.append_nil _,
        (holds.agree noBeam).concat noLabel, .nothing, ?_⟩
      rw [noBeam]
      rfl
  | opens point isOwn opens noBeam =>
      refine ⟨notes, [note], rfl, holds.agree noBeam, .started opens nofun, ?_⟩
      have noneWait : before.pending.legacyBeam.map BeamPoint.noteRest =
          List.map Written.handle [] := by
        rw [noBeam, List.map_nil, List.map_nil]
      exact BeamPoint.map_concat noneWait isOwn
  | joins point isOwn noLabel isOpen =>
      obtain ⟨closed, first, inner, rfl, agree, opens, noLabels, sameWait⟩ :=
        holds.started isOpen
      refine ⟨closed, first :: (inner ++ [note]), ?_, agree, .started opens ?_,
        BeamPoint.map_concat sameWait isOwn⟩
      · rw [List.append_assoc, List.cons_append]
      · exact List.forall_mem_append.mpr
          ⟨noLabels, List.forall_mem_singleton.mpr noLabel⟩
  | closes point isOwn closes isOpen =>
      obtain ⟨closed, first, inner, rfl, agree, opens, noLabels, sameWait⟩ :=
        holds.started isOpen
      have chain := BeamPoint.map_concat sameWait isOwn
      rw [List.append_assoc] at noteRests ⊢
      have old : ∀ other ∈ before.pending.legacyBeam ++ [point],
          other.noteRest < before.draft.model.size := by
        intro other listed
        have isGroup : other.noteRest ∈
            (first :: inner ++ [note]).map Written.handle := by
          rw [← chain]
          exact List.mem_map_of_mem listed
        have isNoteRest : other.noteRest ∈ before.draft.model.noteRests := by
          rw [noteRests, List.map_append]
          exact List.mem_append_right _ isGroup
        exact (Model.mem_noteRests_iff.mp isNoteRest).lt_size
      obtain ⟨members, same, _, created⟩ :=
        Beam.exists_creates_linkChain old true
      refine ⟨_, [], List.append_nil _, ?_, .nothing, rfl⟩
      exact agree.complete (.group opens noLabels closes) (same.trans chain)
        created (noteRests ▸ before.draft.model.nodup_noteRests)

/-! ## Notes and rests -/

/-- What is known when some notes and rests have been played. -/
structure Analysis.Beamed (notes : List Written) (state : Analysis) : Prop where
  chords : state.draft.model.LinksChords
  noteRests : state.draft.model.noteRests = notes.map Written.handle
  beams : state.HoldsBeams notes

/-- What is known of a note or rest when its turn comes: it is the newest one, and
after the turn of the legacy beam it has its place there, if nothing was reported. -/
structure BeamsSettled
    (notes : List Written) (note : Written) (turn : Turn) (state : Analysis) :
    Prop where
  chords : state.draft.model.LinksChords
  noteRests : state.draft.model.noteRests =
    (notes ++ [note]).map Written.handle
  beams : state.draft.diagnostics = #[] → state.HoldsBeams
    (if turn.position ≤ Turn.legacyBeam.position then notes
      else notes ++ [note])

namespace BeamsSettled

variable {notes : List Written} {note : Written} {state : Analysis}
variable {turn : Turn}

theorem take
    {decorations : Decorations} (value : NoteValue)
    (settled : BeamsSettled notes note turn state)
    (isRead : decorations.legacyBeam = note.beamLabel?)
    (noPoint : decorations.beam = none) :
    Ensures (turn.action note value decorations) state fun _ after =>
      BeamsSettled notes note turn.next after := by
  have endures : state.draft.model.Endures
      ((turn.action note value decorations).run state).run.2.draft.model :=
    endures_action note value decorations turn
  have reports : state.draft.KeepsReports
      ((turn.action note value decorations).run state).run.2.draft :=
    keepsReports_action turn
  refine ⟨settled.chords.of_finds
    (fun handle chord => (endures.links handle chord).mp) endures.names,
    endures.noteRests.trans settled.noteRests, fun silent => ?_⟩
  have holds := settled.beams (reports.nothing silent)
  by_cases isLegacyBeam : turn = .legacyBeam
  · subst isLegacyBeam
    have beaming : Beaming note state _ :=
      beaming_settleLegacyBeam isRead noPoint value.type
    exact beaming.holdsBeams silent holds settled.noteRests
  · have sameNotes : (if turn.next.position ≤ Turn.legacyBeam.position then notes
        else notes ++ [note]) =
          if turn.position ≤ Turn.legacyBeam.position then notes
          else notes ++ [note] := by
      cases turn <;> first | rfl | exact absurd rfl isLegacyBeam
    have changes : turn.Changes state.pending
        ((turn.action note value decorations).run state).run.2.pending :=
      changes_action turn
    rw [sameNotes]
    refine holds.keep ?_ ?_
    · by_cases isBeam : turn = .beam
      · subst isBeam
        have idle : (Turn.beam.action note value decorations) = pure () := by
          rw [Turn.action, offerBeam, noPoint]
        rw [idle]
        exact .of_eq rfl
      · refine .of_adds (adds_action turn) ?_
        cases turn <;> simp_all [Turn.word]
    · exact changes.same_legacyBeam isLegacyBeam

/-- The chord of a note does not concern beams. -/
theorem join
    (settled : BeamsSettled notes note .chord state) (base : Handle) :
    BeamsSettled notes note .chord
      { state with draft := joinChord base note.handle state.draft } := by
  obtain ⟨adds, linked⟩ := adds_joinChord settled.chords base note.handle
  refine ⟨linked, (adds.noteRests (by simp)).trans settled.noteRests,
    fun silent => ?_⟩
  exact (settled.beams ((diagnostics_joinChord ..).symm.trans silent)).keep
    (.of_adds adds (by simp)) rfl

end BeamsSettled

namespace Analyser

/-- A note or rest that is played without a report has its place in the beams. -/
theorem beamed_analyseNoteRest
    {notes : List Written} {state : Analysis} (flavor : Flavor) (node : Node)
    (anchor : Option Handle) (beamed : state.Beamed notes)
    (noBeams : ∀ child ∈ node.children, ¬ child.is .beam) :
    Ensures (analyseNoteRest flavor node anchor) state fun handle after =>
      after.draft.diagnostics = #[] →
        after.Beamed (notes ++ [⟨handle, flavor, node⟩]) := by
  rw [analyseNoteRest]
  apply Ensures.readContext
  dsimp only
  generalize (if flavor = .chordNote then state.context.lastNote else none) = base
  have added : Ensures (addNoteRest flavor node anchor base) state
      fun result after => Introduced flavor state result after ∧
        Written.Says ⟨result.1, flavor, node⟩ result.2.2 ∧
        result.2.2.legacyBeam = Written.beamLabel? ⟨result.1, flavor, node⟩ :=
    ⟨introduced_addNoteRest node anchor base state,
      yields_addNoteRest flavor node anchor base state,
      yields_addNoteRest_legacyBeam flavor node anchor base state⟩
  apply added.bind
  rintro ⟨handle, value, decorations⟩ middle ⟨introduced, decorated, isRead⟩
  let note : Written := ⟨handle, flavor, node⟩
  have leaves := introduced.leaves
  have noteRests : middle.draft.model.noteRests =
      (notes ++ [note]).map Written.handle := by
    rw [introduced.noteRests, beamed.noteRests, List.map_append]
    rfl
  have started : BeamsSettled notes note (Turn.first flavor) middle := by
    refine ⟨beamed.chords.of_finds leaves.model.findsNoChord leaves.model.names,
      noteRests, fun _ => ?_⟩
    rw [if_pos (by cases flavor <;> decide)]
    exact beamed.beams.keep (.of_leaves leaves.model)
      (congrArg Pending.legacyBeam leaves.pending)
  have settled : Ensures
      (settleNoteRest flavor node base handle value decorations) middle
      fun _ last => BeamsSettled notes note .chord last :=
    turns_settleNoteRest note base value (BeamsSettled notes note)
      (fun turn _ settled =>
        settled.take value isRead (decorated.beam_eq_none noBeams))
      (fun last _ settled => settled.join last)
      (fun _ _ settled => ⟨settled.chords, settled.noteRests, settled.beams⟩)
      started
  apply settled.bind
  rintro _ last ⟨chords, noteRests, beams⟩ silent
  exact ⟨chords, noteRests, beams silent⟩

end Analyser

/-! ## Whole texts -/

/-- What is played at a cue. -/
def Cue.played? : Cue → Option (Flavor × Node)
  | instrument => none
  | play flavor node => some (flavor, node)

/-- Some notes and rests are played when some cues are given. -/
def Written.ArePlayed (notes : List Written) (cues : List Cue) : Prop :=
  notes.map (fun note => (note.flavor, note.node)) = cues.filterMap Cue.played?

/-- A silent performance leaves all beams complete but the last one. -/
theorem Performs.beamed
    {cues : List Cue} {before after : Analysis} {notes : List Written}
    (performs : Performs cues before after) (beamed : before.Beamed notes)
    (noBeams : ∀ node ∈ Cue.nodes cues,
      ∀ child ∈ node.children, ¬ child.is .beam)
    (silent : after.draft.diagnostics = #[]) :
    ∃ more, Written.ArePlayed more cues ∧ after.Beamed (notes ++ more) := by
  induction performs generalizing notes with
  | done state =>
      refine ⟨[], rfl, ?_⟩
      rw [List.append_nil]
      exact beamed
  | aside aside _ induction =>
      have leaves := aside.model
      refine induction ⟨?_, aside.noteRests.trans beamed.noteRests, ?_⟩ noBeams
        silent
      · exact beamed.chords.of_finds leaves.findsNoChord leaves.names
      · exact beamed.beams.keep (.of_leaves leaves)
          (congrArg Pending.legacyBeam aside.pending)
  | @flush _ first _ performs induction =>
      have same : (clearPending.run first).run.2.draft.model =
          first.draft.model :=
        (first.pending.silent_reportAll first.draft).model
      have noBeam : first.pending.legacyBeam = [] :=
        Pending.legacyBeam_eq_nil (performs.keepsReports.nothing silent)
      refine induction ⟨?_, ?_, ?_⟩ noBeams silent
      · rw [same]
        exact beamed.chords
      · rw [same]
        exact beamed.noteRests
      · exact beamed.beams.keep (.of_eq same) noBeam.symm
  | start _ induction =>
      exact induction ⟨beamed.chords, beamed.noteRests, beamed.beams⟩ noBeams
        silent
  | @play flavor node _ first _ anchor performs induction =>
      have played := beamed_analyseNoteRest flavor node anchor beamed
        (noBeams node (List.mem_cons_self ..))
        (performs.keepsReports.nothing silent)
      obtain ⟨more, arePlayed, beamedThen⟩ := induction played
        (fun other listed => noBeams other (List.mem_cons_of_mem _ listed))
        silent
      rw [← List.append_cons] at beamedThen
      refine ⟨_, ?_, beamedThen⟩
      exact congrArg ((flavor, node) :: ·) arePlayed

/-- Some notes and rests are all that a model has of them, and they are played in
the order of the tree. -/
structure Model.Plays
    (root : Node) (notes : List Written) (model : Model) : Prop where
  handles : notes.map Written.handle = model.noteRests
  arePlayed : Written.ArePlayed notes root.cues
  inOrder : (notes.map Written.node).Sublist root.nodes

/-- The beams of an analysed tree. -/
theorem beamsAgree_analyse
    {root : Node} (noBeams : root.UsesNoBeams) (silent : (analyse root).2 = #[]) :
    ∃ notes, (analyse root).1.Plays root notes ∧
      (analyse root).1.BeamsAgree notes := by
  have nothing : Analysis.Beamed [] {} := by
    refine ⟨fun note chord known => ?_, rfl, [], [], rfl, .empty, .nothing, rfl⟩
    obtain ⟨content, isContent, _⟩ := Option.bind_eq_some_iff.mp known
    exact absurd (Model.lt_size_of_content? isContent) (Nat.not_lt_zero note)
  obtain ⟨notes, arePlayed, beamed⟩ := (performs_analyse root).beamed nothing
    (fun node listed child isChild => noBeams child
      (Node.children_subset_nodes root (root.nodes_cues.subset listed) isChild))
    silent
  have idle : ((analyseRoot root).run {}).run.2.pending = {} :=
    (passes_analyseRoot root).2
  have nodes : notes.map Written.node = Cue.nodes root.cues := by
    have both := congrArg (List.map Prod.snd) arePlayed
    rw [List.map_map, List.map_filterMap] at both
    refine both.trans (congrArg (root.cues.filterMap ·) (funext fun cue => ?_))
    cases cue <;> rfl
  refine ⟨notes, ⟨beamed.noteRests.symm, arePlayed, ?_⟩, ?_⟩
  · rw [nodes]
    exact root.nodes_cues
  · exact beamed.beams.agree (congrArg Pending.legacyBeam idle)

/-- The beams of every text without a report and without elements of beams: each has
as members all notes and rests, in order, from one that is labelled as its start to
the next one that is labelled as its end. -/
theorem beamsAgree_analyseSource
    (source file : String) {model : Model} {root : Node}
    (accepted : (analyseSource source file).result = .ok model)
    (isTree : (Node.read (Token.lex source file)).result = .ok root)
    (noBeams : root.UsesNoBeams)
    (silent : (analyseSource source file).diagnostics = #[]) :
    ∃ notes, model.Plays root notes ∧ model.BeamsAgree notes := by
  obtain ⟨other, isTreeToo, rfl, reports⟩ := exists_tree_of_accepted accepted
  rw [isTree] at isTreeToo
  cases isTreeToo
  rw [reports] at silent
  exact beamsAgree_analyse noBeams (Array.append_eq_empty_iff.mp silent).2

/-- A beam goes on over a chord and a rest, and after the cursor has gone back. -/
theorem beamsAgree_over_chord :
    ∃ model root,
      (analyseSource
        ("(score (vers 2.0) (instrument (musicData (n c4 e g+) " ++
          "(chord (n e4 e) (n g4 e)) (r e) (goBack e) (clef F4) " ++
          "(n f4 e g-) (n g4 q))))") "").result = .ok model ∧
      root.UsesNoBeams ∧
      (analyseSource
        ("(score (vers 2.0) (instrument (musicData (n c4 e g+) " ++
          "(chord (n e4 e) (n g4 e)) (r e) (goBack e) (clef F4) " ++
          "(n f4 e g-) (n g4 q))))") "").diagnostics = #[] ∧
      (model.content? 11).map Content.memberHandles = some [3, 4, 5, 7, 10] ∧
      ∃ notes, model.Plays root notes ∧ model.BeamsAgree notes := by
  obtain ⟨model, accepted, members⟩ := exists_model_of_any
    (fun model =>
      (model.content? 11).map Content.memberHandles = some [3, 4, 5, 7, 10])
    (by decide +kernel : (analyseSource
      ("(score (vers 2.0) (instrument (musicData (n c4 e g+) " ++
        "(chord (n e4 e) (n g4 e)) (r e) (goBack e) (clef F4) " ++
        "(n f4 e g-) (n g4 q))))") "").result.toOption.any _)
  obtain ⟨root, isTree, noBeams⟩ := exists_tree_of_any
    (fun root => root.UsesNoBeams)
    (by decide +kernel : (Node.read (Token.lex
      ("(score (vers 2.0) (instrument (musicData (n c4 e g+) " ++
        "(chord (n e4 e) (n g4 e)) (r e) (goBack e) (clef F4) " ++
        "(n f4 e g-) (n g4 q))))") "")).result.toOption.any _)
  have noBeams := of_decide_eq_true noBeams
  have silent : (analyseSource
      ("(score (vers 2.0) (instrument (musicData (n c4 e g+) " ++
        "(chord (n e4 e) (n g4 e)) (r e) (goBack e) (clef F4) " ++
        "(n f4 e g-) (n g4 q))))") "").diagnostics = #[] :=
    Array.isEmpty_iff.mp (by decide +kernel)
  exact ⟨model, root, accepted, noBeams, silent, of_decide_eq_true members,
    beamsAgree_analyseSource _ _ accepted isTree noBeams silent⟩

end LdpScore
