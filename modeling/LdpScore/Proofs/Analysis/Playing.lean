import LdpScore.Proofs.Analysis.Moment

/-!
# Music

Between two elements of the music an analysis is `Analysis.Ready`: all that waits
is in order, and the last note is one.  A note, a rest, a chord and any other staff
object leave it so, and all that they join are notes and rests under one parent.
-/

namespace LdpScore

/-- What holds between two elements. -/
structure Analysis.Ready (state : Analysis) : Prop where
  pending : state.pending.Ready state.draft.model state.draft.model.size
    state.draft.model.size state.draft.model.size state.draft.model.size
  lastNote : ∀ handle, state.context.lastNote = some handle →
    state.draft.model.IsNote handle
  chords : state.draft.model.ChordsBelow state.draft.model.size

theorem Edits.ready
    {nodes : List Node} {before after : Analysis}
    (edits : Edits nodes before after) (ready : before.Ready) :
    after.Ready := by
  have le := edits.size_le
  constructor
  · rw [edits.pending]
    exact (ready.pending.persists edits.model.persists).mono le le le le
  · intro handle isLast
    rw [edits.lastNote] at isLast
    exact edits.model.persists.isNote (ready.lastNote handle isLast)
  · exact (ready.chords.of_extends edits.model).mono le

theorem Analysis.Agrees.ready
    {before after : Analysis} (agrees : before.Agrees after)
    (ready : before.Ready) :
    after.Ready :=
  (Edits.of_agrees agrees).ready ready

/-- Music is played: some nodes become objects under one parent, which are joined
with each other. -/
structure Plays
    (scope : Option Handle) (nodes : List Node) (before after : Analysis) :
    Prop where
  builds : Builds nodes scope scope before after
  persists : before.draft.model.Persists after.draft.model
  advances : Advances nodes before after

theorem Edits.plays
    {nodes : List Node} {before after : Analysis}
    (edits : Edits nodes before after) (scope : Option Handle) :
    Plays scope nodes before after :=
  ⟨edits.builds scope, edits.model.persists, .of_amends edits.amends⟩

instance (scope : Option Handle) : Tracing (Plays scope) where
  of_agrees agrees := (Edits.of_agrees agrees).plays scope
  trans earlier later :=
    ⟨earlier.builds.trans later.builds, earlier.persists.trans later.persists,
      earlier.advances.trans later.advances⟩
  mono plays part :=
    ⟨plays.builds.mono part, plays.persists, plays.advances.mono part⟩

theorem Plays.hasAnchor
    {nodes : List Node} {scope anchor : Option Handle}
    {before after : Analysis} (plays : Plays scope nodes before after)
    (anchored : before.draft.model.HasAnchor anchor) :
    after.draft.model.HasAnchor anchor :=
  anchored.mono plays.persists.size_le

namespace Analyser

variable {before : Analysis} {scope : Option Handle} {handle : Handle}
variable {flavor : Flavor}

/-- A step plays some nodes and leaves the score ready, and a condition holds
afterwards. -/
abbrev PlaysWith
    {Value : Type} (scope : Option Handle) (nodes : List Node)
    (action : Analyser Value) (before : Analysis)
    (post : Value → Analysis → Prop) : Prop :=
  Traces (Plays scope) nodes action before fun value after =>
    after.Ready ∧ post value after

theorem EditsWith.plays
    {Value : Type} {nodes : List Node} {action : Analyser Value}
    {post : Value → Analysis → Prop}
    (edits : EditsWith nodes action before post) (ready : before.Ready) :
    PlaysWith scope nodes action before post := by
  apply Ensures.mono edits
  rintro value after ⟨edited, holds⟩
  exact ⟨edited.plays scope, edited.ready ready, holds⟩

/-! ## The end of a note or rest -/

/-- What joining a chord or moving on leaves as it was. -/
structure Closes
    (scope : Option Handle) (handle : Handle) (before after : Analysis) :
    Prop where
  builds : Builds [] scope scope before after
  persists : before.draft.model.Persists after.draft.model
  pending : after.pending = before.pending
  lastNote : after.context.lastNote = before.context.lastNote
  chords : after.draft.model.ChordsBelow after.draft.model.size
  run : ∀ written note value decorations, note.handle = handle →
    Moment.Run ⟨before, written, .settling note value decorations .chord⟩
      ⟨after, written, .settling note value decorations .chord⟩

/-- Joining the last note closes a note, whether or not that one has a chord. -/
theorem closes_joinChord
    {base : Handle}
    (isLast : before.context.lastNote = some base)
    (baseIs : before.draft.model.IsNote base) (ordered : base < handle)
    (isNote : before.draft.model.IsNote handle)
    (under : before.draft.model.IsUnder scope handle)
    (newest : before.draft.model.ChordsBelow handle) :
    Ensures (settle fun pending draft =>
        (pending, joinChord base handle draft)) before
      fun _ after => Closes scope handle before after := by
  have inside := isNote.lt_size
  have run : ∀ written note value decorations, note.handle = handle →
      Moment.Run ⟨before, written, .settling note value decorations .chord⟩
        ⟨{ before with draft := joinChord base handle before.draft }, written,
          .settling note value decorations .chord⟩ := by
    rintro written note value decorations rfl
    exact .single (.sound before written note value decorations base baseIs
      isNote)
  rcases joined : (before.draft.model.note? base).bind Note.chord
    with _ | chord
  · have created := creates_joinChord joined baseIs.lt_size inside
    have builds : Builds [] scope scope before
        { before with draft := joinChord base handle before.draft } := by
      refine ⟨[none], List.Sublist.slnil, fun earlier => ?_⟩
      refine .single (.relate ⟨before, scope, earlier⟩ _ created
        (admits_chord baseIs isNote ordered) ?_)
      intro member listed
      rcases List.mem_cons.mp listed with rfl | isHandle
      · exact Or.inl (Or.inr isLast)
      · rw [List.mem_singleton.mp isHandle]
        exact Or.inr under
    constructor
    · exact builds
    · exact created.persists
    · rfl
    · rfl
    · show Model.ChordsBelow (joinChord base handle before.draft).model
        (joinChord base handle before.draft).model.size
      rw [created.size]
      refine created.chordsBelow ?_ (newest.mono (Nat.le_of_lt inside))
      intro member listed
      rcases List.mem_cons.mp listed with rfl | isHandle
      · exact baseIs.lt_size
      · rw [List.mem_singleton.mp isHandle]
        exact inside
    · exact run
  · have persists : before.draft.model.Persists
        (joinChord base handle before.draft).model :=
      persists_joinChord joined
    have builds : Builds [] scope scope before
        { before with draft := joinChord base handle before.draft } :=
      .single fun earlier =>
        .sound ⟨before, scope, earlier⟩ (Or.inr isLast) joined isNote under
          newest
    constructor
    · exact builds
    · exact persists
    · rfl
    · rfl
    · have insideLater :
          handle < (joinChord base handle before.draft).model.size :=
        Nat.lt_of_lt_of_le inside persists.size_le
      exact chordsBelow_joinChord joined
        (newest.mono (Nat.le_of_lt insideLater)) insideLater
    · exact run

theorem closes_joinOrAdvance
    {base : Option Handle} (duration : Float)
    (isLast : ∀ last, base = some last →
      before.context.lastNote = some last)
    (baseIs : ∀ last, base = some last →
      before.draft.model.IsNote last ∧ last < handle)
    (isNote : base.isSome → before.draft.model.IsNote handle)
    (inside : handle < before.draft.model.size)
    (under : before.draft.model.IsUnder scope handle)
    (newest : before.draft.model.ChordsBelow handle) :
    Ensures (joinOrAdvance base handle duration) before
      fun _ after => Closes scope handle before after := by
  cases base with
  | none =>
      have quiet : Reads (modifyContext fun context =>
          { context with clock := context.clock.advance duration }) :=
        reads_modifyContext fun _ => rfl
      apply Ensures.mono (quiet before)
      rintro _ after ⟨agrees, _⟩
      have edits := Edits.of_agrees agrees
      refine ⟨edits.builds scope, edits.model.persists, edits.pending,
        edits.lastNote, ?_, fun written note value decorations _ => ?_⟩
      · exact (newest.of_extends edits.model).mono
          (Nat.le_trans (Nat.le_of_lt inside) edits.size_le)
      · exact .single (.amend ⟨before, written, _⟩ edits.amends)
  | some last =>
      exact closes_joinChord (isLast last rfl) (baseIs last rfl).1
        (baseIs last rfl).2 (isNote rfl) under newest

/-- A note becomes the last one. -/
theorem builds_setLastNote
    (under : before.draft.model.IsUnder scope handle) :
    Builds [] scope scope before
      { before with
        context := { before.context with lastNote := some handle } } := by
  refine .single fun earlier => .attend ⟨before, scope, earlier⟩ (.refl _) ?_
  intro member awaited
  rcases awaited with waits | isLast
  · exact Or.inl (Or.inl waits)
  · cases isLast
    exact Or.inr under

/-! ## A whole note or rest -/

/-- What is known when a note or rest has been added to a score that was ready. -/
structure IsNewest
    (flavor : Flavor) (scope base : Option Handle)
    (handle : Handle) (decorations : Decorations) (state : Analysis) :
    Prop where
  isNote : flavor ≠ .rest → state.draft.model.IsNote handle
  isNoteRest : state.draft.model.IsNoteRest handle
  under : state.draft.model.IsUnder scope handle
  areOf : decorations.AreOf flavor handle
  waiting : state.pending.Ready state.draft.model handle handle handle handle
  lastNote : ∀ last, state.context.lastNote = some last →
    state.draft.model.IsNote last ∧ last < handle
  chords : state.draft.model.ChordsBelow handle
  isBase : ∀ last, base = some last → state.context.lastNote = some last
  baseOfNote : base.isSome → flavor ≠ .rest

/-- The first turn of the newest note or rest has come. -/
theorem IsNewest.due
    {note : Written} {base : Option Handle} {decorations : Decorations}
    (newest : IsNewest note.flavor scope base note.handle decorations before) :
    (Turn.first note.flavor).Due note decorations before := by
  refine ⟨newest.isNote, newest.isNoteRest, newest.areOf, ?_, fun isRest => ?_⟩
  · cases note.flavor with
    | rest => exact newest.waiting.raiseTies
    | note => exact newest.waiting
    | chordNote => exact newest.waiting
  · rw [isRest]
    exact ⟨nofun, nofun⟩

/-- Every relation but the chord is settled at the newest note or rest. -/
theorem reaches_settleRelations
    {note : Written} {decorations : Decorations} {base : Option Handle}
    (value : NoteValue)
    (newest : IsNewest note.flavor scope base note.handle decorations before) :
    Ensures
      (settleRelations note.flavor note.node note.handle value.type decorations)
      before fun _ after =>
        Reaches scope note value decorations (Turn.first note.flavor) .chord
          before after := by
  have start : Reaches scope note value decorations (Turn.first note.flavor)
      (Turn.first note.flavor) before before := .refl newest.due newest.under
  exact turns_settleRelations value
    (fun turn state => Reaches scope note value decorations
      (Turn.first note.flavor) turn before state)
    (fun _ _ reaches => reaches.take) start

/-- What is known when a note or rest has been settled. -/
structure Settled
    (scope : Option Handle) (note : Written) (value : NoteValue)
    (decorations : Decorations) (before after : Analysis) : Prop where
  builds : Builds [] scope scope before after
  persists : before.draft.model.Persists after.draft.model
  ready : after.Ready
  run : ∀ written, Moment.Run
    ⟨before, written,
      .settling note value decorations (Turn.first note.flavor)⟩
    ⟨after, written, .between⟩

/-- A note or rest is settled, and the score is ready for the next element. -/
theorem settled_settleNoteRest
    (note : Written) {decorations : Decorations} {base : Option Handle}
    (value : NoteValue)
    (newest : IsNewest note.flavor scope base note.handle decorations before) :
    Ensures
      (settleNoteRest note.flavor note.node base note.handle value decorations)
      before fun _ after => Settled scope note value decorations before after
      := by
  rw [settleNoteRest]
  apply Ensures.bind (reaches_settleRelations value newest)
  intro factor middle reaches
  have joins := reaches.joins
  have persists := joins.model.persists
  have inside : note.handle < middle.draft.model.size :=
    Nat.lt_of_lt_of_le newest.isNoteRest.lt_size persists.size_le
  have closes := closes_joinOrAdvance
    (value.units * (decorations.timeModification.map
      TimeModification.ratio).getD factor)
    (fun last isBase => joins.lastNote.trans (newest.isBase last isBase))
    (fun last isBase =>
      have facts := newest.lastNote last (newest.isBase last isBase)
      ⟨persists.isNote facts.1, facts.2⟩)
    (fun isBase => persists.isNote (newest.isNote (newest.baseOfNote isBase)))
    inside reaches.under (newest.chords.of_extends joins.model)
  apply Ensures.bind closes
  intro _ last closed
  have le := closed.persists.size_le
  have waiting : last.pending.Ready last.draft.model last.draft.model.size
      last.draft.model.size last.draft.model.size last.draft.model.size := by
    rw [closed.pending]
    have bound : note.handle + 1 ≤ last.draft.model.size :=
      Nat.le_trans inside le
    exact (reaches.due.ready.persists closed.persists).mono bound bound bound
      bound
  have builds := joins.builds.trans closed.builds
  have persistsAll := persists.trans closed.persists
  have run : ∀ written, Moment.Run
      ⟨before, written,
        .settling note value decorations (Turn.first note.flavor)⟩
      ⟨last, written, .settling note value decorations .chord⟩ :=
    fun written => (reaches.run written).trans
      (closed.run written note value decorations rfl)
  have finish := fun written =>
    Moment.Step.finish last written note value decorations
  by_cases isNote : note.flavor ≠ .rest
  · rw [if_pos isNote]
    have whole := builds.trans
      (builds_setLastNote (persistsAll.isUnder newest.under))
    refine ⟨whole, persistsAll, ⟨waiting, ?_, closed.chords⟩,
      fun written => ?_⟩
    · intro other isLast
      cases isLast
      exact persistsAll.isNote (newest.isNote isNote)
    · refine ((run written).tail (finish written)).tail ?_
      exact .amend ⟨last, written, .between⟩ (.of_silent (.refl _) rfl)
  · rw [if_neg isNote]
    refine ⟨builds, persistsAll, ⟨waiting, ?_, closed.chords⟩,
      fun written => (run written).tail (finish written)⟩
    intro other isLast
    change last.context.lastNote = some other at isLast
    rw [closed.lastNote, joins.lastNote] at isLast
    exact persistsAll.isNote (newest.lastNote other isLast).1

/-- A note or rest that was added to a score that was ready is the newest one. -/
theorem isNewest_addNoteRest
    {node : Node} {after : Analysis} {base : Option Handle}
    {result : Handle × NoteValue × Decorations}
    (ready : before.Ready)
    (introduces : Introduces flavor scope node before after)
    (added : AddedNoteRest flavor scope before result after)
    (isBase : ∀ last, base = some last → flavor = .chordNote ∧
      before.context.lastNote = some last) :
    IsNewest flavor scope base result.1 result.2.2 after := by
  constructor
  · exact added.isNote
  · exact added.isNoteRest
  · exact added.under
  · exact added.areOf
  · rw [introduces.pending, added.isNew]
    exact ready.pending.persists introduces.model.persists
  · intro last isLast
    rw [introduces.lastNote] at isLast
    have isNote := ready.lastNote last isLast
    rw [added.isNew]
    exact ⟨introduces.model.persists.isNote isNote, isNote.lt_size⟩
  · rw [added.isNew]
    exact ready.chords.of_extends introduces.model
  · intro last given
    exact introduces.lastNote.trans (isBase last given).2
  · intro given isRest
    obtain ⟨last, isLast⟩ := Option.isSome_iff_exists.mp given
    rw [(isBase last isLast).1] at isRest
    cases isRest

/-- A note or rest is played. -/
theorem plays_analyseNoteRest
    (node : Node)
    (isFrom : ∀ value pitch, (noteRestContent flavor value pitch).isFrom node)
    (anchored : before.draft.model.HasAnchor scope) (ready : before.Ready) :
    PlaysWith scope node.nodes (analyseNoteRest flavor node scope) before
      fun handle after => handle < after.draft.model.size := by
  have isBase : ∀ last,
      (if flavor = .chordNote then before.context.lastNote else none) =
        some last →
      flavor = .chordNote ∧ before.context.lastNote = some last := by
    intro last given
    split at given
    · rename_i isChordNote
      exact ⟨isChordNote, given⟩
    · cases given
  rw [analyseNoteRest]
  refine .readContext ?_
  apply Ensures.bind (Ensures.exactly
    (introduces_addNoteRest node _ isFrom anchored))
  rintro ⟨handle, value, decorations⟩ middle ⟨wasRead, introduces, added⟩
  let note : Written := ⟨handle, flavor, node⟩
  have newest := isNewest_addNoteRest ready introduces added isBase
  apply Ensures.bind (settled_settleNoteRest note value newest)
  intro _ last settled
  have builds := (introduces.builds scope).trans settled.builds
  rw [List.append_nil] at builds
  have persists := introduces.model.persists.trans settled.persists
  refine ⟨⟨builds, persists, [note], ?_, fun earlier => ?_⟩, settled.ready,
    Nat.lt_of_lt_of_le added.isNoteRest.lt_size settled.persists.size_le⟩
  · exact node.singleton_sublist_nodes
  · obtain ⟨given, pitch, first, agrees, amends⟩ := introduces.parts
    have anchored := agrees.hasAnchor anchored
    have isNew : note.handle = first.draft.model.size := by
      rw [agrees.draft.model]
      exact added.isNew
    have begun : Moment.Run ⟨before, earlier, .between⟩
        ⟨first, earlier, .between⟩ :=
      .single (.amend ⟨before, earlier, .between⟩ (.of_agrees agrees))
    have write : Moment.Step ⟨first, earlier, .between⟩ _ :=
      .write first earlier note scope given pitch anchored isNew
        (isFrom given pitch)
    have amended : Moment.Step _ ⟨middle, earlier ++ [note], .reading note⟩ :=
      .amend ⟨_, earlier ++ [note], .reading note⟩ amends
    have read : Moment.Step ⟨middle, earlier ++ [note], .reading note⟩ _ :=
      .read middle (earlier ++ [note]) note value decorations
        ⟨scope, _, before, congrArg Prod.fst wasRead⟩
    exact (((begun.tail write).tail amended).tail read).trans (settled.run _)

/-! ## Staff objects -/

/-- The other notes of a chord are played with the first one. -/
theorem plays_chordNotes
    (anchored : before.draft.model.HasAnchor scope) (ready : before.Ready)
    (children : List Node) :
    PlaysWith scope (nodesOf children) (chordNotes scope children) before
      fun _ _ => True := by
  induction children generalizing before with
  | nil => exact .pure ⟨ready, trivial⟩
  | cons child rest induction =>
      rw [chordNotes]
      rw [nodesOf, List.flatMap_cons]
      split
      · rename_i isNote
        refine (plays_analyseNoteRest child
          (fun _ _ => Content.isFrom_of_is isNote rfl) anchored ready).bind
            fun _ middle plays played => ?_
        exact induction (plays.hasAnchor anchored) played.1
      · refine Traces.among ?_ (List.sublist_append_right _ _)
        refine .read (reads_reportMisplaced child) fun _ middle agrees _ => ?_
        exact induction (agrees.hasAnchor anchored) (agrees.ready ready)

theorem plays_chordChildren
    (anchored : before.draft.model.HasAnchor scope) (ready : before.Ready)
    (children : List Node) :
    PlaysWith scope (nodesOf children) (chordChildren scope children) before
      fun _ _ => True := by
  induction children generalizing before with
  | nil => exact .pure ⟨ready, trivial⟩
  | cons child rest induction =>
      rw [chordChildren]
      rw [nodesOf, List.flatMap_cons]
      split
      · rename_i isNote
        refine (plays_analyseNoteRest child
          (fun _ _ => Content.isFrom_of_is isNote rfl) anchored ready).bind
            fun _ middle plays played => ?_
        rw [← List.append_nil (List.flatMap _ _)]
        refine (plays_chordNotes (plays.hasAnchor anchored) played.1
          rest).bind fun _ last _ finished => ?_
        exact .pure finished
      · refine Traces.among ?_ (List.sublist_append_right _ _)
        refine .read (reads_reportMisplaced child) fun _ middle agrees _ => ?_
        exact induction (agrees.hasAnchor anchored) (agrees.ready ready)

/-- What a chord gives is what its first note takes for it. -/
theorem plays_analyseChord
    (node : Node) (anchored : before.draft.model.HasAnchor scope)
    (ready : before.Ready) :
    PlaysWith scope node.nodes (analyseChord node scope) before
      fun result after => ∀ handle, result = some handle →
        after.draft.model.Knows handle := by
  rw [analyseChord]
  have part : (nodesOf node.children ++ []).Sublist node.nodes := by
    rw [List.append_nil, Node.nodes_eq]
    exact List.sublist_cons_self _ _
  refine Traces.among ?_ part
  refine (plays_chordChildren anchored ready node.children).bind
    fun base middle _ played => ?_
  refine .readModel (.pure ⟨played.1, fun handle isChord => Or.inr ?_⟩)
  obtain ⟨note, isNote, isChord⟩ := Option.bind_eq_some_iff.mp isChord
  obtain ⟨first, _, isNote⟩ := Option.bind_eq_some_iff.mp isNote
  exact ⟨first, Option.bind_eq_some_iff.mpr ⟨note, isNote, isChord⟩⟩

/-- An element of music data is played, whatever its kind. -/
theorem plays_staffObject
    {kind : ElementKind} {analyser : Node → Analyser (Option Handle)}
    {node : Node} (known : staffObjectAnalyser? scope kind = some analyser)
    (isKind : node.is kind) (anchored : before.draft.model.HasAnchor scope)
    (ready : before.Ready) :
    PlaysWith scope node.nodes (analyser node) before
      fun result after => ∀ handle, result = some handle →
        after.draft.model.Knows handle := by
  have played : ∀ flavor,
      (∀ value pitch, (noteRestContent flavor value pitch).isFrom node) →
      PlaysWith scope node.nodes (some <$> analyseNoteRest flavor node scope)
        before fun result after => ∀ handle, result = some handle →
          after.draft.model.Knows handle := by
    intro flavor isFrom
    apply (plays_analyseNoteRest node isFrom anchored ready).map
    rintro handle after ⟨readyAfter, inside⟩
    refine ⟨readyAfter, ?_⟩
    rintro _ ⟨⟩
    exact Or.inl inside
  have placed : ∀ {action : Analyser (Option Handle)},
      AddsAtMostOne node.nodes action before →
      PlaysWith scope node.nodes action before
        fun result after => ∀ handle, result = some handle →
          after.draft.model.Knows handle := by
    intro action adds
    apply Traces.mono (EditsWith.plays adds ready) (List.Sublist.refl _)
    rintro result after _ ⟨readyAfter, anchor⟩
    exact ⟨readyAfter, fun handle isResult =>
      Or.inl (anchor handle isResult)⟩
  cases kind <;> cases known
  case note => exact played .note fun _ _ => Content.isFrom_of_is isKind rfl
  case chordNote =>
    exact played .chordNote fun _ _ => Content.isFrom_of_is isKind rfl
  case rest => exact played .rest fun _ _ => Content.isFrom_of_is isKind rfl
  case chord => exact plays_analyseChord node anchored ready
  case clef => exact placed (addsOne_analyseClef isKind anchored).some
  case key => exact placed (addsOne_analyseKey isKind anchored).some
  case time => exact placed (addsOne_analyseTime isKind anchored).some
  case barline => exact placed (addsOne_analyseBarline isKind anchored).some
  case goBack => exact placed (addsAtMostOne_analyseShift false isKind anchored)
  case goForward =>
    exact placed (addsAtMostOne_analyseShift true isKind anchored)
  case spacer => exact placed (addsAtMostOne_analyseSpacer isKind anchored)
  case newSystem =>
    exact placed (addsOne_analyseNewSystem isKind anchored).some
  case metronome =>
    exact placed (addsOne_analyseMetronome isKind anchored).some
  case text =>
    exact placed (addsAtMostOne_analyseText isKind (fun _ _ => rfl) anchored)

end Analyser

end LdpScore
