import LdpScore.Proofs.Analysis.Counting
import LdpScore.Proofs.Analysis.Reporting
import LdpScore.Proofs.Analysis.Run
import LdpScore.Proofs.Invariant.Bystander

/-!
# Where the counts of tuplets come from

Every tuplet has the counts of a start that is written in the text, for those that
wait have been given such counts, and a tuplet takes those of the first in its chain.
A start whose counts cannot be found makes no tuplet therefore, and a report tells
of it.
-/

namespace LdpScore

open Analyser

namespace Content

/-- The counts of a tuplet, actual and normal. -/
def counts? : Content → Option (Nat × Nat)
  | tuplet actual normal _ _ _ => some (actual, normal)
  | _ => none

@[simp]
theorem counts?_mapNoteRest (content : Content) (change : NoteRest → NoteRest) :
    (content.mapNoteRest change).counts? = content.counts? := by
  cases content <;> rfl

@[simp]
theorem counts?_mapNote (content : Content) (change : Note → Note) :
    (content.mapNote change).counts? = content.counts? := by
  cases content <;> rfl

@[simp]
theorem counts?_mapMembers (content : Content) (change : Members → Members) :
    (content.mapMembers change).counts? = content.counts? := by
  cases content <;> rfl

theorem name_of_counts?
    {content : Content} {counts : Nat × Nat}
    (found : content.counts? = some counts) :
    content.name = "tuplet" := by
  cases content <;> cases found
  rfl

theorem isRelation_of_tuplet
    (content : Content) (named : content.name = "tuplet") :
    content.members?.isSome := by
  rw [members?_isSome_iff, named]
  decide

end Content

namespace Model

/-- The counts of a tuplet of the model. -/
def counts? (model : Model) (handle : Handle) : Option (Nat × Nat) :=
  (model.content? handle).bind Content.counts?

/-- An object may change in anything but its counts. -/
theorem counts?_of_map
    {before after : Model} {handle : Handle} {change : Content → Content}
    (changed : after.content? handle = (before.content? handle).map change)
    (keeps : ∀ content, (change content).counts? = content.counts?) :
    after.counts? handle = before.counts? handle := by
  rw [counts?, changed, counts?]
  cases before.content? handle with
  | none => rfl
  | some content => exact keeps content

theorem counts?_modifyContent
    (model : Model) (handle : Handle) {change : Content → Content}
    (keeps : ∀ content, (change content).counts? = content.counts?)
    (other : Handle) :
    (model.modifyContent handle change).counts? other = model.counts? other := by
  refine counts?_of_map (model.content?_modifyContent ..) fun content => ?_
  split
  · exact keeps content
  · rfl

theorem counts?_includeMember
    (model : Model) (relation member : Handle) (role : Role) (other : Handle) :
    (model.includeMember relation member role).counts? other =
      model.counts? other := by
  refine counts?_of_map (model.content?_includeMember ..) fun content => ?_
  split
  · exact content.counts?_mapMembers _
  · rfl

/-- Where no tuplet is touched all counts are as before. -/
theorem Omits.counts?
    {before after : Model} (omits : before.Omits "tuplet" after)
    (handle : Handle) :
    after.counts? handle = before.counts? handle := by
  apply Option.ext
  intro counts
  rw [Model.counts?, Model.counts?, Option.bind_eq_some_iff,
    Option.bind_eq_some_iff]
  exact exists_congr fun content => and_congr_left fun found =>
    omits.same handle content (Content.name_of_counts? found)

end Model

namespace Draft

theorem counts?_create (draft : Draft) (content : Content) (handle : Handle) :
    (draft.create content).2.model.counts? handle =
      if handle = draft.model.size then content.counts?
      else draft.model.counts? handle := by
  rw [Model.counts?, show (draft.create content).2.model.content? handle = _
    from draft.model.content?_add draft.ids.next.1 content handle]
  split
  · rfl
  · rfl

end Draft

namespace Tuplet

/-- The counts of a new tuplet are those of the first in its chain. -/
theorem counts?_linkChain
    (start : TupletPoint) (rest : List TupletPoint) (draft : Draft)
    (handle : Handle) :
    (linkChain (start :: rest) draft).model.counts? handle =
      if handle = draft.model.size then some (start.actual, start.normal)
      else draft.model.counts? handle := by
  have included : ∀ (points : List TupletPoint) (later : Draft),
      (points.foldl (includePoint draft.model.size start.modification)
        later).model.counts? handle = later.model.counts? handle := by
    intro points
    induction points with
    | nil => exact fun _ => rfl
    | cons point others induction =>
        intro later
        rw [List.foldl_cons, induction]
        exact (Model.counts?_modifyContent _ _
          (fun content => content.counts?_mapNoteRest _) handle).trans
            (later.model.counts?_includeMember ..)
  exact (included (start :: rest) _).trans (draft.counts?_create ..)

end Tuplet

/-! ## What waits and what has been made -/

/-- Whatever waits to become a tuplet, and all tuplets, have been given their
counts. -/
structure Analysis.Counted (given : Nat × Nat → Prop) (state : Analysis) :
    Prop where
  waits : ∀ point ∈ state.pending.tuplets, given (point.actual, point.normal)
  made : ∀ tuplet counts, state.draft.model.counts? tuplet = some counts →
    given counts

namespace Analysis.Counted

variable {given : Nat × Nat → Prop} {before after state : Analysis}

/-- Tuplets are left alone. -/
theorem keep
    (counted : before.Counted given)
    (waits : after.pending.tuplets ⊆ before.pending.tuplets)
    (same : ∀ tuplet, after.draft.model.counts? tuplet =
      before.draft.model.counts? tuplet) :
    after.Counted given :=
  ⟨fun point isWaiting => counted.waits point (waits isWaiting),
    fun tuplet counts found => counted.made tuplet counts
      ((same tuplet).symm.trans found)⟩

theorem joinTuplets
    (counted : state.Counted given) (noteRest : Handle) (location : Location) :
    (state.joinTuplets noteRest location).Counted given := by
  refine ⟨fun point isWaiting => ?_, counted.made⟩
  rcases List.mem_append.mp isWaiting with old | new
  · exact counted.waits point old
  · obtain ⟨start, isStart, rfl⟩ := List.mem_map.mp new
    exact counted.waits start (List.mem_filter.mp isStart).1

/-- A descriptor is offered, which stops a tuplet or has been given its counts. -/
theorem offerTuplet
    (counted : state.Counted given) {point : TupletPoint}
    (counts : point.phase ≠ .stop → given (point.actual, point.normal)) :
    (state.offerTuplet point).Counted given := by
  rw [Analysis.offerTuplet, Tuplet.add_eq_settleWith]
  rcases Pairing.offer_cases state.pending.tuplets point with
    ⟨reason, rejected⟩ | ⟨waits, _⟩ | ⟨complete, _, several⟩
  · rw [Pairing.settleWith_of_rejected _ _ _ rejected]
    exact ⟨counted.waits, counted.made⟩
  · rw [Pairing.settleWith_of_waiting _ _ _ waits]
    refine ⟨fun other isWaiting => ?_, counted.made⟩
    rcases List.mem_append.mp isWaiting with old | new
    · exact counted.waits other old
    · rw [List.mem_singleton.mp new]
      exact counts (Pairing.phase_ne_stop_of_waiting waits)
  · rw [Pairing.settleWith_of_complete _ _ _ complete]
    refine ⟨fun other isWaiting => ?_, fun tuplet counts found => ?_⟩
    · exact counted.waits other (List.mem_filter.mp isWaiting).1
    · obtain ⟨start, rest, isChain⟩ := List.exists_cons_of_ne_nil several
      have isWaiting : start ∈ state.pending.tuplets := by
        have listed : start ∈ start :: rest := List.mem_cons_self ..
        rw [← isChain] at listed
        exact (List.mem_filter.mp listed).1
      rw [isChain] at found
      change (Tuplet.linkChain (start :: (rest ++ [point]))
        state.draft).model.counts? tuplet = some counts at found
      rw [Tuplet.counts?_linkChain] at found
      split at found
      · cases found
        exact counted.waits start isWaiting
      · exact counted.made tuplet counts found

end Analysis.Counted

/-! ## Notes and rests -/

/-- A report tells of the label of a note or rest that gives no counts. -/
def Cue.TellsOfLabel (cue : Cue) (draft : Draft) : Prop :=
  ∀ label, cue.tupletLabel? = some label → label.isTupletStop = false →
    label.labelCounts? = none → draft.TellsOf label

/-- All starts of tuplets of a note or rest give such counts. -/
def Cue.Gives (given : Nat × Nat → Prop) (cue : Cue) : Prop :=
  ∀ start counts, cue.StartsTuplet start (some counts) → given counts

namespace Analyser

variable {given : Nat × Nat → Prop} {note : Written} {value : NoteValue}
variable {decorations : Decorations} {state : Analysis}

/-- The label of a legacy tuplet starts one with its counts, or it is told of. -/
theorem counted_settleLegacyTuplet
    (counted : state.Counted given)
    (gives : (Cue.play note.flavor note.node).Gives given) {label : Node}
    (isLabel : note.tupletLabel? = some label) :
    Ensures (settleLegacyTuplet label note.handle) state fun _ after =>
      after.Counted given ∧
        (Cue.play note.flavor note.node).TellsOfLabel after.draft := by
  have isOnly : ∀ {other : Node},
      (Cue.play note.flavor note.node).tupletLabel? = some other →
        other = label :=
    fun isOther => Option.some.inj (isOther.symm.trans isLabel)
  apply Ensures.mono (labelling_settleLegacyTuplet label note.handle)
  intro _ after labelling
  cases labelling with
  | stop point stops _ isStop =>
      refine ⟨counted.offerTuplet fun noStop => absurd isStop noStop, ?_⟩
      intro other isOther noStop
      rw [isOnly isOther, stops] at noStop
      cases noStop
  | unknown =>
      refine ⟨counted.keep (List.Subset.refl _) fun _ => rfl, ?_⟩
      intro other isOther _ _
      rw [isOnly isOther]
      exact Draft.tellsOf_report (by simp [Node.countProblems])
  | inside _ counts =>
      refine ⟨counted.keep (List.Subset.refl _) fun _ => rfl, ?_⟩
      intro other isOther _ noCounts
      rw [isOnly isOther] at noCounts
      rw [noCounts] at counts
      cases counts
  | start point noStop _ isStart counts =>
      constructor
      · refine counted.offerTuplet fun _ => gives label _ ?_
        rw [← counts]
        exact .label isLabel noStop
      · intro other isOther _ noCounts
        rw [isOnly isOther, counts] at noCounts
        cases noCounts

/-- At the turn of the tuplets only a start that gives its counts is handed over. -/
theorem counted_tupletFactor
    (decorated : note.Says decorations) (counted : state.Counted given)
    (gives : (Cue.play note.flavor note.node).Gives given) :
    Ensures (tupletFactor decorations note.handle note.node) state fun _ after =>
      after.Counted given ∧
        (Cue.play note.flavor note.node).TellsOfLabel after.draft := by
  rw [tupletFactor]
  split
  · rename_i label isLabel
    exact counted_settleLegacyTuplet counted gives
      (decorated.legacyTuplet.symm.trans isLabel)
  · rename_i noLegacy
    have noLabel : (Cue.play note.flavor note.node).tupletLabel? = none :=
      decorated.legacyTuplet.symm.trans noLegacy
    have counts : ∀ point, decorations.tuplet = some point →
        point.phase ≠ .stop → given (point.actual, point.normal) := by
      intro point isPoint noStop
      obtain ⟨child, listed, isTuplet, other, isGiven⟩ :=
        decorated.givesTuplet isPoint
      have isOf := yields_analyseTuplet child (some note.handle) other point
        isGiven
      cases isOf with
      | start _ starts counts =>
          refine gives child _ ?_
          rw [← counts]
          exact .option listed isTuplet starts
      | stop isStop => exact absurd isStop noStop
    have tuples : Ensures (settleTuplets decorations.tuplet note.handle
        note.node) state fun _ after => Tupling note decorations state after :=
      tupling_settleTuplets noLegacy
    apply tuples.mono
    intro _ after tupling
    refine ⟨?_, fun label isLabel => ?_⟩
    · cases tupling with
      | useless _ legacy =>
          rw [noLegacy] at legacy
          cases legacy
      | legacy _ legacy =>
          rw [noLegacy] at legacy
          cases legacy
      | inside => exact counted.joinTuplets _ _
      | starting point _ isPoint =>
          exact (counted.joinTuplets _ _).offerTuplet (counts point isPoint)
      | stopping point _ isPoint =>
          exact (counted.offerTuplet (counts point isPoint)).joinTuplets _ _
    · rw [noLabel] at isLabel
      cases isLabel

/-- At other turns tuplets are left alone. -/
theorem counted_action
    {turn : Turn} (other : turn ≠ .tuplets) (counted : state.Counted given) :
    Ensures (turn.action note value decorations) state fun _ after =>
      after.Counted given := by
  have sameTuplets : ∀ {after : Pending}, turn.Changes state.pending after →
      after.tuplets ⊆ state.pending.tuplets :=
    fun changes => changes.same_tuplets other ▸ List.Subset.refl _
  refine counted.keep (sameTuplets (changes_action turn)) fun tuplet => ?_
  by_cases isModification : turn = .modification
  · subst isModification
    rw [Turn.action]
    cases decorations.timeModification with
    | none => rfl
    | some modification =>
        exact Model.counts?_modifyContent _ _
          (fun content => content.counts?_mapNoteRest _) tuplet
  · have noTuplet : "tuplet" ≠ turn.word := by
      cases turn <;> simp_all [Turn.word]
    exact ((adds_action turn).omits noTuplet
      Content.isRelation_of_tuplet).counts? tuplet

theorem counts?_joinChord
    (base note : Handle) (draft : Draft) (tuplet : Handle) :
    (joinChord base note draft).model.counts? tuplet =
      draft.model.counts? tuplet := by
  have sounds : ∀ (later : Draft) (chord other : Handle),
      ((later.includeMember chord other .chord).mapModel fun model =>
        model.modifyNote other fun it =>
          { it with chord := some chord }).model.counts? tuplet =
        later.model.counts? tuplet := by
    intro later chord other
    exact (Model.counts?_modifyContent _ _
      (fun content => content.counts?_mapNote _) tuplet).trans
        (later.model.counts?_includeMember ..)
  have created : (draft.create (.chord [])).2.model.counts? tuplet =
      draft.model.counts? tuplet := by
    rw [Draft.counts?_create]
    split
    · rename_i isNew
      rw [isNew, Model.counts?, Model.content?_size]
      rfl
    · rfl
  have chorded : (chordOf base draft).2.model.counts? tuplet =
      draft.model.counts? tuplet := by
    unfold chordOf
    split
    · rfl
    · exact (sounds ..).trans created
  exact (sounds ..).trans chorded

end Analyser

/-- A report tells of every start of a note or rest that gives no counts. -/
def Cue.Tells (cue : Cue) (draft : Draft) : Prop :=
  ∀ start, cue.StartsTuplet start none → draft.TellsOf start

theorem Cue.tells_of_parts
    {cue : Cue} {draft : Draft} (options : draft.TellsOfAll cue.options)
    (label : cue.TellsOfLabel draft) :
    cue.Tells draft := by
  intro start starts
  generalize noCounts : (none : Option (Nat × Nat)) = counts at starts
  cases starts with
  | option listed isTuplet starts =>
      exact options start listed isTuplet starts noCounts.symm
  | label isLabel noStop => exact label start isLabel noStop noCounts.symm

theorem Cue.Tells.keep
    {cue : Cue} {before after : Draft} (tells : cue.Tells before)
    (keeps : before.KeepsReports after) :
    cue.Tells after :=
  fun start starts => (tells start starts).keep keeps

/-- What is known of a note or rest when its turn comes: from the turn of the tuplets
on its label has been told of if it gives no counts. -/
structure TupletsSettled
    (given : Nat × Nat → Prop) (before : Analysis) (cue : Cue) (turn : Turn)
    (state : Analysis) : Prop where
  counted : state.Counted given
  reports : before.draft.KeepsReports state.draft
  told : turn ∈ [.legacyTie, .tie, .modification, .tuplets] ∨
    cue.TellsOfLabel state.draft

namespace TupletsSettled

variable {given : Nat × Nat → Prop} {before state : Analysis} {note : Written}
variable {decorations : Decorations} {turn : Turn}

theorem take
    {value : NoteValue}
    (settled : TupletsSettled given before (.play note.flavor note.node) turn state)
    (decorated : note.Says decorations)
    (gives : (Cue.play note.flavor note.node).Gives given) :
    Ensures (turn.action note value decorations) state fun _ after =>
      TupletsSettled given before (.play note.flavor note.node) turn.next after := by
  have reports : state.draft.KeepsReports
      ((turn.action note value decorations).run state).run.2.draft :=
    keepsReports_action turn
  by_cases isTuplets : turn = .tuplets
  · subst isTuplets
    obtain ⟨counted, told⟩ :=
      counted_tupletFactor decorated settled.counted gives
    exact ⟨counted, settled.reports.trans reports, Or.inr told⟩
  · refine ⟨counted_action isTuplets settled.counted,
      settled.reports.trans reports, ?_⟩
    rcases settled.told with early | told
    · left
      cases turn <;> simp_all [Turn.next]
    · exact Or.inr fun label isLabel noStop noCounts =>
        (told label isLabel noStop noCounts).keep reports

/-- The chord of a note does not concern tuplets. -/
theorem join
    {cue : Cue} (settled : TupletsSettled given before cue .chord state)
    (base note : Handle) :
    TupletsSettled given before cue .chord
      { state with draft := joinChord base note state.draft } := by
  have reports : state.draft.KeepsReports (joinChord base note state.draft) :=
    .of_eq (diagnostics_joinChord ..)
  refine ⟨settled.counted.keep (List.Subset.refl _)
    (counts?_joinChord base note state.draft), settled.reports.trans reports,
    settled.told.imp_right fun told label isLabel noStop noCounts => ?_⟩
  exact (told label isLabel noStop noCounts).keep reports

/-- Nor does the place in the music. -/
theorem place
    {cue : Cue} (settled : TupletsSettled given before cue .chord state)
    (context : Context) :
    TupletsSettled given before cue .chord { state with context := context } :=
  ⟨⟨settled.counted.waits, settled.counted.made⟩, settled.reports, settled.told⟩

end TupletsSettled

namespace Analyser

/-- A note or rest that is played hands over only starts that give their counts, and
the others are told of. -/
theorem counted_analyseNoteRest
    {given : Nat × Nat → Prop} {state : Analysis} (flavor : Flavor) (node : Node)
    (anchor : Option Handle) (counted : state.Counted given)
    (gives : (Cue.play flavor node).Gives given) :
    Ensures (analyseNoteRest flavor node anchor) state fun _ after =>
      after.Counted given ∧ (Cue.play flavor node).Tells after.draft := by
  rw [analyseNoteRest]
  apply Ensures.readContext
  dsimp only
  generalize (if flavor = .chordNote then state.context.lastNote else none) = base
  have added : Ensures (addNoteRest flavor node anchor base) state
      fun result after => Introduced flavor state result after ∧
        Written.Says ⟨result.1, flavor, node⟩ result.2.2 ∧
        after.draft.TellsOfAll (Cue.play flavor node).options :=
    ⟨introduced_addNoteRest node anchor base state,
      yields_addNoteRest flavor node anchor base state,
      tells_addNoteRest flavor node anchor base⟩
  apply added.bind
  rintro ⟨handle, value, decorations⟩ middle ⟨introduced, decorated, tells⟩
  have leaves := introduced.leaves
  have countedThen : middle.Counted given :=
    counted.keep (leaves.pending ▸ List.Subset.refl _)
      (leaves.model.omits Content.isRelation_of_tuplet).counts?
  have settled : Ensures
      (settleNoteRest flavor node base handle value decorations) middle
      fun _ last => TupletsSettled given middle (Cue.play flavor node) .chord last :=
    turns_settleNoteRest ⟨handle, flavor, node⟩ base value
      (TupletsSettled given middle (Cue.play flavor node))
      (fun turn _ settled => settled.take decorated gives)
      (fun last _ settled => settled.join last handle)
      (fun context _ settled => settled.place context)
      ⟨countedThen, .refl middle.draft,
        Or.inl (by cases flavor <;> simp [Turn.first])⟩
  apply settled.bind
  rintro _ last ⟨countedLast, reports, early | told⟩
  · exact absurd early (by decide)
  · exact ⟨countedLast, Cue.tells_of_parts (tells.keep reports) told⟩

end Analyser

/-! ## Whole texts -/

/-- Every performance counts its tuplets, and tells of the starts that give no
counts. -/
theorem Performs.counted
    {given : Nat × Nat → Prop} {cues : List Cue} {before after : Analysis}
    (performs : Performs cues before after) (counted : before.Counted given)
    (gives : ∀ cue ∈ cues, cue.Gives given) :
    after.Counted given ∧ ∀ cue ∈ cues, cue.Tells after.draft := by
  induction performs with
  | done state => exact ⟨counted, nofun⟩
  | aside aside _ induction =>
      refine induction (counted.keep ?_ ?_) gives
      · exact aside.pending ▸ List.Subset.refl _
      · exact (aside.model.omits Content.isRelation_of_tuplet).counts?
  | @flush _ first _ _ induction =>
      refine induction (counted.keep (List.nil_subset _) fun tuplet => ?_) gives
      show Model.counts? (first.pending.reportAll first.draft).model tuplet = _
      rw [(first.pending.silent_reportAll first.draft).model]
  | start _ induction =>
      obtain ⟨later, tells⟩ := induction ⟨counted.waits, counted.made⟩
        fun cue listed => gives cue (List.mem_cons_of_mem _ listed)
      refine ⟨later, fun cue listed => ?_⟩
      rcases List.mem_cons.mp listed with rfl | isLater
      · exact Cue.tells_of_parts nofun nofun
      · exact tells cue isLater
  | @play flavor node _ first _ anchor performs induction =>
      obtain ⟨middle, told⟩ := counted_analyseNoteRest flavor node anchor counted
        (gives _ (List.mem_cons_self ..))
      obtain ⟨later, tells⟩ := induction middle
        fun cue listed => gives cue (List.mem_cons_of_mem _ listed)
      refine ⟨later, fun cue listed => ?_⟩
      rcases List.mem_cons.mp listed with rfl | isLater
      · exact told.keep performs.keepsReports
      · exact tells cue isLater

/-- The counts of the tuplets of a score.  They are those of a start that a note or
rest of the tree writes, where only a legacy label may leave the normal count at
zero, and only if there is no usual one.  So where no start has a count of zero no
tuplet has.  A report tells of every start that gives no counts. -/
structure Model.CountsTuplets
    (root : Node) (diagnostics : Array Diagnostic) (model : Model) : Prop where
  given : ∀ tuplet actual normal bracket display members,
    model.content? tuplet =
        some (.tuplet actual normal bracket display members) →
      ∃ cue ∈ root.cues, ∃ start,
        cue.StartsTuplet start (some (actual, normal)) ∧
          (normal = 0 → start.is .label ∧ Tuplet.defaultNormal? actual = none)
  positive :
    (∀ cue ∈ root.cues, ∀ start actual normal,
      cue.StartsTuplet start (some (actual, normal)) →
        1 ≤ actual ∧ (start.is .label → 1 ≤ normal)) →
    ∀ tuplet actual normal bracket display members,
      model.content? tuplet =
          some (.tuplet actual normal bracket display members) →
        1 ≤ actual ∧ 1 ≤ normal
  told : ∀ cue ∈ root.cues, ∀ start, cue.StartsTuplet start none →
    ∃ problem ∈ start.countProblems,
      (⟨problem, start.location⟩ : Diagnostic) ∈ diagnostics

/-- The counts of the tuplets of an analysed tree. -/
theorem countsTuplets_analyse (root : Node) :
    (analyse root).1.CountsTuplets root (analyse root).2 := by
  let written : Nat × Nat → Prop := fun counts =>
    ∃ cue ∈ root.cues, ∃ start, cue.StartsTuplet start (some counts)
  have nothing : Analysis.Counted written {} := by
    refine ⟨nofun, fun tuplet counts found => ?_⟩
    obtain ⟨content, isContent, _⟩ := Option.bind_eq_some_iff.mp found
    exact absurd (Model.lt_size_of_content? isContent) (Nat.not_lt_zero tuplet)
  obtain ⟨counted, tells⟩ := (performs_analyse root).counted nothing
    fun cue listed start counts starts => ⟨cue, listed, start, starts⟩
  have given : ∀ tuplet actual normal bracket display members,
      (analyse root).1.content? tuplet =
          some (.tuplet actual normal bracket display members) →
        ∃ cue ∈ root.cues, ∃ start,
          cue.StartsTuplet start (some (actual, normal)) ∧
            (normal = 0 →
              start.is .label ∧ Tuplet.defaultNormal? actual = none) := by
    intro tuplet actual normal bracket display members isTuplet
    have isMade : (analyse root).1.counts? tuplet = some (actual, normal) := by
      rw [Model.counts?, isTuplet]
      rfl
    obtain ⟨cue, listed, start, starts⟩ := counted.made tuplet _ isMade
    refine ⟨cue, listed, start, starts, ?_⟩
    rintro rfl
    exact starts.no_normal
  refine ⟨given, fun noneZero => ?_, tells⟩
  intro tuplet actual normal bracket display members isTuplet
  obtain ⟨cue, listed, start, starts, isLabel⟩ :=
    given tuplet actual normal bracket display members isTuplet
  obtain ⟨positive, labelled⟩ := noneZero cue listed start actual normal starts
  refine ⟨positive, Nat.pos_of_ne_zero fun isZero => ?_⟩
  have normalPositive := labelled (isLabel isZero).1
  rw [isZero] at normalPositive
  exact absurd normalPositive (Nat.not_succ_le_zero 0)

/-- The counts of the tuplets of every text that is accepted. -/
theorem countsTuplets_analyseSource
    {source file : String} {model : Model}
    (accepted : (analyseSource source file).result = .ok model) :
    ∃ root, (Node.read (Token.lex source file)).result = .ok root ∧
      model.CountsTuplets root (analyseSource source file).diagnostics := by
  obtain ⟨root, isTree, rfl, reports⟩ := exists_tree_of_accepted accepted
  have counts := countsTuplets_analyse root
  refine ⟨root, isTree, counts.given, counts.positive, ?_⟩
  intro cue listed start starts
  obtain ⟨problem, isProblem, told⟩ := counts.told cue listed start starts
  refine ⟨problem, isProblem, ?_⟩
  rw [reports]
  exact Array.mem_append_right _ told

/-- A triplet is made, and two starts that give no counts are told of. -/
theorem countsTuplets_with_reports :
    ∃ model root,
      (analyseSource
        ("(musicData (n c4 e t3) (n d4 e t-) (n e4 e (t + 7)) " ++
          "(n f4 e tx))") "").result = .ok model ∧
      ((model.content? 3).bind Content.counts? = some (3, 2) ∧
        (analyseSource
          ("(musicData (n c4 e t3) (n d4 e t-) (n e4 e (t + 7)) " ++
            "(n f4 e tx))") "").diagnostics.map Diagnostic.problem =
              #[.missingNormalNotes, .invalidAbbreviation "tx"]) ∧
      model.CountsTuplets root (analyseSource
        ("(musicData (n c4 e t3) (n d4 e t-) (n e4 e (t + 7)) " ++
          "(n f4 e tx))") "").diagnostics := by
  obtain ⟨model, accepted, isTriplet⟩ := exists_model_of_any
    (fun model => (model.content? 3).bind Content.counts? = some (3, 2))
    (by decide +kernel : (analyseSource
      ("(musicData (n c4 e t3) (n d4 e t-) (n e4 e (t + 7)) " ++
        "(n f4 e tx))") "").result.toOption.any _)
  obtain ⟨root, _, counts⟩ := countsTuplets_analyseSource accepted
  exact ⟨model, root, accepted,
    ⟨of_decide_eq_true isTriplet, by decide +kernel⟩, counts⟩

/-- A legacy label with neither a normal count nor a usual one makes a tuplet all
the same, and nothing tells of it. -/
theorem not_all_tuplets_positive :
    ¬ ∀ source file model, (analyseSource source file).result = .ok model →
      ∀ tuplet actual normal bracket display members,
        model.content? tuplet =
            some (.tuplet actual normal bracket display members) →
          1 ≤ actual ∧ 1 ≤ normal := by
  intro positive
  obtain ⟨model, accepted, isMade⟩ := exists_model_of_any
    (fun model => (model.content? 3).bind Content.counts? = some (7, 0))
    (by decide +kernel : (analyseSource
      "(musicData (n c4 e t7) (n d4 e t-))" "").result.toOption.any _)
  obtain ⟨content, found, counts⟩ :=
    Option.bind_eq_some_iff.mp (of_decide_eq_true isMade)
  cases content <;> cases counts
  exact absurd (positive _ _ model accepted 3 _ _ _ _ _ found).2
    (Nat.not_succ_le_zero 0)

end LdpScore
