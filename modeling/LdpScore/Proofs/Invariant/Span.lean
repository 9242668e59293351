import LdpScore.Proofs.Analysis.Tupling
import LdpScore.Proofs.Invariant.Record
import Mathlib.Data.List.Sort

/-!
# From the start of a tuplet to its stop

Unless legacy labels are used, every new note or rest joins all tuplets that are
open.  What waits under a number is then the start of a tuplet and a continuation
on each note and rest after it, and with its stop a tuplet has as members all
notes and rests from the one that carries its start to the one that carries its
stop.
-/

namespace LdpScore

open Analyser

/-! ## What waits under a number -/

namespace Tuplet

open Pairing

/-- What waits under a number: nothing, or the start of a tuplet and continuations
on all notes and rests that came after it. -/
inductive Ongoing (joined : List Written) (key : Int) :
    List TupletPoint → Prop where
  | closed : Ongoing joined key []
  | opened (earlier later : List Written) (first : Written)
      (start : TupletPoint) (continued : List TupletPoint)
      (isJoined : joined = earlier ++ first :: later)
      (given : first.GivesTuplet start) (isStart : start.phase = .start)
      (isKey : start.number = key) (atFirst : start.noteRest = first.handle)
      (goesOn : ∀ point ∈ continued, point.phase = .continue)
      (atLater : continued.map TupletPoint.noteRest =
        later.map Written.handle) :
      Ongoing joined key (start :: continued)

namespace Ongoing

variable {joined : List Written} {key : Int} {points : List TupletPoint}

/-- What waits, waits on the last of the notes and rests. -/
theorem suffix (ongoing : Ongoing joined key points) :
    points.map TupletPoint.noteRest <:+ joined.map Written.handle := by
  cases ongoing with
  | closed => exact List.nil_suffix
  | opened earlier later first start continued isJoined _ _ _ atFirst _
      atLater =>
      refine ⟨earlier.map Written.handle, ?_⟩
      rw [isJoined, List.map_cons, List.map_append, List.map_cons, atFirst,
        atLater]

/-- A tuplet that is open is also open at the newest note or rest. -/
theorem exists_newest
    {note : Written} (ongoing : Ongoing (joined ++ [note]) key points)
    (someWait : points ≠ []) :
    ∃ point ∈ points, point.noteRest = note.handle := by
  obtain ⟨earlier, whole⟩ := ongoing.suffix
  obtain ⟨front, last, rfl⟩ :=
    List.eq_nil_or_concat' points |>.resolve_left someWait
  rw [List.map_append, List.map_append, ← List.append_assoc] at whole
  have same := (List.append_inj' whole rfl).2
  exact ⟨last, List.mem_append_right _ (List.mem_singleton_self last),
    (List.cons.inj same).1⟩

/-- One more note or rest joins what is open. -/
theorem join
    (ongoing : Ongoing joined key points) (note : Written)
    (location : Location) :
    Ongoing (joined ++ [note]) key
      (Tuplet.join points note.handle location) := by
  cases ongoing with
  | closed => exact .closed
  | opened earlier later first start continued isJoined given isStart isKey
      atFirst goesOn atLater =>
      have noStart : openStarts continued = [] := by
        apply List.filter_eq_nil_iff.mpr
        intro point listed isStart
        rw [goesOn point listed] at isStart
        cases isStart
      have onlyStart : openStarts (start :: continued) = [start] := by
        rw [openStarts, List.filter_cons_of_pos (by simp [isStart]),
          ← openStarts, noStart]
      rw [Tuplet.join, onlyStart]
      refine .opened earlier (later ++ [note]) first start
        (continued ++ [_]) ?_ given isStart isKey atFirst ?_ ?_
      · rw [isJoined, List.append_assoc, List.cons_append]
      · intro point listed
        rcases List.mem_append.mp listed with old | new
        · exact goesOn point old
        · rw [List.mem_singleton.mp new]
      · rw [List.map_append, List.map_append, atLater]
        rfl

end Ongoing

/-- What waits under all numbers. -/
def GoesOn (joined : List Written) (pending : List TupletPoint) : Prop :=
  ∀ key, Ongoing joined key (under key pending)

theorem GoesOn.join
    {joined : List Written} {pending : List TupletPoint}
    (goesOn : GoesOn joined pending) (note : Written) (location : Location) :
    GoesOn (joined ++ [note]) (Tuplet.join pending note.handle location) := by
  intro key
  rw [under_join]
  exact (goesOn key).join note location

/-! ## The members of a tuplet -/

/-- A tuplet joins all notes and rests from the one whose element starts it to the
one whose element stops it. -/
inductive Spans (joined : List Written) : Content → Prop where
  | between (earlier inner later : List Written) (first last : Written)
      (start stop : TupletPoint) (members : Members)
      (isJoined : joined = earlier ++ (first :: inner ++ [last]) ++ later)
      (starts : first.GivesTuplet start) (isStart : start.phase = .start)
      (stops : last.GivesTuplet stop) (isStop : stop.phase = .stop)
      (sameNumber : stop.number = start.number)
      (areMembers : members.map Prod.fst =
        (first :: inner ++ [last]).map Written.handle) :
      Spans joined
        (.tuplet start.actual start.normal start.bracket start.display
          members)

theorem Spans.append
    {joined : List Written} {content : Content} (spans : Spans joined content)
    (more : List Written) :
    Spans (joined ++ more) content := by
  cases spans with
  | between earlier inner later first last start stop members isJoined starts
      isStart stops isStop sameNumber areMembers =>
      refine .between earlier inner (later ++ more) first last start stop
        members ?_ starts isStart stops isStop sameNumber areMembers
      rw [isJoined, List.append_assoc]

end Tuplet

namespace Model

/-- Every tuplet of a model spans the notes and rests from its start to its
stop. -/
def Spanned (joined : List Written) (model : Model) : Prop :=
  ∀ handle content, model.content? handle = some content →
    content.name = "tuplet" → Tuplet.Spans joined content

/-- There is no tuplet that was not the same before. -/
def SameTuplets (before after : Model) : Prop :=
  ∀ handle content, after.content? handle = some content →
    content.name = "tuplet" → before.content? handle = some content

variable {joined : List Written} {before after : Model}

theorem Spanned.same
    (spanned : Spanned joined before) (same : SameTuplets before after) :
    Spanned joined after :=
  fun handle content found isTuplet =>
    spanned handle content (same handle content found isTuplet) isTuplet

theorem Spanned.append
    (spanned : Spanned joined before) (more : List Written) :
    Spanned (joined ++ more) before :=
  fun handle content found isTuplet =>
    (spanned handle content found isTuplet).append more

theorem SameTuplets.refl (model : Model) : SameTuplets model model :=
  fun _ _ found _ => found

theorem Spares.sameTuplets (spares : Spares before after) :
    SameTuplets before after := by
  intro handle content found isTuplet
  by_cases inside : handle < before.size
  · obtain ⟨old, foundOld, retains⟩ := spares.of_lt found inside
    have wasTuplet : old.name = "tuplet" := retains.name.symm.trans isTuplet
    have isRelation : old.members?.isSome := by
      rw [Content.members?_isSome_iff, wasTuplet]
      simp
    rw [retains.relation isRelation (by simp [wasTuplet])]
    exact foundOld
  · have noTuplet := (spares.new handle content found
      (Nat.not_lt.mp inside)).2
    cases content <;> simp_all [Content.tuplet?, Content.name]

theorem SameTuplets.modifyNoteRest
    (model : Model) (handle : Handle) (change : NoteRest → NoteRest) :
    SameTuplets model (model.modifyNoteRest handle change) := by
  intro other content found isTuplet
  rw [Model.modifyNoteRest, content?_modifyContent] at found
  obtain ⟨old, foundOld, rfl⟩ := Option.map_eq_some_iff.mp found
  rw [foundOld]
  split
  · rename_i isChanged
    rw [if_pos isChanged] at isTuplet
    cases old <;> simp_all [Content.mapNoteRest, Content.name]
  · rfl

end Model

theorem Draft.sameTuplets_addObject
    (draft : Draft) (wanted : Option Int) (location : Location)
    {anchor : Option Handle} (anchored : draft.model.HasAnchor anchor)
    {content : Content} (noTuplet : content.name ≠ "tuplet") :
    Model.SameTuplets draft.model
      (draft.addObject wanted location anchor content).2.model := by
  intro handle other found isTuplet
  rw [content?_addObject draft wanted location anchored] at found
  split at found
  · cases found
    exact absurd isTuplet noTuplet
  · exact found

/-- A tuplet is created that spans what it should. -/
theorem Draft.Creates.spanned
    {joined : List Written} {content : Content} {before after : Draft}
    (created : Creates content before after)
    (spanned : before.model.Spanned joined)
    (spans : Tuplet.Spans joined content) :
    after.model.Spanned joined := by
  intro handle other found isTuplet
  rw [created.content?] at found
  split at found
  · cases found
    exact spans
  · obtain ⟨old, foundOld, rfl⟩ := Option.map_eq_some_iff.mp found
    rw [Content.name_effectOn] at isTuplet
    have isRelation : old.members?.isSome := by
      rw [Content.members?_isSome_iff, isTuplet]
      simp
    rw [Content.effectOn_of_members? isRelation]
    exact spanned handle old foundOld isTuplet

namespace Analysis

variable {joined : List Written} {note : Written} {state : Analysis}
variable {point : TupletPoint}

/-- A note or rest that starts a tuplet is its first member. -/
theorem goesOn_offerTuplet_start
    (goesOn : Tuplet.GoesOn (joined ++ [note]) state.pending.tuplets)
    (gives : note.GivesTuplet point) (isOwn : point.noteRest = note.handle)
    (isStart : point.phase = .start) :
    Tuplet.GoesOn (joined ++ [note])
        (state.offerTuplet point).pending.tuplets ∧
      (state.offerTuplet point).draft.model = state.draft.model := by
  rw [offerTuplet, Tuplet.add_eq_settleWith, Pairing.settleWith, Pairing.add]
  rcases Pairing.offer_cases state.pending.tuplets point with
    ⟨reason, outcome⟩ | ⟨outcome, isNew, _⟩ | ⟨outcome, _⟩
  · rw [outcome]
    exact ⟨goesOn, rfl⟩
  · rw [outcome]
    refine ⟨fun key => ?_, rfl⟩
    show Tuplet.Ongoing _ key
      (Pairing.under key (state.pending.tuplets ++ [point]))
    rw [Pairing.under_append]
    split
    · rename_i isKey
      -- A tuplet that was open under the number would be open at this note.
      have noneWaits : Pairing.under key state.pending.tuplets = [] := by
        by_contra someWait
        obtain ⟨other, listed, atNote⟩ := (goesOn key).exists_newest someWait
        obtain ⟨waits, isUnder⟩ := List.mem_filter.mp listed
        exact isNew other waits ((beq_iff_eq.mp isUnder).trans isKey.symm)
          (atNote.trans isOwn.symm)
      rw [noneWaits]
      exact .opened joined [] note point [] rfl gives isStart isKey isOwn
        (List.forall_mem_nil _) rfl
    · rw [List.append_nil]
      exact goesOn key
  · have isStop := Pairing.phase_of_complete outcome
    rw [show Pairing.phase point = point.phase from rfl, isStart] at isStop
    cases isStop

/-- A note or rest that stops a tuplet is its last member. -/
theorem spanned_offerTuplet_stop
    (goesOn : Tuplet.GoesOn joined state.pending.tuplets)
    (spanned : state.draft.model.Spanned joined)
    (gives : note.GivesTuplet point) (isOwn : point.noteRest = note.handle)
    (isStop : point.phase = .stop)
    (waiting : Pairing.Waiting (note.handle + 1) state.pending.tuplets)
    (old : ∀ other ∈ state.pending.tuplets ++ [point],
      other.noteRest < state.draft.model.size) :
    Tuplet.GoesOn joined (state.offerTuplet point).pending.tuplets ∧
      (state.offerTuplet point).draft.model.Spanned (joined ++ [note]) := by
  rw [offerTuplet, Tuplet.add_eq_settleWith, Pairing.settleWith, Pairing.add]
  rcases Pairing.offer_cases state.pending.tuplets point with
    ⟨reason, outcome⟩ | ⟨outcome, _⟩ | ⟨outcome, _, someWait⟩
  · rw [outcome]
    exact ⟨goesOn, spanned.append [note]⟩
  · exact absurd isStop (Pairing.phase_ne_stop_of_waiting outcome)
  · have isUnder : state.pending.tuplets.filter (Pairing.sameNumber point) =
        Pairing.under (Pairing.number point) state.pending.tuplets := rfl
    rw [isUnder] at outcome someWait
    obtain ⟨rising, _⟩ := waiting.chain isOwn outcome
    have inside : ∀ other ∈ Pairing.under (Pairing.number point)
        state.pending.tuplets ++ [point],
          other.noteRest < state.draft.model.size := by
      intro other listed
      apply old other
      rcases List.mem_append.mp listed with waits | isNew
      · exact List.mem_append_left _ (List.mem_filter.mp waits).1
      · exact List.mem_append_right _ isNew
    have ongoing := goesOn (Pairing.number point)
    rw [outcome]
    refine ⟨fun key => ?_, ?_⟩
    · show Tuplet.Ongoing joined key (Pairing.under key
        (state.pending.tuplets.filter _))
      rw [Pairing.under_filter_sameNumber]
      split
      · exact .closed
      · exact goesOn key
    · generalize Pairing.under (Pairing.number point) state.pending.tuplets =
        waits at ongoing someWait rising inside
      cases ongoing with
      | closed => exact absurd rfl someWait
      | opened earlier later first start continued isJoined given isStart
          isKey atFirst _ atLater =>
          have created := Tuplet.creates_linkChain rising inside
          refine created.spanned (spanned.append [note]) ?_
          refine .between earlier later [] first note start point _ ?_ given
            isStart gives isStop isKey.symm ?_
          · rw [isJoined]
            simp
          · rw [Tuplet.map_fst_entries]
            show start.noteRest ::
              (continued ++ [point]).map TupletPoint.noteRest = _
            simp [atFirst, atLater, isOwn]

/-- Without a legacy label a note or rest joins all tuplets that are open. -/
theorem spanned_tupling
    {decorations : Decorations} {before after : Analysis}
    (tupling : Tupling note decorations before after)
    (due : Turn.tuplets.Due note decorations before)
    (decorated : note.Says decorations)
    (noLegacy : decorations.legacyTuplet = none)
    (goesOn : Tuplet.GoesOn joined before.pending.tuplets)
    (spanned : before.draft.model.Spanned joined) :
    Tuplet.GoesOn (joined ++ [note]) after.pending.tuplets ∧
      after.draft.model.Spanned (joined ++ [note]) := by
  have waiting : Pairing.Waiting (note.handle + 1) before.pending.tuplets :=
    due.ready.tupletsWait.mono (Nat.le_succ note.handle)
  have isLegacy : ¬ decorations.legacyTuplet.isSome := by simp [noLegacy]
  cases tupling with
  | useless _ legacy => exact absurd legacy isLegacy
  | legacy _ legacy => exact absurd legacy isLegacy
  | inside =>
      exact ⟨goesOn.join note _, spanned.append [note]⟩
  | starting point _ isPoint noStop =>
      have gives := decorated.givesTuplet isPoint
      have isStart : point.phase = .start := by
        obtain ⟨child, _, _, state, isGiven⟩ := gives
        have noContinue := (yields_analyseTuplet child (some note.handle)
          state point isGiven).noContinue
        cases isPhase : point.phase with
        | start => rfl
        | «continue» => exact absurd isPhase noContinue
        | stop => exact absurd isPhase noStop
      have goesOnJoined : Tuplet.GoesOn (joined ++ [note])
          (before.joinTuplets note.handle note.node.location).pending.tuplets :=
        goesOn.join note note.node.location
      obtain ⟨goesOnToo, sameModel⟩ := goesOn_offerTuplet_start goesOnJoined gives
        (due.areOf.tuplet point isPoint) isStart
      rw [sameModel]
      exact ⟨goesOnToo, spanned.append [note]⟩
  | stopping point _ isPoint isStop =>
      have isOwn := due.areOf.tuplet point isPoint
      obtain ⟨goesOnToo, spannedToo⟩ := spanned_offerTuplet_stop goesOn spanned
        (decorated.givesTuplet isPoint) isOwn isStop waiting
        (due.lt_size_of_waiting waiting isOwn)
      exact ⟨goesOnToo.join note _, spannedToo⟩

/-- A modification of a single note or rest leaves the tuplets alone. -/
theorem sameTuplets_applyModification
    (state : Analysis) (handle : Handle)
    (modification : Option TimeModification) :
    ((applyModification handle modification).run state).run.2.pending.tuplets =
        state.pending.tuplets ∧
      state.draft.model.SameTuplets
        ((applyModification handle modification).run state).run.2.draft.model := by
  cases modification with
  | none => exact ⟨rfl, .refl _⟩
  | some given => exact ⟨rfl, .modifyNoteRest _ handle _⟩

end Analysis

/-! ## What holds at every moment -/

/-- The note or rest that has not yet joined the tuplets around it. -/
def Focus.unjoined? : Focus → Option Written
  | .between => none
  | .reading note => some note
  | .settling note _ _ turn =>
      match turn with
      | .legacyTie | .tie | .modification | .tuplets => some note
      | _ => none

/-- Whether no label of a note or rest is that of a legacy tuplet. -/
def Written.UsesNoLegacy (note : Written) : Prop :=
  ∀ label ∈ note.abbreviations, ¬ label.isLegacyTuplet

theorem Written.Says.noLegacy
    {note : Written} {decorations : Decorations}
    (decorated : note.Says decorations) (usesNone : note.UsesNoLegacy) :
    decorations.legacyTuplet = none := by
  apply Option.eq_none_iff_forall_ne_some.mpr
  intro label given
  obtain ⟨listed, _, isLegacy⟩ :=
    Written.mem_of_tupletLabel? (decorated.legacyTuplet.symm.trans given)
  exact usesNone label listed isLegacy

namespace Moment

/-- The tuplets that are open go on up to the last note or rest that has joined
them, and those that are not span what they should. -/
def Spanned (moment : Moment) : Prop :=
  ∃ joined : List Written,
    moment.written = joined ++ moment.focus.unjoined?.toList ∧
      Tuplet.GoesOn joined moment.state.pending.tuplets ∧
      moment.model.Spanned joined

/-- What leaves the tuplets alone leaves alone what they span. -/
theorem Spanned.keep
    {before : Moment} (spanned : before.Spanned) {after : Analysis}
    {focus : Focus}
    (tuplets : after.pending.tuplets = before.state.pending.tuplets)
    (same : before.model.SameTuplets after.draft.model)
    (unjoined : focus.unjoined? = before.focus.unjoined?) :
    Spanned ⟨after, before.written, focus⟩ := by
  obtain ⟨joined, isWritten, goesOn, spans⟩ := spanned
  refine ⟨joined, ?_, ?_, spans.same same⟩
  · rw [unjoined]
    exact isWritten
  · rw [tuplets]
    exact goesOn

theorem Step.spanned
    {before after : Moment} (step : Step before after)
    (recorded : before.Recorded)
    (usesNone : ∀ note ∈ after.written, note.UsesNoLegacy)
    (spanned : before.Spanned) :
    after.Spanned := by
  cases step with
  | amend _ amends =>
      exact spanned.keep (congrArg Pending.tuplets amends.pending)
        amends.model.sameTuplets rfl
  | write state written note anchor value pitch anchored =>
      obtain ⟨joined, isWritten, goesOn, spans⟩ := spanned
      have isJoined : written = joined :=
        isWritten.trans (List.append_nil joined)
      refine ⟨joined, congrArg (· ++ [note]) isJoined, goesOn, ?_⟩
      refine spans.same (Draft.sameTuplets_addObject _ _ _ anchored ?_)
      cases note.flavor <;> simp [noteRestContent, Content.name]
  | read state written note value decorations reads =>
      refine spanned.keep rfl (.refl _) ?_
      cases flavor : note.flavor <;> rfl
  | turn state written note value decorations turn due =>
      by_cases isModification : turn = .modification
      · subst isModification
        obtain ⟨tuplets, same⟩ := Analysis.sameTuplets_applyModification state
          note.handle decorations.timeModification
        exact spanned.keep tuplets same rfl
      · by_cases isTuplets : turn = .tuplets
        · subst isTuplets
          obtain ⟨joined, isWritten, goesOn, spans⟩ := spanned
          have listed : note ∈ written :=
            List.mem_of_getLast? (recorded.newest note rfl)
          refine ⟨joined ++ [note], ?_, Analysis.spanned_tupling
            (tupling_action value) due recorded.decorated
            (recorded.decorated.noLegacy (usesNone note listed)) goesOn spans⟩
          exact isWritten.trans (List.append_nil _).symm
        · have spares :=
            (spares_action value due isModification isTuplets).1
          refine spanned.keep spares.tuplets spares.model.sameTuplets ?_
          cases turn <;> first | rfl | contradiction
  | sound state written note value decorations base baseIs isNote =>
      refine spanned.keep rfl ?_ rfl
      exact (spares_joinChord recorded.chords baseIs isNote).sameTuplets
  | finish state written note value decorations =>
      exact spanned.keep rfl (.refl _) rfl
  | flush state written =>
      obtain ⟨joined, isWritten, _, spans⟩ := spanned
      refine ⟨joined, isWritten, fun _ => .closed, ?_⟩
      show Model.Spanned joined (state.pending.reportAll state.draft).model
      rw [(Pending.silent_reportAll state.pending state.draft).model]
      exact spans

theorem Run.spanned
    {moment : Moment} (run : start.Run moment)
    (usesNone : ∀ note ∈ moment.written, note.UsesNoLegacy) :
    moment.Spanned := by
  induction run with
  | refl =>
      refine ⟨[], rfl, fun _ => .closed, fun handle content found => ?_⟩
      exact absurd (Model.lt_size_of_content? found) (Nat.not_lt_zero handle)
  | tail run step induction =>
      apply step.spanned (Run.recorded run) usesNone
      apply induction
      intro note listed
      exact usesNone note ((Run.written_prefix (.single step)).subset listed)

/-- The notes and rests of the model in the order of their handles. -/
theorem Recorded.map_handle
    {moment : Moment} (recorded : moment.Recorded) :
    moment.written.map Written.handle =
      moment.model.handles.filter fun handle =>
        (moment.model.noteRest? handle).isSome := by
  have rising : (moment.model.handles.filter fun handle =>
      (moment.model.noteRest? handle).isSome).Pairwise (· < ·) :=
    List.Pairwise.filter _ List.pairwise_lt_range
  apply recorded.rising.eq_of_mem_iff rising
  intro handle
  rw [← recorded.notes handle, List.mem_filter, Model.handles, List.mem_range]
  exact ⟨fun isNoteRest => ⟨isNoteRest.lt_size, isNoteRest⟩, And.right⟩

end Moment

/-- In a rising list a part consists of all between its first and its last. -/
theorem filter_between
    {earlier inner later : List Handle} {first last : Handle}
    (rising : (earlier ++ (first :: inner ++ [last]) ++ later).Pairwise
      (· < ·)) :
    ((earlier ++ (first :: inner ++ [last]) ++ later).filter fun handle =>
      first ≤ handle ∧ handle ≤ last) = first :: inner ++ [last] := by
  obtain ⟨front, _, beyond⟩ := List.pairwise_append.mp rising
  obtain ⟨_, within, before⟩ := List.pairwise_append.mp front
  obtain ⟨_, _, upTo⟩ := List.pairwise_append.mp within
  have isFirst : first ∈ first :: inner ++ [last] := List.mem_cons_self ..
  have isLast : last ∈ first :: inner ++ [last] :=
    List.mem_append_right _ (List.mem_singleton_self last)
  have noneBefore : (earlier.filter fun handle =>
      first ≤ handle ∧ handle ≤ last) = [] := by
    apply List.filter_eq_nil_iff.mpr
    intro handle listed
    have lower := before handle listed first isFirst
    simp only [decide_eq_true_eq]
    exact fun both => Nat.not_lt.mpr both.1 lower
  have noneBeyond : (later.filter fun handle =>
      first ≤ handle ∧ handle ≤ last) = [] := by
    apply List.filter_eq_nil_iff.mpr
    intro handle listed
    have higher := beyond last (List.mem_append_right _ isLast) handle listed
    simp only [decide_eq_true_eq]
    exact fun both => Nat.not_lt.mpr both.2 higher
  have allWithin : ((first :: inner ++ [last]).filter fun handle =>
      first ≤ handle ∧ handle ≤ last) = first :: inner ++ [last] := by
    apply List.filter_eq_self.mpr
    intro handle listed
    have above : first ≤ handle := by
      rcases List.mem_cons.mp (List.cons_append ▸ listed) with rfl | other
      · exact Nat.le_refl handle
      · exact Nat.le_of_lt ((List.pairwise_cons.mp within).1 handle other)
    have below : handle ≤ last := by
      rcases List.mem_append.mp listed with other | isOwn
      · exact Nat.le_of_lt (upTo handle other last (List.mem_singleton_self _))
      · exact Nat.le_of_eq (List.mem_singleton.mp isOwn)
    simp only [decide_eq_true_eq]
    exact ⟨above, below⟩
  rw [List.filter_append, List.filter_append, noneBefore, noneBeyond, allWithin,
    List.nil_append, List.append_nil]

/-! ## Texts without legacy labels -/

namespace Node

/-- Whether a node is an element of a note or rest. -/
def isNoteRest (node : Node) : Bool :=
  node.is .note || node.is .chordNote || node.is .rest

/-- The labels of a note or rest after its pitch, if it has one, and its value. -/
def abbreviations (node : Node) : List Node :=
  (node.children.takeWhile isLabel).drop (if node.is .rest then 1 else 2)

/-- Whether no note or rest of a tree has the label of a legacy tuplet. -/
def UsesNoLegacy (root : Node) : Prop :=
  ∀ node ∈ root.nodes, node.isNoteRest →
    ∀ label ∈ node.abbreviations, ¬ label.isLegacyTuplet

instance (root : Node) : Decidable root.UsesNoLegacy :=
  inferInstanceAs (Decidable (∀ node ∈ root.nodes, node.isNoteRest →
    ∀ label ∈ node.abbreviations, ¬ label.isLegacyTuplet))

end Node

/-- The element of a note or rest and what it becomes are of one kind. -/
theorem Written.IsMade.kind
    {note : Written} (made : note.IsMade) :
    note.node.isNoteRest ∧ note.abbreviations = note.node.abbreviations := by
  obtain ⟨value, pitch, isFrom⟩ := made
  obtain ⟨kind, isKind, isOf⟩ := Option.any_eq_true _ _ |>.mp isFrom
  have is : ∀ other, note.node.is other = (kind == other) := by
    intro other
    simp [Node.is, isKind]
  rw [Node.isNoteRest, Node.abbreviations, Written.abbreviations, is, is, is]
  cases flavor : note.flavor <;> rw [flavor] at isOf <;>
    simp only [noteRestContent, Content.isOf, Bool.or_eq_true, beq_iff_eq]
      at isOf
  · rcases isOf with rfl | rfl <;> simp
  · rcases isOf with rfl | rfl <;> simp
  · subst isOf
    simp

/-- Where a text uses no legacy labels for tuplets, its notes and rests have
none. -/
theorem Moment.Leads.usesNoLegacy
    {moment : Moment} {root : Node} {model : Model}
    (leads : moment.Leads root model) (noLegacy : root.UsesNoLegacy) :
    ∀ note ∈ moment.written, note.UsesNoLegacy := by
  intro note listed label isLabel
  obtain ⟨isNoteRest, same⟩ := (leads.1.recorded.made note listed).kind
  rw [same] at isLabel
  exact noLegacy note.node (leads.mem_nodes listed) isNoteRest label isLabel

/-- A tuplet starts at one note or rest and stops at another one, as the elements
of both have it, and its members are all notes and rests from the one to the
other. -/
structure Model.SpansFrom
    (model : Model) (first last : Written) (start stop : TupletPoint)
    (content : Content) : Prop where
  starts : first.GivesTuplet start
  isStart : start.phase = .start
  stops : last.GivesTuplet stop
  isStop : stop.phase = .stop
  sameNumber : stop.number = start.number
  isTuplet : ∃ members, content =
    .tuplet start.actual start.normal start.bracket start.display members
  members : content.memberHandles =
    model.handles.filter fun handle =>
      (model.noteRest? handle).isSome &&
        (first.handle ≤ handle ∧ handle ≤ last.handle)

theorem Tuplet.Spans.spansFrom
    {joined : List Written} {content : Content} {model : Model}
    (spans : Spans joined content)
    (rising : (joined.map Written.handle).Pairwise (· < ·))
    (handles : joined.map Written.handle =
      model.handles.filter fun handle => (model.noteRest? handle).isSome) :
    ∃ first ∈ joined, ∃ last ∈ joined, ∃ start stop,
      model.SpansFrom first last start stop content := by
  cases spans with
  | between earlier inner later first last start stop members inOrder starts
      isStart stops isStop sameNumber areMembers =>
      refine ⟨first, by simp [inOrder], last, by simp [inOrder], start, stop,
        starts, isStart, stops, isStop, sameNumber, ⟨members, rfl⟩, ?_⟩
      rw [inOrder, List.map_append, List.map_append, List.map_append,
        List.map_cons, List.map_singleton] at rising handles
      have within := filter_between rising
      rw [handles, List.filter_filter] at within
      show members.map Prod.fst = _
      rw [areMembers, List.map_append, List.map_cons, List.map_singleton,
        ← within]
      apply List.filter_congr
      intro handle _
      exact Bool.and_comm ..

/--
Where a text uses no legacy labels for tuplets, every tuplet has as members all
notes and rests, in order, from the one whose element starts it to the one whose
element stops it.
-/
theorem spansFrom_analyseSource
    (source file : String) {model : Model} {root : Node}
    (accepted : (analyseSource source file).result = .ok model)
    (isTree : (Node.read (Token.lex source file)).result = .ok root)
    (noLegacy : root.UsesNoLegacy) :
    ∃ moment : Moment, moment.Leads root model ∧ moment.model = model ∧
      ∀ tuplet content, model.content? tuplet = some content →
        content.name = "tuplet" →
          ∃ first ∈ moment.written, ∃ last ∈ moment.written, ∃ start stop,
            model.SpansFrom first last start stop content := by
  obtain ⟨other, moment, isTreeToo, leads, idle, _, isLast, _⟩ :=
    Moment.exists_last_of_accepted accepted
  rw [isTree] at isTreeToo
  cases isTreeToo
  obtain ⟨joined, isWritten, _, spanned⟩ :=
    leads.1.spanned (leads.usesNoLegacy noLegacy)
  have isJoined : moment.written = joined := by
    rw [isWritten, idle]
    exact List.append_nil joined
  subst isJoined isLast
  refine ⟨moment, leads, rfl, fun tuplet content found isTuplet => ?_⟩
  exact (spanned tuplet content found isTuplet).spansFrom
    leads.1.recorded.rising leads.1.recorded.map_handle

/-- Two triplets overlap: the second one starts in the first one, in which there is
also a note of a chord, and stops after it. -/
theorem spansFrom_overlapping_triplets :
    ∃ model root,
      (analyseSource
        ("(score (vers 2.0) (instrument (musicData (n c4 e (t 1 + 3 2))" ++
          "(na e4 e) (n c4 e (t 2 + 3 2)) (n c4 e (t 1 -)) (r e (t 2 -)))))")
        "").result = .ok model ∧ root.UsesNoLegacy ∧
      ((model.content? 8).map Content.memberHandles = some [3, 4, 6, 7] ∧
        (model.content? 10).map Content.memberHandles = some [6, 7, 9]) ∧
      ∃ moment : Moment, moment.Leads root model ∧ moment.model = model ∧
        ∀ tuplet content, model.content? tuplet = some content →
          content.name = "tuplet" →
            ∃ first ∈ moment.written, ∃ last ∈ moment.written, ∃ start stop,
              model.SpansFrom first last start stop content := by
  obtain ⟨model, accepted, checked⟩ := exists_model_of_any
    (fun model =>
      (model.content? 8).map Content.memberHandles = some [3, 4, 6, 7] ∧
        (model.content? 10).map Content.memberHandles = some [6, 7, 9])
    (by decide +kernel : (analyseSource
      ("(score (vers 2.0) (instrument (musicData (n c4 e (t 1 + 3 2))" ++
        "(na e4 e) (n c4 e (t 2 + 3 2)) (n c4 e (t 1 -)) (r e (t 2 -)))))")
      "").result.toOption.any _)
  obtain ⟨root, isTree, noLegacy⟩ := exists_tree_of_any
    (fun root => root.UsesNoLegacy)
    (by decide +kernel : (Node.read (Token.lex
      ("(score (vers 2.0) (instrument (musicData (n c4 e (t 1 + 3 2))" ++
        "(na e4 e) (n c4 e (t 2 + 3 2)) (n c4 e (t 1 -)) (r e (t 2 -)))))")
      "")).result.toOption.any _)
  have noLegacy := of_decide_eq_true noLegacy
  exact ⟨model, root, accepted, noLegacy, of_decide_eq_true checked,
    spansFrom_analyseSource _ _ accepted isTree noLegacy⟩

end LdpScore
