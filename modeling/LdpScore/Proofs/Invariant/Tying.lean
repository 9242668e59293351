import LdpScore.Proofs.Invariant.Passing
import LdpScore.Proofs.Relation.Making
import LdpScore.Proofs.Relation.Queue
import LdpScore.Proofs.Score.Tie

/-!
# What ties are made of

Ties come about at two turns of a note: first it may end the legacy tie that waits,
then the numbered one that its element stops.  Either way a note that waits is tied
with the newest one (`Tying`), and only if both sound the same.  Nothing else changes
how notes sound, so that ties stay sound ever after.
-/

namespace LdpScore

open Analyser Pairing

/-- What does not stop a tie starts one. -/
theorem TiePoint.isStart_of_phase
    {point : TiePoint} (noStop : phase point ≠ .stop) :
    point.isStart := by
  change (if point.isStart then Phase.start else .stop) ≠ .stop at noStop
  split at noStop
  · assumption
  · exact absurd rfl noStop

/-- The legacy tie that waits ends at the note that is offered, or nothing is made. -/
theorem LegacyTie.offer_cases
    (pending : Option LegacyTie) (note : Handle) (draft : Draft) :
    (∃ tie, pending = some tie ∧ Tie.canTie draft.model tie.note note ∧
      offer pending note draft =
        (none, Tie.link ⟨tie.note, none⟩ ⟨note, none⟩ none none draft)) ∨
      ((offer pending note draft).2.model = draft.model ∧
        ∀ tie, (offer pending note draft).1 = some tie → pending = some tie) := by
  cases pending with
  | none => exact Or.inr ⟨rfl, fun _ waits => waits⟩
  | some tie =>
      by_cases canTie : Tie.canTie draft.model tie.note note = true
      · refine Or.inl ⟨tie, rfl, canTie, ?_⟩
        simp only [offer, if_pos canTie]
      · refine Or.inr ?_
        by_cases sameVoice : Tie.sameVoice draft.model tie.note note = true
        · simp only [offer, if_neg canTie, if_pos sameVoice]
          refine ⟨rfl, fun _ waits => ?_⟩
          cases waits
        · simp only [offer, if_neg canTie, if_neg sameVoice]
          exact ⟨trivial, fun _ waits => waits⟩

/-- What becomes of the ties at a turn of theirs: nothing, or a tie leads from a note
that waits to the newest one, which may have to ask for it.  Only the newest one may
wait anew. -/
inductive Tying
    (newest : Handle) (asked : Prop) (waits waitsAfter : Handle → Prop)
    (before after : Model) : Prop where
  | idle (same : after = before)
      (kept : ∀ note, waitsAfter note → waits note ∨ note = newest)
  | ties (start : Handle) (waited : waits start) (asks : asked)
      (ties : before.Ties start newest after) (matched : before.Match start newest)
      (kept : ∀ note, waitsAfter note → waits note ∨ note = newest)
      (gone : start ≠ newest → ¬ waitsAfter start)

/-- Sound ties stay sound when those that wait are below the newest note. -/
theorem Tying.sound
    {newest : Handle} {asked : Prop} {waits waitsAfter : Handle → Prop}
    {before after : Model}
    (tying : Tying newest asked waits waitsAfter before after)
    (below : ∀ note, waits note → note < newest) (sound : before.TiesSound) :
    after.TiesSound := by
  cases tying with
  | idle same =>
      rw [same]
      exact sound
  | ties start waited _ ties matched =>
      exact sound.tie ties (below start waited) matched

namespace Passage

/-! ## What notes ask for -/

/-- The element of a note asks for a legacy tie. -/
def AsksTie (heard : List Heard) (handle : Handle) : Prop :=
  ∃ note ∈ heard, note.handle = handle ∧ note.decorations.legacyTie.isSome

/-- A descriptor of a tie is what a note asks for. -/
def GivesTie (heard : List Heard) (point : TiePoint) : Prop :=
  ∃ note ∈ heard, note.handle = point.note ∧ note.decorations.tie = some point

/-- The element of a note starts a numbered tie. -/
def StartsTie (heard : List Heard) (handle : Handle) : Prop :=
  ∃ point, GivesTie heard point ∧ point.note = handle ∧ point.isStart

/-- The element of a note stops a numbered tie. -/
def StopsTie (heard : List Heard) (handle : Handle) : Prop :=
  ∃ point, GivesTie heard point ∧ point.note = handle ∧ ¬ point.isStart

theorem AsksTie.mono
    {earlier later : List Heard} (grows : earlier <+: later) {handle : Handle}
    (asks : AsksTie earlier handle) :
    AsksTie later handle := by
  obtain ⟨note, isHeard, rest⟩ := asks
  exact ⟨note, grows.subset isHeard, rest⟩

theorem GivesTie.mono
    {earlier later : List Heard} (grows : earlier <+: later) (point : TiePoint)
    (gives : GivesTie earlier point) :
    GivesTie later point := by
  obtain ⟨note, isHeard, rest⟩ := gives
  exact ⟨note, grows.subset isHeard, rest⟩

/-! ## Who waits -/

/-- The legacy tie of a note waits. -/
def WaitsLegacy (pending : Pending) (note : Handle) : Prop :=
  ∃ tie, pending.legacyTie = some tie ∧ tie.note = note

/-- The numbered tie of a note waits. -/
def WaitsNumbered (pending : Pending) (note : Handle) : Prop :=
  ∃ point ∈ pending.ties, point.note = note

/-- The ties of a passage, and what waits to become one. -/
structure Tied (passage : Passage) : Prop where
  sound : passage.model.TiesSound
  legacy : ∀ note, WaitsLegacy passage.pending note →
    note < passage.bound .legacyTie ∧ AsksTie passage.heard note
  queued : Queued (GivesTie passage.heard) (passage.bound .tie)
    passage.pending.ties

/-! ## The legacy tie -/

end Passage

namespace Analyser

open Passage

/-- At the turn of the legacy tie the one that waits may end at the newest note. -/
theorem tying_settleLegacyTie
    (state : Analysis) (handle : Handle) (label : Option Node) :
    Ensures (settleLegacyTie label handle) state fun _ after =>
      Tying handle True (WaitsLegacy state.pending) (WaitsLegacy after.pending)
          state.draft.model after.draft.model ∧
        (∀ note, WaitsLegacy after.pending note →
          WaitsLegacy state.pending note ∨ (note = handle ∧ label.isSome)) := by
  have offered : ∀ (later : Option LegacyTie),
      (∀ tie, later = some tie →
        (LegacyTie.offer state.pending.legacyTie handle state.draft).1 =
          some tie ∨ (tie.note = handle ∧ label.isSome)) →
      Tying handle True (WaitsLegacy state.pending)
          (WaitsLegacy { state.pending with legacyTie := later })
          state.draft.model
          (LegacyTie.offer state.pending.legacyTie handle state.draft).2.model ∧
        (∀ note, WaitsLegacy { state.pending with legacyTie := later } note →
          WaitsLegacy state.pending note ∨ (note = handle ∧ label.isSome)) := by
    intro later follows
    have isNew : ∀ note, WaitsLegacy { state.pending with legacyTie := later }
        note → (∀ tie,
          (LegacyTie.offer state.pending.legacyTie handle state.draft).1 =
            some tie → state.pending.legacyTie = some tie) →
          WaitsLegacy state.pending note ∨ (note = handle ∧ label.isSome) := by
      rintro note ⟨tie, isLater, rfl⟩ kept
      rcases follows tie isLater with stays | new
      · exact Or.inl ⟨tie, kept tie stays, rfl⟩
      · exact Or.inr new
    rcases LegacyTie.offer_cases state.pending.legacyTie handle state.draft with
      ⟨tie, isWaiting, canTie, offered⟩ | ⟨same, kept⟩
    · have noneKept : ∀ other,
          (LegacyTie.offer state.pending.legacyTie handle state.draft).1 =
            some other → state.pending.legacyTie = some other := by
        rw [offered]
        exact nofun
      refine ⟨.ties tie.note ⟨tie, isWaiting, rfl⟩ trivial ?_
        (Model.match_of_canTie canTie)
        (fun note waits => (isNew note waits noneKept).imp_right And.left) ?_,
        fun note waits => isNew note waits noneKept⟩
      · rw [offered]
        exact Tie.ties_link ⟨tie.note, none⟩ ⟨handle, none⟩ canTie none none
      · rintro other ⟨later, isLater, isStart⟩
        rcases follows later isLater with stays | new
        · rw [offered] at stays
          cases stays
        · exact other (isStart.symm.trans new.1)
    · exact ⟨.idle same fun note waits => (isNew note waits kept).imp_right
        And.left, fun note waits => isNew note waits kept⟩
  rw [settleLegacyTie]
  cases label with
  | none => exact offered _ fun tie isLater => Or.inl isLater
  | some label =>
      refine offered _ fun tie isLater => Or.inr ?_
      cases isLater
      exact ⟨rfl, rfl⟩

/-- At the turn of the numbered tie the one that the newest note stops is made. -/
theorem tying_offerTie
    {state : Analysis} {heard : List Heard} {note : Heard} (isHeard : note ∈ heard)
    (areOf : note.decorations.AreOf note.flavor note.handle)
    (queued : Queued (GivesTie heard) note.handle state.pending.ties) :
    Ensures (offerTie note.decorations) state fun _ after =>
      Queued (GivesTie heard) (note.handle + 1) after.pending.ties ∧
        Tying note.handle (StopsTie heard note.handle)
          (WaitsNumbered state.pending) (WaitsNumbered after.pending)
          state.draft.model after.draft.model := by
  rw [offerTie]
  cases isPoint : note.decorations.tie with
  | none =>
      exact ⟨queued.mono (Nat.le_succ note.handle) fun _ => id,
        .idle rfl fun _ => Or.inl⟩
  | some point =>
      have isOwn : point.note = note.handle := areOf.tie point isPoint
      have isGiven : GivesTie heard point := ⟨note, isHeard, isOwn.symm, isPoint⟩
      obtain ⟨stillQueued, settling⟩ :=
        queued.settle isOwn isGiven Tie.linkChain .tie state.draft
      rw [← Tie.add_eq_settleWith] at stillQueued settling
      refine ⟨stillQueued, ?_⟩
      show Tying _ _ _ (WaitsNumbered { state.pending with
          ties := (Tie.add state.pending.ties point state.draft).1 }) _
        (Tie.add state.pending.ties point state.draft).2.model
      generalize Tie.add state.pending.ties point state.draft = result
        at settling
      have keeps : ∀ {rest : List TiePoint}, (∀ other ∈ rest,
            other ∈ state.pending.ties ∨ other = point) →
          ∀ handle, WaitsNumbered { state.pending with ties := rest } handle →
            WaitsNumbered state.pending handle ∨ handle = note.handle := by
        rintro rest kept _ ⟨other, waits, rfl⟩
        rcases kept other waits with old | rfl
        · exact Or.inl ⟨other, old, rfl⟩
        · exact Or.inr isOwn
      cases settling with
      | idle rest after same kept => exact .idle same (keeps kept)
      | linked front rest completed listed kept apart =>
          have starts : startsOf front = front := by
            refine List.filter_eq_self.mpr fun other isFront => beq_iff_eq.mpr ?_
            have isStart : other.isStart := TiePoint.isStart_of_phase
              (queued.unstopped other (listed other isFront))
            show (if other.isStart then Phase.start else .stop) = .start
            rw [if_pos isStart]
          have distinct := completed.starts
          rw [starts] at distinct
          obtain ⟨start, rfl⟩ := (eq_nil_or_singleton distinct fun other isFront =>
            completed.isChain.number _
              (List.mem_map_of_mem isFront)).resolve_left completed.someWait
          have waits : start ∈ state.pending.ties :=
            listed start (List.mem_singleton_self start)
          have stops : StopsTie heard note.handle := by
            refine ⟨point, isGiven, isOwn, fun isStart => ?_⟩
            have isStop : (if point.isStart then Phase.start else .stop) = .stop :=
              completed.isChain.stops
            rw [if_pos isStart] at isStop
            cases isStop
          have linked : Tie.linkChain ([start] ++ [point]) state.draft =
              if Tie.canTie state.draft.model start.note point.note then
                Tie.link ⟨start.note, start.bezier⟩ ⟨point.note, point.bezier⟩
                  (some start.number) start.color state.draft
              else state.draft.report point.location
                (.incompatibleTie point.number) := rfl
          have keptWaiting := keeps fun other isOther => Or.inl (kept other isOther)
          rw [linked]
          split
          · rename_i canTie
            rw [← isOwn] at stops keptWaiting ⊢
            refine .ties start.note ⟨start, waits, rfl⟩ stops
              (Tie.ties_link ⟨start.note, start.bezier⟩
                ⟨point.note, point.bezier⟩ canTie (some start.number) start.color)
              (Model.match_of_canTie canTie) keptWaiting ?_
            rintro _ ⟨other, isOther, same⟩
            exact apart other isOther start (List.mem_singleton_self start) same
          · exact .idle rfl keptWaiting

end Analyser

namespace Passage

/-- What a step means for the ties: it omits them, or it is one of their turns. -/
inductive TieStep (before after : Passage) : Prop where
  | aside (omits : Model.Omits "tie" before.model after.model)
      (tunes : Model.KeepsTunes before.model after.model)
      (legacy : ∀ note, WaitsLegacy after.pending note →
        WaitsLegacy before.pending note)
      (ties : after.pending.ties = [] ∨ after.pending.ties = before.pending.ties)
  | legacy (newest : Handle) (due : before.bound .legacyTie = newest)
      (passed : after.bound .legacyTie = newest + 1)
      (early : before.bound .tie ≤ newest)
      (tying : Tying newest True (WaitsLegacy before.pending)
        (WaitsLegacy after.pending) before.model after.model)
      (asked : ∀ note, WaitsLegacy after.pending note →
        WaitsLegacy before.pending note ∨
          (note = newest ∧ AsksTie after.heard newest))
      (ties : after.pending.ties = before.pending.ties)
  | numbered (newest : Handle) (due : before.bound .tie = newest)
      (passed : after.bound .tie = newest + 1)
      (tying : Tying newest (StopsTie after.heard newest)
        (WaitsNumbered before.pending) (WaitsNumbered after.pending)
        before.model after.model)
      (queued : Queued (GivesTie after.heard) (newest + 1) after.pending.ties)
      (legacy : ∀ note, WaitsLegacy after.pending note →
        WaitsLegacy before.pending note)

theorem Step.waitsLegacy
    {before after : Passage} (step : Step before after)
    (other : ∀ note turn, before.due = some (note, turn) → turn ≠ .legacyTie)
    (note : Handle) (waits : WaitsLegacy after.pending note) :
    WaitsLegacy before.pending note := by
  obtain ⟨tie, isLegacy, isOwn⟩ := waits
  rcases step.pending_cases Pending.legacyTie .legacyTie
    (fun differs changes => by
      cases changes <;> first | rfl | exact absurd rfl differs) other with
    none | same
  · rw [none] at isLegacy
    cases isLegacy
  · exact ⟨tie, same.symm.trans isLegacy, isOwn⟩

theorem Step.pending_ties
    {before after : Passage} (step : Step before after)
    (other : ∀ note turn, before.due = some (note, turn) → turn ≠ .tie) :
    after.pending.ties = [] ∨ after.pending.ties = before.pending.ties :=
  step.pending_cases Pending.ties .tie (fun differs changes => by
    cases changes <;> first | rfl | exact absurd rfl differs) other

theorem Step.tieStep
    {before after : Passage} (step : Step before after)
    (orderly : before.Orderly) (tied : before.Tied) :
    TieStep before after := by
  by_cases omitted : before.Omits "tie"
  · have noTurn : ∀ own : Turn, own.word = "tie" → ∀ note turn,
        before.due = some (note, turn) → turn ≠ own := by
      rintro own isTie note turn isDue rfl
      exact omitted note turn isDue isTie
    refine .aside (step.omits orderly omitted fun content named => ?_)
      (step.keepsTunes orderly omitted) (step.waitsLegacy (noTurn _ rfl))
      (step.pending_ties (noTurn _ rfl))
    exact (Content.members?_isSome_iff content).mpr (by simp [named])
  · obtain ⟨note, turn, isDue, isOwn⟩ := exists_turn_of_not_omits omitted
    have isHeard := orderly.due_mem isDue
    cases step with
    | turn state heard other own =>
        cases isDue
        have wholeStep := Step.turn state heard note turn
        cases turn with
        | legacyTie =>
            obtain ⟨tying, asked⟩ := tying_settleLegacyTie state note.handle
              note.decorations.legacyTie
            refine .legacy note.handle rfl rfl (Nat.le_refl _) tying
              (fun handle waits => ?_) rfl
            exact (asked handle waits).imp_right fun new =>
              ⟨new.1, note, isHeard, rfl, new.2⟩
        | tie =>
            obtain ⟨queued, tying⟩ := tying_offerTie isHeard
              (orderly.areOf note isHeard) tied.queued
            refine .numbered note.handle rfl rfl tying queued
              (wholeStep.waitsLegacy ?_)
            rintro other turn ⟨⟩
            exact nofun
        | _ => simp [Turn.word] at isOwn
    | sound => cases isDue; simp [Turn.word] at isOwn
    | finish => cases isDue; simp [Turn.word] at isOwn
    | _ => cases isDue

/-- Ties are sound, and what waits to become one is below the newest note. -/
theorem Step.tied
    {before after : Passage} (step : Step before after)
    (orderly : before.Orderly) (tied : before.Tied) :
    after.Tied := by
  have grows := step.heard_prefix
  have given := GivesTie.mono grows
  have rises := step.bound_le orderly
  have legacyKept : (∀ note, WaitsLegacy after.pending note →
      WaitsLegacy before.pending note) → ∀ note, WaitsLegacy after.pending note →
        note < after.bound .legacyTie ∧ AsksTie after.heard note := by
    intro kept note waits
    obtain ⟨below, asks⟩ := tied.legacy note (kept note waits)
    exact ⟨Nat.lt_of_lt_of_le below (rises .legacyTie), asks.mono grows⟩
  have queuedKept : after.pending.ties = before.pending.ties →
      Queued (GivesTie after.heard) (after.bound .tie) after.pending.ties := by
    intro same
    rw [same]
    exact tied.queued.mono (rises .tie) given
  cases step.tieStep orderly tied with
  | aside omits tunes legacy ties =>
      refine ⟨tied.sound.of_omits omits tunes, legacyKept legacy, ?_⟩
      rcases ties with none | same
      · rw [none]
        exact .nil _ _
      · exact queuedKept same
  | legacy newest due passed _ tying asked ties =>
      refine ⟨tying.sound (fun note waits => due ▸ (tied.legacy note waits).1)
        tied.sound, fun note waits => ?_, queuedKept ties⟩
      rw [passed]
      rcases asked note waits with old | ⟨rfl, asks⟩
      · obtain ⟨below, asks⟩ := tied.legacy note old
        exact ⟨Nat.lt_succ_of_lt (due ▸ below), asks.mono grows⟩
      · exact ⟨Nat.lt_succ_self note, asks⟩
  | numbered newest due passed tying queued legacy =>
      refine ⟨tying.sound ?_ tied.sound, legacyKept legacy, passed ▸ queued⟩
      rintro note ⟨point, waits, rfl⟩
      exact due ▸ tied.queued.waiting.below point waits

theorem Tied.start : Tied Passage.start := by
  have empty : ∀ handle content, Passage.start.model.content? handle ≠ some content :=
    fun handle content found =>
      Nat.not_lt_zero handle (Model.lt_size_of_content? found)
  have noTie : ∀ tie first last, ¬ Passage.start.model.IsTie tie first last :=
    fun tie first last isTie => Nat.not_lt_zero tie isTie.lt_size
  have noneKnown : ∀ note tie, Passage.start.model.tieNext? note ≠ some tie ∧
      Passage.start.model.tiePrevious? note ≠ some tie := by
    intro note tie
    have noNote : Passage.start.model.note? note = none :=
      Option.not_isSome_iff_eq_none.mp fun isNote =>
        Nat.not_lt_zero note (Model.IsNote.lt_size isNote)
    rw [Model.tieNext?, Model.tiePrevious?, noNote]
    exact ⟨nofun, nofun⟩
  refine ⟨⟨?_, ?_, ?_, ?_, ?_⟩, ?_, .nil _ _⟩
  · exact fun tie content found => absurd found (empty tie content)
  · exact fun tie first last isTie => absurd isTie (noTie tie first last)
  · exact fun tie first last isTie => absurd isTie (noTie tie first last)
  · exact fun note tie known => absurd known (noneKnown note tie).1
  · exact fun note tie known => absurd known (noneKnown note tie).2
  · rintro note ⟨tie, ⟨⟩, _⟩

theorem Run.tied {passage : Passage} (run : start.Run passage) :
    passage.Tied := by
  induction run with
  | refl => exact .start
  | tail run step induction => exact step.tied (Run.orderly run) induction

end Passage

/--
Ties are sound.  For every text that is accepted, each tie of its model leads from a
note to a later one, and both have the same voice, staff and pitch.  A note that
takes a tie for the next one is its start, and a note that takes a tie for the one
before is its end.
-/
theorem tiesSound_analyseSource
    (source file : String) {model : Model}
    (accepted : (analyseSource source file).result = .ok model) :
    (∀ tie number color members,
      model.content? tie = some (.tie number color members) →
        ∃ start finish atStart atFinish first second,
          members = [(start, .tie true atStart), (finish, .tie false atFinish)] ∧
          start < finish ∧
          model.note? start = some first ∧ model.note? finish = some second ∧
          first.noteRest.voice = second.noteRest.voice ∧
          first.noteRest.appearance.staff = second.noteRest.appearance.staff ∧
          first.pitch = second.pitch) ∧
      (∀ note tie, model.tieNext? note = some tie →
        ∃ finish, model.IsTie tie note finish) ∧
      ∀ note tie, model.tiePrevious? note = some tie →
        ∃ start, model.IsTie tie start note := by
  obtain ⟨root, last, _, isLast⟩ := Passage.exists_last_of_accepted accepted
  have sound := isLast.run.tied.sound
  rw [isLast.isModel] at sound
  refine ⟨fun tie number color members found => ?_, sound.next, sound.previous⟩
  obtain ⟨start, finish, isTie⟩ := sound.shape tie _ found rfl
  obtain ⟨first, second, isFirst, isSecond, matched⟩ :=
    sound.matched tie start finish isTie
  have ordered := sound.ordered tie start finish isTie
  rw [Model.tune?_eq_bind] at isFirst isSecond
  obtain ⟨note, isNote, rfl⟩ := Option.map_eq_some_iff.mp isFirst
  obtain ⟨other, isOther, rfl⟩ := Option.map_eq_some_iff.mp isSecond
  obtain ⟨_, _, atStart, atFinish, isContent⟩ := isTie
  cases found.symm.trans isContent
  exact ⟨start, finish, atStart, atFinish, note, other, rfl, ordered, isNote,
    isOther, matched.voice, matched.staff, matched.pitch⟩

/-- A legacy tie passes over a note of another voice, and a numbered one starts where
it ends. -/
theorem tiesSound_across_voices :
    ∃ model,
      (analyseSource
        ("(musicData (n c4 q l (voice 1)) (n c4 q (voice 2)) " ++
          "(n c4 q (tie 1 start) (voice 1)) (n c4 q (tie 1 stop)))")
        "").result = .ok model ∧
      ((model.content? 4).map Content.memberHandles = some [1, 3] ∧
        (model.content? 6).map Content.memberHandles = some [3, 5]) ∧
      (∀ tie number color members,
        model.content? tie = some (.tie number color members) →
          ∃ start finish atStart atFinish first second,
            members =
              [(start, .tie true atStart), (finish, .tie false atFinish)] ∧
            start < finish ∧
            model.note? start = some first ∧ model.note? finish = some second ∧
            first.noteRest.voice = second.noteRest.voice ∧
            first.noteRest.appearance.staff = second.noteRest.appearance.staff ∧
            first.pitch = second.pitch) ∧
        (∀ note tie, model.tieNext? note = some tie →
          ∃ finish, model.IsTie tie note finish) ∧
        ∀ note tie, model.tiePrevious? note = some tie →
          ∃ start, model.IsTie tie start note := by
  obtain ⟨model, accepted, ties⟩ := exists_model_of_any
    (fun model => (model.content? 4).map Content.memberHandles = some [1, 3] ∧
      (model.content? 6).map Content.memberHandles = some [3, 5])
    (by decide +kernel : (analyseSource
      ("(musicData (n c4 q l (voice 1)) (n c4 q (voice 2)) " ++
        "(n c4 q (tie 1 start) (voice 1)) (n c4 q (tie 1 stop)))")
      "").result.toOption.any _)
  exact ⟨model, accepted, of_decide_eq_true ties,
    tiesSound_analyseSource _ _ accepted⟩

end LdpScore
