import LdpScore.Proofs.Invariant.Tying

/-!
# Which ties notes know

A note has one place for the tie that it starts and one for the tie that it ends,
and both kinds of ties write to them.  Neither kind makes two ties from one note or
two to one note (`TieSeries`), so that a note knows a tie unless it has one of the
other kind as well.  Then it knows the later one.
-/

namespace LdpScore

open Analyser Pairing

/-- The ties of one kind, given by the relation `made` of ties, starts and ends.
They are made one after the other, each to the newest note of the time, and a note
that has been tied does not wait any longer. -/
structure TieSeries
    (made : Handle → Handle → Handle → Prop) (waits : Handle → Prop)
    (reason : Handle → Handle → Prop) (bound : Handle) : Prop where
  starts : ∀ {tie other start finish otherFinish}, made tie start finish →
    made other start otherFinish → tie = other
  finishes : ∀ {tie other start otherStart finish}, made tie start finish →
    made other otherStart finish → tie = other
  below : ∀ {tie start finish}, made tie start finish →
    start < finish ∧ finish < bound
  gone : ∀ {tie start finish}, made tie start finish → ¬ waits start
  reasons : ∀ {tie start finish}, made tie start finish → reason start finish

namespace TieSeries

variable {made : Handle → Handle → Handle → Prop}
variable {waits waitsAfter : Handle → Prop}
variable {reason reasonAfter : Handle → Handle → Prop} {bound higher : Handle}

theorem nil
    (waits : Handle → Prop) (reason : Handle → Handle → Prop) (bound : Handle) :
    TieSeries (fun _ _ _ => False) waits reason bound := by
  constructor <;> simp

/-- No tie of that kind is made. -/
theorem keep
    (series : TieSeries made waits reason bound) (le : bound ≤ higher)
    (kept : ∀ note < bound, waitsAfter note → waits note)
    (implies : ∀ start finish, reason start finish → reasonAfter start finish) :
    TieSeries made waitsAfter reasonAfter higher := by
  refine ⟨series.starts, series.finishes, fun isMade => ?_, fun isMade waiting => ?_,
    fun isMade => implies _ _ (series.reasons isMade)⟩
  · obtain ⟨ordered, below⟩ := series.below isMade
    exact ⟨ordered, Nat.lt_of_lt_of_le below le⟩
  · obtain ⟨ordered, below⟩ := series.below isMade
    exact series.gone isMade (kept _ (Nat.lt_trans ordered below) waiting)

/-- One more tie is made, from a note that waits to the newest one. -/
theorem add
    (series : TieSeries made waits reason bound) (tie : Handle) {start : Handle}
    (waited : waits start) (ordered : start < bound)
    (kept : ∀ note < bound, waitsAfter note → waits note)
    (gone : ¬ waitsAfter start)
    (implies : ∀ start finish, reason start finish → reasonAfter start finish)
    (reasoned : reasonAfter start bound) :
    TieSeries
      (fun other first last => made other first last ∨
        (other = tie ∧ first = start ∧ last = bound))
      waitsAfter reasonAfter (bound + 1) := by
  have keeps := series.keep (Nat.le_succ bound) kept implies
  constructor
  · rintro first second from' last other (old | ⟨rfl, rfl, rfl⟩)
      (oldToo | ⟨rfl, same, _⟩)
    · exact series.starts old oldToo
    · exact absurd (same ▸ waited) (series.gone old)
    · exact absurd waited (series.gone oldToo)
    · rfl
  · rintro first second from' other last (old | ⟨rfl, rfl, rfl⟩)
      (oldToo | ⟨rfl, _, same⟩)
    · exact series.finishes old oldToo
    · exact absurd (series.below old).2 (same ▸ Nat.lt_irrefl last)
    · exact absurd (series.below oldToo).2 (Nat.lt_irrefl _)
    · rfl
  · rintro other first last (old | ⟨rfl, rfl, rfl⟩)
    · exact keeps.below old
    · exact ⟨ordered, Nat.lt_succ_self _⟩
  · rintro other first last (old | ⟨rfl, rfl, rfl⟩)
    · exact keeps.gone old
    · exact gone
  · rintro other first last (old | ⟨rfl, rfl, rfl⟩)
    · exact keeps.reasons old
    · exact reasoned

/-- The ties of one kind before and after a turn of theirs. -/
structure Continues
    (made madeAfter : Handle → Handle → Handle → Prop) (newest : Handle)
    (before after : Model) : Prop where
  all : ∀ {others : Handle → Handle → Handle → Prop},
    (∀ tie start finish, before.IsTie tie start finish ↔
      made tie start finish ∨ others tie start finish) →
    ∀ tie start finish, after.IsTie tie start finish ↔
      madeAfter tie start finish ∨ others tie start finish
  tells : before.TellsTies → after.TellsTies
  later : ∀ {tie start finish}, madeAfter tie start finish →
    made tie start finish ∨ (before.size ≤ tie ∧ finish = newest)

/-- At a turn of theirs one more tie is made, or none. -/
theorem exists_continues
    {before after : Model} {asked : Prop}
    (series : TieSeries made waits reason bound)
    (tying : Tying bound asked waits waitsAfter before after)
    (below : ∀ note, waits note → note < bound)
    (implies : ∀ start finish, reason start finish → reasonAfter start finish)
    (reasoned : ∀ start, waits start → asked → reasonAfter start bound) :
    ∃ madeAfter, TieSeries madeAfter waitsAfter reasonAfter (bound + 1) ∧
      Continues made madeAfter bound before after := by
  cases tying with
  | idle same kept =>
      have stays : ∀ note < bound, waitsAfter note → waits note :=
        fun note inside waiting =>
          (kept note waiting).resolve_right (Nat.ne_of_lt inside)
      refine ⟨made, series.keep (Nat.le_succ bound) stays implies, ?_⟩
      rw [same]
      exact ⟨fun all => all, fun tells => tells, Or.inl⟩
  | ties start waited asks ties matched kept gone =>
      have ordered := below start waited
      have stays : ∀ note < bound, waitsAfter note → waits note :=
        fun note inside waiting =>
          (kept note waiting).resolve_right (Nat.ne_of_lt inside)
      refine ⟨_, series.add before.size waited ordered stays
        (gone (Nat.ne_of_lt ordered)) implies (reasoned start waited asks),
        fun all tie first last => ?_, fun tells => tells.tie ties, ?_⟩
      · rw [ties.isTie_iff, all, or_right_comm]
      · rintro tie first last (old | ⟨rfl, _, rfl⟩)
        · exact Or.inl old
        · exact Or.inr ⟨Nat.le_refl _, rfl⟩

end TieSeries

namespace Passage

/-- The ties of a passage, divided into legacy ones and numbered ones. -/
structure Told
    (legacy numbered : Handle → Handle → Handle → Prop) (passage : Passage) :
    Prop where
  all : ∀ tie start finish, passage.model.IsTie tie start finish ↔
    legacy tie start finish ∨ numbered tie start finish
  legacySeries : TieSeries legacy (WaitsLegacy passage.pending)
    (fun start _ => AsksTie passage.heard start) (passage.bound .legacyTie)
  numberedSeries : TieSeries numbered (WaitsNumbered passage.pending)
    (fun start finish => StartsTie passage.heard start ∧
      StopsTie passage.heard finish) (passage.bound .tie)
  tells : passage.model.TellsTies
  legacyFirst : ∀ {tie other start otherStart finish}, legacy tie start finish →
    numbered other otherStart finish → tie < other

theorem StartsTie.mono
    {earlier later : List Heard} (grows : earlier <+: later) {handle : Handle}
    (starts : StartsTie earlier handle) :
    StartsTie later handle := by
  obtain ⟨point, gives, rest⟩ := starts
  exact ⟨point, gives.mono grows point, rest⟩

theorem StopsTie.mono
    {earlier later : List Heard} (grows : earlier <+: later) {handle : Handle}
    (stops : StopsTie earlier handle) :
    StopsTie later handle := by
  obtain ⟨point, gives, rest⟩ := stops
  exact ⟨point, gives.mono grows point, rest⟩

/-- A note whose numbered tie waits starts one. -/
theorem Tied.startsTie
    {passage : Passage} (tied : passage.Tied) {note : Handle}
    (waits : WaitsNumbered passage.pending note) :
    note < passage.bound .tie ∧ StartsTie passage.heard note := by
  obtain ⟨point, waits, rfl⟩ := waits
  exact ⟨tied.queued.waiting.below point waits, point,
    tied.queued.given point waits, rfl,
    TiePoint.isStart_of_phase (tied.queued.unstopped point waits)⟩

theorem Step.told
    {before after : Passage} (step : Step before after)
    (orderly : before.Orderly) (tied : before.Tied)
    {legacy numbered : Handle → Handle → Handle → Prop}
    (told : before.Told legacy numbered) :
    ∃ legacyAfter numberedAfter, after.Told legacyAfter numberedAfter := by
  have grows := step.heard_prefix
  have rises := step.bound_le orderly
  have asks : ∀ start finish : Handle, AsksTie before.heard start →
      AsksTie after.heard start := fun _ _ asks => asks.mono grows
  have gives : ∀ start finish, StartsTie before.heard start ∧
      StopsTie before.heard finish → StartsTie after.heard start ∧
        StopsTie after.heard finish :=
    fun _ _ gives => ⟨gives.1.mono grows, gives.2.mono grows⟩
  have legacyKept : (∀ note, WaitsLegacy after.pending note →
      WaitsLegacy before.pending note) →
        TieSeries legacy (WaitsLegacy after.pending)
          (fun start _ => AsksTie after.heard start) (after.bound .legacyTie) :=
    fun kept => told.legacySeries.keep (rises .legacyTie)
      (fun note _ => kept note) asks
  have numberedKept : (∀ note, WaitsNumbered after.pending note →
      WaitsNumbered before.pending note) →
        TieSeries numbered (WaitsNumbered after.pending)
          (fun start finish => StartsTie after.heard start ∧
            StopsTie after.heard finish) (after.bound .tie) :=
    fun kept => told.numberedSeries.keep (rises .tie) (fun note _ => kept note)
      gives
  cases step.tieStep orderly tied with
  | aside omits tunes legacyWaits ties =>
      refine ⟨legacy, numbered, fun tie start finish => ?_,
        legacyKept legacyWaits, numberedKept ?_, told.tells.of_omits omits tunes,
        told.legacyFirst⟩
      · exact (omits.isTie_iff ..).trans (told.all ..)
      · rintro note ⟨point, waits, isOwn⟩
        rcases ties with none | same
        · rw [none] at waits
          cases waits
        · exact ⟨point, same ▸ waits, isOwn⟩
  | legacy newest due passed early tying asked ties =>
      have numberedStays := numberedKept fun note waits => by
        obtain ⟨point, waits, isOwn⟩ := waits
        exact ⟨point, ties ▸ waits, isOwn⟩
      have series := told.legacySeries
      have waiting := tied.legacy
      rw [due] at series waiting
      obtain ⟨legacyAfter, legacyStays, continues⟩ := series.exists_continues tying
        (fun note waits => (waiting note waits).1) asks
        (fun start waits _ => (waiting start waits).2.mono grows)
      refine ⟨legacyAfter, numbered, continues.all told.all, passed ▸ legacyStays,
        numberedStays, continues.tells told.tells, fun isLegacy isNumbered => ?_⟩
      rcases continues.later isLegacy with old | ⟨_, rfl⟩
      · exact told.legacyFirst old isNumbered
      · -- No numbered tie ends at the newest note yet.
        have below := (told.numberedSeries.below isNumbered).2
        exact absurd (Nat.lt_of_lt_of_le below early) (Nat.lt_irrefl _)
  | numbered newest due passed tying queued legacyWaits =>
      have series := told.numberedSeries
      have waiting : ∀ note, WaitsNumbered before.pending note →
          note < before.bound .tie ∧ StartsTie before.heard note :=
        fun note waits => tied.startsTie waits
      rw [due] at series waiting
      obtain ⟨numberedAfter, numberedStays, continues⟩ :=
        series.exists_continues tying (fun note waits => (waiting note waits).1)
          gives (fun start waits stops => ⟨(waiting start waits).2.mono grows, stops⟩)
      refine ⟨legacy, numberedAfter, fun tie start finish => ?_,
        legacyKept legacyWaits, passed ▸ numberedStays,
        continues.tells told.tells, fun isLegacy isNumbered => ?_⟩
      · rw [or_comm]
        refine continues.all (fun tie start finish => ?_) tie start finish
        rw [or_comm]
        exact told.all tie start finish
      · rcases continues.later isNumbered with old | ⟨isNew, _⟩
        · exact told.legacyFirst isLegacy old
        · exact Nat.lt_of_lt_of_le
            ((told.all ..).mpr (Or.inl isLegacy)).lt_size isNew

theorem Run.told {passage : Passage} (run : Passage.start.Run passage) :
    ∃ legacy numbered, passage.Told legacy numbered := by
  induction run with
  | refl =>
      have noTie : ∀ tie first last, ¬ Passage.start.model.IsTie tie first last :=
        fun tie first last isTie => Nat.not_lt_zero tie isTie.lt_size
      refine ⟨_, _, fun tie start finish => ?_, .nil _ _ _, .nil _ _ _,
        ⟨fun tie start finish isTie => ?_, fun tie start finish isTie => ?_⟩,
        fun isLegacy => isLegacy.elim⟩
      · simp only [noTie, or_self]
      · exact absurd isTie (noTie tie start finish)
      · exact absurd isTie (noTie tie start finish)
  | tail run step induction =>
      obtain ⟨legacy, numbered, told⟩ := induction
      exact step.told (Run.orderly run) (Run.tied run) told

/-- The element of a note asks for a legacy tie and starts a numbered one. -/
def StartsBoth (heard : List Heard) (handle : Handle) : Prop :=
  ∃ note ∈ heard, note.handle = handle ∧ note.decorations.legacyTie.isSome ∧
    ∃ point, note.decorations.tie = some point ∧ point.isStart

theorem Orderly.startsBoth
    {passage : Passage} (orderly : passage.Orderly) {handle : Handle}
    (asks : AsksTie passage.heard handle) (starts : StartsTie passage.heard handle) :
    StartsBoth passage.heard handle := by
  obtain ⟨note, isHeard, isOwn, isLegacy⟩ := asks
  obtain ⟨point, ⟨other, isOther, ofOther, isPoint⟩, isPlace, isStart⟩ := starts
  obtain rfl : note = other :=
    orderly.eq_of_handle isHeard isOther (isOwn.trans (ofOther.trans isPlace).symm)
  exact ⟨note, isHeard, isOwn, isLegacy, point, isPoint, isStart⟩

/-- Which ties there are at a note, and which of them the note knows. -/
structure KnowsTies (heard : List Heard) (model : Model) : Prop where
  /-- A note that starts two ties asks for one of either kind. -/
  starts : ∀ tie other start finish otherFinish, model.IsTie tie start finish →
    model.IsTie other start otherFinish → tie ≠ other → StartsBoth heard start
  /-- Of two ties that end at a note the earlier one is a legacy tie, and the note
  stops the later one. -/
  finishes : ∀ tie other start otherStart finish, model.IsTie tie start finish →
    model.IsTie other otherStart finish → tie < other →
      AsksTie heard start ∧ StopsTie heard finish
  /-- The start of a tie knows it, unless it starts a later one as well. -/
  next : ∀ tie start finish, model.IsTie tie start finish →
    model.tieNext? start = some tie ∨
      ∃ later other, tie < later ∧ model.IsTie later start other ∧
        model.tieNext? start = some later ∧ StartsBoth heard start
  /-- The end of a tie knows it, unless a later one ends there as well. -/
  previous : ∀ tie start finish, model.IsTie tie start finish →
    model.tiePrevious? finish = some tie ∨
      ∃ later other, tie < later ∧ model.IsTie later other finish ∧
        model.tiePrevious? finish = some later ∧
        AsksTie heard start ∧ StopsTie heard finish

/-- Since there is one series of ties of either kind, the ends of a tie know it
unless there are two of them. -/
theorem Told.knowsTies
    {passage : Passage} {legacy numbered : Handle → Handle → Handle → Prop}
    (told : passage.Told legacy numbered) (orderly : passage.Orderly)
    (sound : passage.model.TiesSound) :
    KnowsTies passage.heard passage.model := by
  have starts : ∀ tie other start finish otherFinish,
      passage.model.IsTie tie start finish →
        passage.model.IsTie other start otherFinish → tie ≠ other →
          StartsBoth passage.heard start := by
    intro tie other start finish otherFinish isTie isOther differ
    rcases (told.all ..).mp isTie with isLegacy | isNumbered <;>
      rcases (told.all ..).mp isOther with otherLegacy | otherNumbered
    · exact absurd (told.legacySeries.starts isLegacy otherLegacy) differ
    · exact orderly.startsBoth (told.legacySeries.reasons isLegacy)
        (told.numberedSeries.reasons otherNumbered).1
    · exact orderly.startsBoth (told.legacySeries.reasons otherLegacy)
        (told.numberedSeries.reasons isNumbered).1
    · exact absurd (told.numberedSeries.starts isNumbered otherNumbered) differ
  have finishes : ∀ tie other start otherStart finish,
      passage.model.IsTie tie start finish →
        passage.model.IsTie other otherStart finish → tie < other →
          AsksTie passage.heard start ∧ StopsTie passage.heard finish := by
    intro tie other start otherStart finish isTie isOther earlier
    rcases (told.all ..).mp isTie with isLegacy | isNumbered <;>
      rcases (told.all ..).mp isOther with otherLegacy | otherNumbered
    · exact absurd (told.legacySeries.finishes isLegacy otherLegacy)
        (Nat.ne_of_lt earlier)
    · exact ⟨told.legacySeries.reasons isLegacy,
        (told.numberedSeries.reasons otherNumbered).2⟩
    · -- At a note the legacy tie has its turn before the numbered one.
      exact absurd (told.legacyFirst otherLegacy isNumbered)
        (Nat.not_lt.mpr (Nat.le_of_lt earlier))
    · exact absurd (told.numberedSeries.finishes isNumbered otherNumbered)
        (Nat.ne_of_lt earlier)
  refine ⟨starts, finishes, fun tie start finish isTie => ?_,
    fun tie start finish isTie => ?_⟩
  · obtain ⟨known, isKnown, le⟩ := told.tells.next tie start finish isTie
    rcases Nat.eq_or_lt_of_le le with rfl | later
    · exact Or.inl isKnown
    · obtain ⟨other, isOther⟩ := sound.next start known isKnown
      exact Or.inr ⟨known, other, later, isOther, isKnown,
        starts tie known start finish other isTie isOther (Nat.ne_of_lt later)⟩
  · obtain ⟨known, isKnown, le⟩ := told.tells.previous tie start finish isTie
    rcases Nat.eq_or_lt_of_le le with rfl | later
    · exact Or.inl isKnown
    · obtain ⟨other, isOther⟩ := sound.previous finish known isKnown
      exact Or.inr ⟨known, other, later, isOther, isKnown,
        finishes tie known start other finish isTie isOther later⟩

end Passage

/--
Ties are known to their ends as long as legacy ties and numbered ones do not meet.
For every text that is accepted, the start of a tie of its model knows it, unless its
element asks for a legacy tie and starts a numbered one and both were made: then it
knows the later one.  The end of a tie knows it, unless it is a legacy tie and a
numbered one ends there as well, which the end knows.  There are no other notes that
start or end two ties.
-/
theorem knowsTies_analyseSource
    (source file : String) {model : Model}
    (accepted : (analyseSource source file).result = .ok model) :
    ∃ root last, (Node.read (Token.lex source file)).result = .ok root ∧
      Passage.IsLast last root model ∧ Passage.KnowsTies last.heard model := by
  obtain ⟨root, last, isTree, isLast⟩ := Passage.exists_last_of_accepted accepted
  obtain ⟨legacy, numbered, told⟩ := isLast.run.told
  have knows := told.knowsTies isLast.run.orderly isLast.run.tied.sound
  rw [isLast.isModel] at knows
  exact ⟨root, last, isTree, isLast, knows⟩

/-- A legacy tie, and after it two ties between the same notes. -/
theorem knowsTies_of_three_notes :
    ∃ model root last,
      (analyseSource
        ("(musicData (n c4 q l) (n c4 q l (tie 1 start)) " ++
          "(n c4 q (tie 1 stop)))") "").result = .ok model ∧
      ([3, 5, 6].map fun tie =>
          (model.content? tie).map Content.memberHandles) =
        [some [1, 2], some [2, 4], some [2, 4]] ∧
      Passage.IsLast last root model ∧ Passage.KnowsTies last.heard model := by
  obtain ⟨model, accepted, ties⟩ := exists_model_of_any
    (fun model => ([3, 5, 6].map fun tie =>
        (model.content? tie).map Content.memberHandles) =
      [some [1, 2], some [2, 4], some [2, 4]])
    (by decide +kernel : (analyseSource
      ("(musicData (n c4 q l) (n c4 q l (tie 1 start)) " ++
        "(n c4 q (tie 1 stop)))") "").result.toOption.any _)
  obtain ⟨root, last, _, isLast, knows⟩ := knowsTies_analyseSource _ _ accepted
  exact ⟨model, root, last, accepted, of_decide_eq_true ties, isLast, knows⟩

/-- Where a legacy tie and a numbered one join the same notes, neither of its ends
knows the first one. -/
theorem not_all_ties_known :
    ¬ ∀ source file model, (analyseSource source file).result = .ok model →
      ∀ tie start finish, model.IsTie tie start finish →
        model.tieNext? start = some tie ∧ model.tiePrevious? finish = some tie := by
  intro known
  obtain ⟨model, accepted, checked⟩ := exists_model_of_any
    (fun model => (model.content? 3).any fun content =>
      content.name = "tie" ∧
        content.members? = some [(1, .tie true none), (2, .tie false none)] ∧
        model.tieNext? 1 = some 4 ∧ model.tiePrevious? 2 = some 4)
    (by decide +kernel : (analyseSource
      "(musicData (n c4 q l (tie 1 start)) (n c4 q (tie 1 stop)))"
      "").result.toOption.any _)
  obtain ⟨content, found, isTie⟩ := (Option.any_eq_true _ _).mp checked
  obtain ⟨named, members, next, _⟩ := of_decide_eq_true isTie
  have isKnown := (known _ _ model accepted 3 1 2
    (.of_members? found named members)).1
  rw [next] at isKnown
  exact absurd isKnown (by decide)

end LdpScore
