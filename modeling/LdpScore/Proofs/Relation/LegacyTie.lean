import LdpScore.Proofs.Relation.Series
import LdpScore.Proofs.Score.Tie
import Mathlib.Data.List.Basic

/-!
# What becomes of legacy ties

All voices share one legacy tie that waits.  Notes of other voices pass it over, but
if one of them starts a legacy tie of its own, then this takes the place of the one
that waits, without a tie or a report.

`fate` tells how a legacy tie ends from the notes alone.  The builder makes the ties
and the reports that it tells (`settles_run`), so that a legacy tie is lost exactly
if it is replaced.
-/

namespace LdpScore

/-! ## The ends of ties -/

namespace Model

/-- The handles that a tie joins, if there is one at a handle. -/
def tieEnds? (model : Model) (handle : Handle) : Option (List Handle) :=
  ((model.content? handle).filter fun content => content.name == "tie").map
    Content.memberHandles

/-- The ends of all ties, in the order in which they were made. -/
def tieEnds (model : Model) : List (List Handle) :=
  model.handles.filterMap model.tieEnds?

theorem length_tieEnds (model : Model) :
    model.tieEnds.length = (model.findAll "tie").length := by
  rw [tieEnds, List.length_filterMap_eq_countP, findAll,
    ← List.countP_eq_length_filter]
  congr 1
  funext handle
  rw [tieEnds?, Option.isSome_map]
  cases model.content? handle with
  | none => rfl
  | some content =>
      rw [Option.filter_some, Option.any_some]
      cases content.name == "tie" <;> rfl

theorem IsTie.tieEnds?
    {model : Model} {tie start finish : Handle}
    (isTie : model.IsTie tie start finish) :
    model.tieEnds? tie = some [start, finish] := by
  obtain ⟨number, color, atStart, atFinish, found⟩ := isTie
  rw [Model.tieEnds?, found]
  rfl

theorem Ties.tieEnds
    {start finish : Handle} {before after : Model}
    (ties : Ties start finish before after) :
    after.tieEnds = before.tieEnds ++ [[start, finish]] := by
  have kept : ∀ handle < before.size,
      after.tieEnds? handle = before.tieEnds? handle := by
    intro handle isOld
    refine congrArg (Option.map Content.memberHandles) (Option.ext ?_)
    intro content
    rw [Option.filter_eq_some_iff, Option.filter_eq_some_iff]
    refine and_congr_left fun named => ?_
    exact ties.old handle content (beq_iff_eq.mp named) (Nat.ne_of_lt isOld)
  rw [Model.tieEnds, handles, ties.size, List.range_succ,
    List.filterMap_append]
  congr 1
  · exact List.filterMap_congr fun handle listed =>
      kept handle (List.mem_range.mp listed)
  · rw [List.filterMap_cons, ties.made.tieEnds?]
    rfl

/-! ## What can be tied -/

/-- How the note at a handle sounds, whatever ties it knows. -/
def sound? (model : Model) (handle : Handle) : Option Tune :=
  (model.tune? handle).map fun tune =>
    { tune with tieNext := none, tiePrevious := none }

theorem canTie_eq (model : Model) (first second : Handle) :
    Tie.canTie model first second =
      (model.sound? first).any fun sound =>
        model.sound? second == some sound := by
  rw [Tie.canTie, sound?, sound?, tune?_eq_bind, tune?_eq_bind]
  cases model.note? first with
  | none => rfl
  | some note =>
      cases model.note? second with
      | none => rfl
      | some other =>
          rw [Option.map_some, Option.map_some, Option.map_some, Option.map_some,
            Option.any_some, Bool.eq_iff_iff, beq_iff_eq, Option.some.injEq,
            Tune.mk.injEq]
          simp only [Tie.compatible, Bool.and_eq_true, beq_iff_eq, Note.tune,
            and_true, and_assoc]
          constructor
          · rintro ⟨voice, staff, pitch⟩
            exact ⟨voice.symm, staff.symm, pitch.symm⟩
          · rintro ⟨voice, staff, pitch⟩
            exact ⟨voice.symm, staff.symm, pitch.symm⟩

theorem sameVoice_eq (model : Model) (first second : Handle) :
    Tie.sameVoice model first second =
      (model.sound? first).any fun sound =>
        (model.sound? second).any fun other => sound.voice == other.voice := by
  rw [Tie.sameVoice, sound?, sound?, tune?_eq_bind, tune?_eq_bind]
  cases model.note? first with
  | none => rfl
  | some note => cases model.note? second <;> rfl

/-- The ends of a new tie sound as before. -/
theorem Ties.sound?
    {start finish : Handle} {before after : Model}
    (ties : Ties start finish before after) :
    after.sound? = before.sound? := by
  funext note
  rw [Model.sound?, ties.tune?, Option.map_map]
  rfl

end Model

namespace LegacyTie

/-! ## Fates -/

/-- What the builder is asked for at a note. -/
inductive Call where
  /-- The note starts a legacy tie, and it may end the one that waits. -/
  | start (note : Handle) (location : Location)
  /-- The note may end the legacy tie that waits. -/
  | offer (note : Handle)

def Call.note : Call → Handle
  | start note _ => note
  | offer note => note

/-- The legacy tie that a call starts. -/
def Call.started? : Call → Option LegacyTie
  | start note location => some ⟨note, location⟩
  | offer _ => none

/-- How a legacy tie ends. -/
inductive Fate where
  /-- A tie leads to this note. -/
  | tied (finish : Handle)
  /-- There is no note for it, and that is reported. -/
  | unmatched
  /-- Another one takes its place. -/
  | replaced
deriving DecidableEq

/-- How a legacy tie ends that waits when some calls are still to come. -/
def fate (model : Model) (tie : LegacyTie) : List Call → Fate
  | [] => .unmatched
  | call :: rest =>
      if Tie.canTie model tie.note call.note then .tied call.note
      else if Tie.sameVoice model tie.note call.note then .unmatched
      else if call.started?.isSome then .replaced
      else fate model tie rest

/-- A legacy tie, if there is one, and how it ends. -/
def withFate (model : Model) (tie : Option LegacyTie) (calls : List Call) :
    List (LegacyTie × Fate) :=
  tie.toList.map fun tie => (tie, fate model tie calls)

/-- The legacy ties that some calls start, in order, and how they end. -/
def fates (model : Model) : List Call → List (LegacyTie × Fate)
  | [] => []
  | call :: rest =>
      withFate model call.started? rest ++ fates model rest

/-- What a tie joins, if a legacy tie becomes one. -/
def ends? : LegacyTie × Fate → Option (List Handle)
  | (tie, .tied finish) => some [tie.note, finish]
  | _ => none

/-- The report that there is no note for a legacy tie. -/
def report? : LegacyTie × Fate → Option Diagnostic
  | (tie, .unmatched) => some ⟨.unmatchedLegacyTie, tie.location⟩
  | _ => none

@[simp]
theorem withFate_some (model : Model) (tie : LegacyTie) (calls : List Call) :
    withFate model (some tie) calls = [(tie, fate model tie calls)] := rfl

theorem map_fst_fates (model : Model) (calls : List Call) :
    (fates model calls).map Prod.fst = calls.filterMap Call.started? := by
  induction calls with
  | nil => rfl
  | cons call rest induction =>
      rw [fates, List.map_append, induction, List.filterMap_cons]
      cases call <;> rfl

/-- How a legacy tie ends depends on how the notes sound. -/
theorem fate_congr
    {before after : Model} (same : after.sound? = before.sound?)
    (tie : LegacyTie) (calls : List Call) :
    fate after tie calls = fate before tie calls := by
  induction calls with
  | nil => rfl
  | cons call rest induction =>
      rw [fate, fate, induction, Model.canTie_eq, Model.canTie_eq,
        Model.sameVoice_eq, Model.sameVoice_eq, same]

theorem withFate_congr
    {before after : Model} (same : after.sound? = before.sound?)
    (tie : Option LegacyTie) (calls : List Call) :
    withFate after tie calls = withFate before tie calls :=
  List.map_congr_left fun tie _ => congrArg (tie, ·) (fate_congr same tie calls)

theorem fates_congr
    {before after : Model} (same : after.sound? = before.sound?)
    (calls : List Call) :
    fates after calls = fates before calls := by
  induction calls with
  | nil => rfl
  | cons call rest induction =>
      rw [fates, fates, induction, withFate_congr same]

/-- A legacy tie is tied, reported or replaced. -/
theorem length_eq_counts (outcomes : List (LegacyTie × Fate)) :
    outcomes.length = (outcomes.filterMap ends?).length +
      (outcomes.filterMap report?).length +
        outcomes.countP fun outcome => outcome.2 = .replaced := by
  induction outcomes with
  | nil => rfl
  | cons outcome rest induction =>
      obtain ⟨tie, fate⟩ := outcome
      rw [List.length_cons, induction, List.filterMap_cons, List.filterMap_cons,
        List.countP_cons]
      cases fate <;> simp only [ends?, report?, List.length_cons, reduceCtorEq,
        decide_false, decide_true, Bool.false_eq_true, if_true, if_false] <;> omega

/-- In a single voice no legacy tie is replaced. -/
theorem fate_ne_replaced
    {model : Model} (tie : LegacyTie) {calls : List Call}
    (oneVoice : ∀ call ∈ calls, Tie.sameVoice model tie.note call.note) :
    fate model tie calls ≠ .replaced := by
  cases calls with
  | nil => exact nofun
  | cons call rest =>
      rw [fate, if_pos (oneVoice call (List.mem_cons_self ..))]
      split <;> exact nofun

theorem countP_replaced_fates
    {model : Model} {calls : List Call}
    (oneVoice : calls.Pairwise fun call later =>
      Tie.sameVoice model call.note later.note) :
    ((fates model calls).countP fun outcome => outcome.2 = .replaced) = 0 := by
  induction calls with
  | nil => rfl
  | cons call rest induction =>
      obtain ⟨atCall, atRest⟩ := List.pairwise_cons.mp oneVoice
      rw [fates, List.countP_append, induction atRest, Nat.add_zero]
      cases call with
      | offer note => rfl
      | start note location =>
          have kept := fate_ne_replaced ⟨note, location⟩ atCall
          exact List.countP_eq_zero.mpr (by simpa [Call.started?] using kept)

/-! ## The builder -/

/-- The builder answers a call. -/
def take (state : Option LegacyTie × Draft) : Call → Option LegacyTie × Draft
  | .start note location => start state.1 note location state.2
  | .offer note => offer state.1 note state.2

theorem take_eq
    (pending : Option LegacyTie) (draft : Draft) (call : Call) :
    take (pending, draft) call =
      (call.started?.or (offer pending call.note draft).1,
        (offer pending call.note draft).2) := by
  cases call <;> rfl

/-- The builder answers some calls, and then it gives up the legacy tie that still
waits. -/
def run (pending : Option LegacyTie) (draft : Draft) (calls : List Call) : Draft :=
  let (pending, draft) := calls.foldl take (pending, draft)
  clear pending draft

/-- Between two moments some legacy ties have ended: there are new ties and reports
for them, and nothing sounds differently. -/
structure Ended
    (outcomes : List (LegacyTie × Fate)) (before after : Draft) : Prop where
  ties : after.model.tieEnds =
    before.model.tieEnds ++ outcomes.filterMap ends?
  reports : after.diagnostics.toList =
    before.diagnostics.toList ++ outcomes.filterMap report?
  sounds : after.model.sound? = before.model.sound?

namespace Ended

theorem refl (draft : Draft) : Ended [] draft draft :=
  ⟨(List.append_nil _).symm, (List.append_nil _).symm, rfl⟩

theorem trans
    {first second : List (LegacyTie × Fate)} {before between after : Draft}
    (early : Ended first before between) (late : Ended second between after) :
    Ended (first ++ second) before after := by
  constructor
  · rw [late.ties, early.ties, List.filterMap_append, List.append_assoc]
  · rw [late.reports, early.reports, List.filterMap_append, List.append_assoc]
  · exact late.sounds.trans early.sounds

theorem replaced (tie : LegacyTie) (draft : Draft) :
    Ended [(tie, .replaced)] draft draft :=
  ⟨(List.append_nil _).symm, (List.append_nil _).symm, rfl⟩

theorem unmatched (tie : LegacyTie) (draft : Draft) :
    Ended [(tie, .unmatched)] draft
      (draft.report tie.location .unmatchedLegacyTie) :=
  ⟨(List.append_nil _).symm, Pairing.diagnostics_report .., rfl⟩

theorem tied
    {tie : LegacyTie} {finish : Handle} {draft : Draft}
    (canTie : Tie.canTie draft.model tie.note finish) :
    Ended [(tie, .tied finish)] draft
      (Tie.link ⟨tie.note, none⟩ ⟨finish, none⟩ none none draft) := by
  have ties := Tie.ties_link ⟨tie.note, none⟩ ⟨finish, none⟩ canTie none none
  exact ⟨ties.tieEnds, (List.append_nil _).symm, ties.sound?⟩

/-- One call ends the legacy tie that waits, or it keeps waiting. -/
theorem take
    (pending : Option LegacyTie) (draft : Draft) (call : Call)
    (rest : List Call) :
    ∃ outcomes,
      Ended outcomes draft (LegacyTie.take (pending, draft) call).2 ∧
        outcomes ++
            withFate draft.model (LegacyTie.take (pending, draft) call).1 rest =
          withFate draft.model pending (call :: rest) ++
            withFate draft.model call.started? rest := by
  rw [take_eq]
  cases pending with
  | none =>
      refine ⟨[], refl draft, ?_⟩
      cases call <;> rfl
  | some tie =>
      by_cases canTie : Tie.canTie draft.model tie.note call.note
      · refine ⟨[(tie, .tied call.note)], ?_, ?_⟩
        · rw [offer, if_pos canTie]
          exact tied canTie
        · rw [offer, if_pos canTie, withFate_some, fate, if_pos canTie,
            Option.or_none]
      · by_cases sameVoice : Tie.sameVoice draft.model tie.note call.note
        · refine ⟨[(tie, .unmatched)], ?_, ?_⟩
          · rw [offer, if_neg canTie, if_pos sameVoice]
            exact unmatched tie draft
          · rw [offer, if_neg canTie, if_pos sameVoice, withFate_some, fate,
              if_neg canTie, if_pos sameVoice, Option.or_none]
        · rw [offer, if_neg canTie, if_neg sameVoice, withFate_some, fate,
            if_neg canTie, if_neg sameVoice]
          cases call with
          | start note location =>
              exact ⟨[(tie, .replaced)], replaced tie draft, rfl⟩
          | offer note => exact ⟨[], refl draft, rfl⟩

/-- All calls together. -/
theorem run
    (pending : Option LegacyTie) (draft : Draft) (calls : List Call) :
    Ended (withFate draft.model pending calls ++ fates draft.model calls) draft
      (LegacyTie.run pending draft calls) := by
  induction calls generalizing pending draft with
  | nil =>
      cases pending with
      | none => exact refl draft
      | some tie => exact unmatched tie draft
  | cons call rest induction =>
      obtain ⟨outcomes, ended, balance⟩ := take pending draft call rest
      have remaining := induction (LegacyTie.take (pending, draft) call).1
        (LegacyTie.take (pending, draft) call).2
      rw [withFate_congr ended.sounds, fates_congr ended.sounds] at remaining
      rw [fates, ← List.append_assoc, ← balance, List.append_assoc]
      exact ended.trans remaining

end Ended

/-- Every legacy tie that is started becomes a tie or a report, if it is not
replaced. -/
theorem length_started (draft : Draft) (calls : List Call) :
    (draft.model.findAll "tie").length + draft.diagnostics.size +
        (calls.filterMap Call.started?).length =
      ((run none draft calls).model.findAll "tie").length +
        (run none draft calls).diagnostics.size +
        (fates draft.model calls).countP fun outcome =>
          outcome.2 = .replaced := by
  have ended : Ended (fates draft.model calls) draft (run none draft calls) :=
    Ended.run none draft calls
  have started : (calls.filterMap Call.started?).length =
      (fates draft.model calls).length := by
    rw [← map_fst_fates draft.model calls, List.length_map]
  have counts := length_eq_counts (fates draft.model calls)
  have ties := congrArg List.length ended.ties
  have reports := congrArg List.length ended.reports
  rw [Model.length_tieEnds, List.length_append, Model.length_tieEnds] at ties
  rw [Array.length_toList, List.length_append, Array.length_toList] at reports
  omega

/-- In a single voice every legacy tie becomes a tie or a report. -/
theorem length_started_of_one_voice
    (draft : Draft) {calls : List Call}
    (oneVoice : calls.Pairwise fun call later =>
      Tie.sameVoice draft.model call.note later.note) :
    (draft.model.findAll "tie").length + draft.diagnostics.size +
        (calls.filterMap Call.started?).length =
      ((run none draft calls).model.findAll "tie").length +
        (run none draft calls).diagnostics.size := by
  rw [length_started, countP_replaced_fates oneVoice, Nat.add_zero]

/--
Every legacy tie that is started ends once, whatever calls there are and whatever
their notes are: a tie leads from it, or it is reported, or another one takes its
place.  There are no other ties and reports, and these come in the order in which
the legacy ties were started.
-/
theorem settles_run (draft : Draft) (calls : List Call) :
    let outcomes := fates draft.model calls
    let after := run none draft calls
    outcomes.map Prod.fst = calls.filterMap Call.started? ∧
      after.model.tieEnds =
        draft.model.tieEnds ++ outcomes.filterMap ends? ∧
      after.diagnostics.toList =
        draft.diagnostics.toList ++ outcomes.filterMap report? ∧
      (draft.model.findAll "tie").length + draft.diagnostics.size +
          (calls.filterMap Call.started?).length =
        (after.model.findAll "tie").length + after.diagnostics.size +
          outcomes.countP fun outcome => outcome.2 = .replaced := by
  intro outcomes after
  have ended : Ended outcomes draft after := Ended.run none draft calls
  exact ⟨map_fst_fates .., ended.ties, ended.reports, length_started draft calls⟩

/-- Two notes of different voices start a legacy tie each.  The first one is lost:
there is no tie, and a report about the second one only. -/
theorem loses_first_of_two_voices :
    let note := fun voice =>
      Content.note ⟨{ value := ⟨.quarter, 0⟩, voice }, some ⟨.c, 4, .none⟩,
        .default, none, none, none⟩
    let draft := ((({} : Draft).create (note 1)).2.create (note 2)).2
    let first := { Location.nowhere with start := 19, stop := 20 }
    let second := { Location.nowhere with start := 33, stop := 34 }
    let calls := [.start 0 first, .start 1 second]
    (calls.filterMap Call.started?).length = 2 ∧
      (run none draft calls).model.findAll "tie" = [] ∧
      (run none draft calls).diagnostics =
        #[⟨.unmatchedLegacyTie, second⟩] := by
  decide

end LegacyTie

end LdpScore
