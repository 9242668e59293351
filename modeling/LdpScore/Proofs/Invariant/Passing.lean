import LdpScore.Proofs.Invariant.Account
import LdpScore.Proofs.Invariant.Bystander

/-!
# Passages in order

The notes and rests that are heard have rising handles, and the one that is being
settled is the newest of them.  What is heard so far bounds what waits: descriptors
of one kind are below `Passage.bound`, which a note or rest passes when that kind
has its turn.

A step at which relations of one kind do not have their turn omits them.
-/

namespace LdpScore

open Analyser

namespace Passage

/-- The notes and rests of a passage are in order. -/
structure Orderly (passage : Passage) : Prop where
  rising : (passage.heard.map fun note => note.handle).Pairwise (· < ·)
  inside : ∀ note ∈ passage.heard, note.handle < passage.model.size
  isNote : ∀ note ∈ passage.heard, note.flavor ≠ .rest →
    passage.model.IsNote note.handle
  areOf : ∀ note ∈ passage.heard, note.decorations.AreOf note.flavor note.handle
  newest : ∀ note turn, passage.due = some (note, turn) →
    passage.heard.getLast? = some note
  comes : ∀ note turn, passage.due = some (note, turn) →
    note.flavor = .rest → turn ≠ .legacyTie ∧ turn ≠ .tie
  chords : passage.model.LinksChords

namespace Orderly

variable {passage : Passage}

theorem start : Orderly start := by
  constructor
  · exact List.Pairwise.nil
  · exact fun _ impossible => absurd impossible List.not_mem_nil
  · exact fun _ impossible => absurd impossible List.not_mem_nil
  · exact fun _ impossible => absurd impossible List.not_mem_nil
  · rintro note turn ⟨⟩
  · rintro note turn ⟨⟩
  · intro note chord linked
    obtain ⟨content, found, _⟩ := Option.bind_eq_some_iff.mp linked
    exact absurd (Model.lt_size_of_content? found) (Nat.not_lt_zero note)

theorem due_mem
    (orderly : passage.Orderly) {note : Heard} {turn : Turn}
    (due : passage.due = some (note, turn)) :
    note ∈ passage.heard :=
  List.mem_of_getLast? (orderly.newest note turn due)

/-- One handle, one note or rest. -/
theorem eq_of_handle
    (orderly : passage.Orderly) {first second : Heard}
    (isHeard : first ∈ passage.heard) (isHeardToo : second ∈ passage.heard)
    (same : first.handle = second.handle) :
    first = second := by
  have distinct : (passage.heard.map fun note => note.handle).Nodup :=
    orderly.rising.imp Nat.ne_of_lt
  exact List.inj_on_of_nodup_map distinct isHeard isHeardToo same

/-- Nothing new is heard. -/
theorem keep
    (orderly : passage.Orderly) {after : Analysis} {due : Option (Heard × Turn)}
    (names : passage.model.KeepsNames after.draft.model)
    (chords : after.draft.model.LinksChords)
    (follows : ∀ note turn, due = some (note, turn) →
      passage.heard.getLast? = some note ∧
        (note.flavor = .rest → turn ≠ .legacyTie ∧ turn ≠ .tie)) :
    Orderly ⟨after, passage.heard, due⟩ := by
  constructor
  · exact orderly.rising
  · exact fun note isHeard =>
      Nat.lt_of_lt_of_le (orderly.inside note isHeard) names.size_le
  · exact fun note isHeard flavored =>
      names.isNote (orderly.isNote note isHeard flavored)
  · exact orderly.areOf
  · exact fun note turn isDue => (follows note turn isDue).1
  · exact fun note turn isDue => (follows note turn isDue).2
  · exact chords

end Orderly

/-- What is added at a turn leaves the chords that notes know. -/
theorem linksChords_action
    {state : Analysis} {note : Heard} (linked : state.draft.model.LinksChords)
    (turn : Turn) :
    ((turn.action note.toWritten note.value note.decorations).run
      state).run.2.draft.model.LinksChords := by
  have adds : state.draft.model.Adds turn.word
      ((turn.action note.toWritten note.value note.decorations).run
        state).run.2.draft.model := adds_action turn
  by_cases isChord : turn = .chord
  · subst isChord
    exact linked
  · refine linked.of_finds (adds.findsNoChord ?_ ?_) adds.names <;>
      cases turn <;> simp_all [Turn.word]

theorem Step.orderly
    {before after : Passage} (step : Step before after)
    (orderly : before.Orderly) :
    after.Orderly := by
  have chords := orderly.chords
  cases step with
  | aside state heard leaves =>
      refine orderly.keep leaves.model.names
        (chords.of_finds leaves.model.findsNoChord leaves.model.names) ?_
      rintro note turn ⟨⟩
  | hear state heard note introduced =>
      have names := introduced.leaves.model.names
      have isNew : note.handle = state.draft.model.size := introduced.isNew
      constructor
      · rw [List.map_append, List.map_singleton, List.pairwise_append]
        refine ⟨orderly.rising, List.pairwise_singleton .., ?_⟩
        intro earlier listed last isLast
        obtain ⟨other, isHeard, rfl⟩ := List.mem_map.mp listed
        rw [List.mem_singleton.mp isLast, isNew]
        exact orderly.inside other isHeard
      · refine List.forall_mem_append.mpr ⟨fun other isHeard => ?_, ?_⟩
        · exact Nat.lt_of_lt_of_le (orderly.inside other isHeard) names.size_le
        · exact List.forall_mem_singleton.mpr introduced.inside
      · refine List.forall_mem_append.mpr ⟨fun other isHeard flavored => ?_, ?_⟩
        · exact names.isNote (orderly.isNote other isHeard flavored)
        · exact List.forall_mem_singleton.mpr introduced.isNote
      · refine List.forall_mem_append.mpr ⟨orderly.areOf, ?_⟩
        exact List.forall_mem_singleton.mpr introduced.areOf
      · rintro other turn ⟨⟩
        exact List.getLast?_concat
      · rintro other turn ⟨⟩ isRest
        rw [isRest]
        exact ⟨nofun, nofun⟩
      · exact chords.of_finds introduced.leaves.model.findsNoChord names
  | turn state heard note turn =>
      have adds : state.draft.model.Adds turn.word
          ((turn.action note.toWritten note.value note.decorations).run
            state).run.2.draft.model := adds_action turn
      refine orderly.keep adds.names (linksChords_action chords turn) ?_
      rintro other next ⟨⟩
      refine ⟨orderly.newest note turn rfl, fun isRest => ?_⟩
      obtain ⟨noLegacy, noTie⟩ := orderly.comes note turn rfl isRest
      cases turn <;> simp_all [Turn.next]
  | sound state heard note base =>
      obtain ⟨adds, linked⟩ := adds_joinChord chords base note.handle
      refine orderly.keep adds.names linked ?_
      rintro other turn ⟨⟩
      exact ⟨orderly.newest note _ rfl, orderly.comes note _ rfl⟩
  | finish state heard note context =>
      refine orderly.keep (.refl _) chords ?_
      rintro other turn ⟨⟩
  | flush state heard =>
      have same : (clearPending.run state).run.2.draft.model =
          state.draft.model :=
        (Pending.silent_reportAll state.pending state.draft).model
      refine orderly.keep (.of_eq same) (same ▸ chords) ?_
      rintro note turn ⟨⟩

theorem Run.orderly {passage : Passage} (run : start.Run passage) :
    passage.Orderly :=
  run.preserves (fun step => step.orderly) .start

/-! ## What waits, and up to where -/

/-- Descriptors that are handed over at a turn are below this handle as long as they
wait: a note or rest passes it at that turn. -/
def bound (own : Turn) (passage : Passage) : Handle :=
  match passage.due with
  | none => passage.model.size
  | some (note, turn) =>
      if turn.position ≤ own.position then note.handle else note.handle + 1

theorem bound_le_size
    {passage : Passage} (orderly : passage.Orderly) (own : Turn) :
    passage.bound own ≤ passage.model.size := by
  rw [bound]
  split
  · exact Nat.le_refl _
  · rename_i note turn isDue
    have inside := orderly.inside note (orderly.due_mem isDue)
    split
    · exact Nat.le_of_lt inside
    · exact inside

theorem Step.bound_le
    {before after : Passage} (step : Step before after)
    (orderly : before.Orderly) (own : Turn) :
    before.bound own ≤ after.bound own := by
  cases step with
  | aside state heard leaves => exact leaves.model.size_le
  | hear state heard note introduced =>
      have isNew : note.handle = state.draft.model.size := introduced.isNew
      show state.draft.model.size ≤ if _ then note.handle else note.handle + 1
      split
      · exact Nat.le_of_eq isNew.symm
      · exact Nat.le_succ_of_le (Nat.le_of_eq isNew.symm)
  | turn state heard note turn =>
      have later : turn.position ≤ turn.next.position := by
        cases turn <;> decide
      show (if turn.position ≤ own.position then note.handle
        else note.handle + 1) ≤ if turn.next.position ≤ own.position then _ else _
      split
      · split
        · exact Nat.le_refl _
        · exact Nat.le_succ _
      · rename_i passed
        exact Nat.le_of_eq
          (if_neg fun notYet => passed (Nat.le_trans later notYet)).symm
  | sound => exact Nat.le_refl _
  | finish state heard note context => exact bound_le_size orderly own
  | flush state heard =>
      exact Nat.le_of_eq (congrArg Model.size
        (Pending.silent_reportAll state.pending state.draft).model.symm)

theorem Step.heard_prefix
    {before after : Passage} (step : Step before after) :
    before.heard <+: after.heard := by
  cases step with
  | hear state heard note => exact List.prefix_append heard [note]
  | _ => exact List.prefix_refl _

/-! ## What is omitted -/

/-- Relations of one kind do not have their turn. -/
def Omits (word : String) (passage : Passage) : Prop :=
  ∀ note turn, passage.due = some (note, turn) → turn.word ≠ word

theorem exists_turn_of_not_omits
    {word : String} {passage : Passage} (turns : ¬ passage.Omits word) :
    ∃ note turn, passage.due = some (note, turn) ∧ turn.word = word := by
  simpa only [Omits, not_forall, not_not, exists_prop] using turns

/-- Where relations of one kind do not have their turn, none is made or changed. -/
theorem Step.omits
    {before after : Passage} (step : Step before after)
    (orderly : before.Orderly) {word : String} (omitted : before.Omits word)
    (isRelation : ∀ content : Content, content.name = word →
      content.members?.isSome) :
    Model.Omits word before.model after.model := by
  cases step with
  | aside state heard leaves => exact leaves.model.omits isRelation
  | hear state heard note introduced =>
      exact introduced.leaves.model.omits isRelation
  | turn state heard note turn =>
      exact (adds_action turn).omits (omitted note turn rfl).symm isRelation
  | sound state heard note base =>
      exact (adds_joinChord orderly.chords base note.handle).1.omits
        (omitted note .chord rfl).symm isRelation
  | finish => exact ⟨.refl _, fun _ _ _ => Iff.rfl⟩
  | flush state heard =>
      have same : (clearPending.run state).run.2.draft.model =
          state.draft.model :=
        (Pending.silent_reportAll state.pending state.draft).model
      refine ⟨.of_eq same, fun handle content _ => ?_⟩
      show (clearPending.run state).run.2.draft.model.content? handle = _ ↔ _
      rw [same]

/-- Where ties do not have their turn, tunes stay as they are. -/
theorem Step.keepsTunes
    {before after : Passage} (step : Step before after)
    (orderly : before.Orderly) (omitted : before.Omits "tie") :
    Model.KeepsTunes before.model after.model := by
  cases step with
  | aside state heard leaves => exact leaves.model.keepsTunes
  | hear state heard note introduced => exact introduced.leaves.model.keepsTunes
  | turn state heard note turn =>
      refine (adds_action turn).keepsTunes (omitted note turn rfl) ?_
      cases turn <;> simp [Turn.word]
  | sound state heard note base =>
      exact (adds_joinChord orderly.chords base note.handle).1.keepsTunes
        (by simp) (by simp)
  | finish => exact .refl _
  | flush state heard =>
      exact .of_eq (Pending.silent_reportAll state.pending state.draft).model

/-- What waits for a turn goes on waiting at all others, or it is given up. -/
theorem Step.pending_cases
    {Part : Type} (part : Pending → Part) (own : Turn)
    (stays : ∀ {turn : Turn} {earlier later : Pending}, turn ≠ own →
      turn.Changes earlier later → part later = part earlier)
    {before after : Passage} (step : Step before after)
    (other : ∀ note turn, before.due = some (note, turn) → turn ≠ own) :
    part after.pending = part {} ∨ part after.pending = part before.pending := by
  cases step with
  | aside state heard leaves => exact Or.inr (congrArg part leaves.pending)
  | hear state heard note introduced =>
      exact Or.inr (congrArg part introduced.leaves.pending)
  | turn state heard note turn =>
      exact Or.inr (stays (other note turn rfl) (changes_action turn))
  | sound => exact Or.inr rfl
  | finish => exact Or.inr rfl
  | flush => exact Or.inl rfl

end Passage

end LdpScore
