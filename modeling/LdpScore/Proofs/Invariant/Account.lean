import LdpScore.Proofs.Analysis.Handing
import LdpScore.Proofs.Invariant.Record

/-!
# An account of all descriptors

No descriptor that is handed over gets lost.  At every moment of an analysis the
books of each kind of relation balance, and in the end nothing waits: every
descriptor has become part of a relation or has been reported.

Each note or rest hands over one descriptor of a kind at most.  Where its element
has several, all but the last are dropped before, and nothing tells of them.
-/

namespace LdpScore

open Analyser

/-! ## Giving up what waits -/

/-- What is given up of one kind is reported among the other reports. -/
theorem Pending.exists_clear
    (kind : PairedRelation) {pending : Pending}
    (led : Tuplet.Led pending.tuplets) (draft : Draft) :
    ∃ before, draft.Stands before ∧
      (Pairing.clear kind (kind.waiting pending) before).Stands
        (pending.reportAll draft) := by
  have ties := silent_clear_pairing .tie pending.ties draft
  have legacyTie := silent_clear_legacyTie pending.legacyTie
    (Pairing.clear .tie pending.ties draft)
  have slurs := silent_clear_pairing .slur pending.slurs
    (LegacyTie.clear pending.legacyTie
      (Pairing.clear .tie pending.ties draft))
  have beams := silent_clear_pairing .beam pending.beams
    (Pairing.clear .slur pending.slurs
      (LegacyTie.clear pending.legacyTie
        (Pairing.clear .tie pending.ties draft)))
  have legacyBeam := silent_clear_legacyBeam pending.legacyBeam
    (Pairing.clear .beam pending.beams
      (Pairing.clear .slur pending.slurs
        (LegacyTie.clear pending.legacyTie
          (Pairing.clear .tie pending.ties draft))))
  have tuplets := silent_clear_pairing .tuplet pending.tuplets
    (LegacyBeam.clear pending.legacyBeam
      (Pairing.clear .beam pending.beams
        (Pairing.clear .slur pending.slurs
          (LegacyTie.clear pending.legacyTie
            (Pairing.clear .tie pending.ties draft)))))
  cases kind with
  | tie =>
      refine ⟨_, .refl draft, ?_⟩
      rw [PairedRelation.waiting, Pairing.clear_map_endpoint]
      exact (legacyTie.trans (slurs.trans (beams.trans
        (legacyBeam.trans tuplets)))).stands
  | slur =>
      refine ⟨_, (ties.trans legacyTie).stands, ?_⟩
      rw [PairedRelation.waiting, Pairing.clear_map_endpoint]
      exact (beams.trans (legacyBeam.trans tuplets)).stands
  | beam =>
      refine ⟨_, (ties.trans (legacyTie.trans slurs)).stands, ?_⟩
      rw [PairedRelation.waiting, Pairing.clear_map_endpoint]
      exact (legacyBeam.trans tuplets).stands
  | tuplet =>
      refine ⟨_, (ties.trans (legacyTie.trans (slurs.trans (beams.trans
        legacyBeam)))).stands, ?_⟩
      rw [PairedRelation.waiting, Pairing.clear_map_endpoint, led.clear]
      exact .refl _

/-- When all that waits is given up, the books are kept. -/
theorem PairedRelation.Keeps.flush
    {kind : PairedRelation} {handed : List Handed} {fates : List Fate}
    {state : Analysis} (keeps : kind.Keeps handed fates state)
    (led : Tuplet.Led state.pending.tuplets) :
    ∃ more, kind.Keeps handed (fates ++ more) (clearPending.run state).run.2 := by
  obtain ⟨waiting, accounts, waits⟩ := keeps
  obtain ⟨before, earlier, later⟩ :=
    Pending.exists_clear kind led state.draft
  have same : Pairing.clear kind (kind.waiting state.pending) before =
      Pairing.clear kind waiting before := by
    rw [← waits]
    exact Pairing.clear_map_endpoint kind waiting before
  rw [same] at later
  obtain ⟨more, cleared⟩ := (accounts.stand earlier).clear
  refine ⟨more, [], cleared.stand later, ?_⟩
  cases kind <;> rfl

/-! ## Who has handed over -/

/-- The position of a turn among the others. -/
def Turn.position : Turn → Nat
  | .legacyTie => 0
  | .tie => 1
  | .modification => 2
  | .tuplets => 3
  | .legacyBeam => 4
  | .beam => 5
  | .slur => 6
  | .chord => 7

/-- The note or rest in the making that has yet to hand over its descriptor of a
kind. -/
def Focus.unsettled? (kind : PairedRelation) : Focus → Option Written
  | .between => none
  | .reading note => some note
  | .settling note _ _ turn =>
      if turn.position ≤ kind.turn.position then some note else none

/-- Where a descriptor comes from: at a moment before, a note or rest handed it
over, since its element gives it. -/
def Handed.ComesFrom
    (entry : Handed) (kind : PairedRelation) (note : Written)
    (moment : Moment) : Prop :=
  note.handle = entry.endpoint.member ∧ kind.Gives note entry.endpoint ∧
    ∃ state written value decorations,
      Moment.start.Run
        ⟨state, written, .settling note value decorations kind.turn⟩ ∧
      Moment.Run ⟨state, written, .settling note value decorations kind.turn⟩
        moment ∧
      state.draft.diagnostics.size = entry.reports

/-- Those of some notes and rests that give descriptors hand them over, in order,
and nothing else is handed over. -/
structure PairedRelation.Collects
    (kind : PairedRelation) (notes : List Written) (handed : List Handed)
    (moment : Moment) : Prop where
  order : (handed.map fun entry => entry.endpoint.member).Sublist
    (notes.map Written.handle)
  all : ∀ note ∈ notes, kind.IsGivenBy note →
    ∃ entry ∈ handed, entry.endpoint.member = note.handle
  origin : ∀ entry ∈ handed, ∃ note ∈ notes, entry.ComesFrom kind note moment

namespace PairedRelation.Collects

variable {kind : PairedRelation} {notes : List Written}
variable {handed : List Handed} {before after : Moment}

theorem later
    (collects : kind.Collects notes handed before)
    (run : Moment.Run before after) :
    kind.Collects notes handed after := by
  refine ⟨collects.order, collects.all, fun entry listed => ?_⟩
  obtain ⟨note, isNote, isOwn, gives, state, written, value, decorations,
    earlier, toMoment, reports⟩ := collects.origin entry listed
  exact ⟨note, isNote, isOwn, gives, state, written, value, decorations,
    earlier, toMoment.trans run, reports⟩

/-- One more note or rest hands over what it has to. -/
theorem append
    {state : Analysis} {written : List Written} {note : Written}
    {value : NoteValue} {decorations : Decorations}
    (collects : kind.Collects notes handed
      ⟨state, written, .settling note value decorations kind.turn⟩)
    (run : Moment.start.Run
      ⟨state, written, .settling note value decorations kind.turn⟩)
    {given : List Handed}
    (hands : kind.Hands note state.draft.diagnostics.size given) :
    kind.Collects (notes ++ [note]) (handed ++ given)
      ⟨state, written, .settling note value decorations kind.turn⟩ := by
  constructor
  · rw [List.map_append, List.map_append, List.map_singleton]
    refine collects.order.append ?_
    cases hands with
    | nothing => exact List.nil_sublist _
    | descriptor endpoint isOwn => exact isOwn ▸ List.Sublist.refl _
  · refine List.forall_mem_append.mpr ⟨fun other listed isGiven => ?_, ?_⟩
    · obtain ⟨entry, isEntry, isOwn⟩ := collects.all other listed isGiven
      exact ⟨entry, List.mem_append_left _ isEntry, isOwn⟩
    · refine List.forall_mem_singleton.mpr fun isGiven => ?_
      cases hands with
      | nothing noneGiven => exact absurd isGiven noneGiven
      | descriptor endpoint isOwn =>
          exact ⟨_, List.mem_append_right _ (List.mem_singleton_self _), isOwn⟩
  · refine List.forall_mem_append.mpr ⟨fun entry listed => ?_, fun entry isNew =>
      ?_⟩
    · obtain ⟨other, isOther, origin⟩ := collects.origin entry listed
      exact ⟨other, List.mem_append_left _ isOther, origin⟩
    · refine ⟨note, List.mem_append_right _ (List.mem_singleton_self _), ?_⟩
      cases hands with
      | nothing => cases isNew
      | descriptor endpoint isOwn gives =>
          rw [List.mem_singleton.mp isNew]
          exact ⟨isOwn.symm, gives, state, written, value, decorations, run,
            .refl, rfl⟩

/-- Without a descriptor there is nothing to hand over. -/
theorem skip
    (collects : kind.Collects notes handed before) {note : Written}
    (noneGiven : ¬ kind.IsGivenBy note) :
    kind.Collects (notes ++ [note]) handed before := by
  refine ⟨?_, ?_, fun entry listed => ?_⟩
  · rw [List.map_append]
    exact collects.order.trans (List.sublist_append_left _ _)
  · refine List.forall_mem_append.mpr ⟨collects.all, ?_⟩
    exact List.forall_mem_singleton.mpr fun isGiven => absurd isGiven noneGiven
  · obtain ⟨other, isOther, origin⟩ := collects.origin entry listed
    exact ⟨other, List.mem_append_left _ isOther, origin⟩

end PairedRelation.Collects

/-! ## At every moment -/

namespace Moment

/-- The books of a kind of relation balance, with all that the notes and rests
written so far have handed over. -/
def Accounted (kind : PairedRelation) (moment : Moment) : Prop :=
  ∃ settled handed fates,
    moment.written = settled ++ (moment.focus.unsettled? kind).toList ∧
      kind.Collects settled handed moment ∧
      kind.Keeps handed fates moment.state

theorem Step.led
    {before after : Moment} (step : Step before after)
    (recorded : before.Recorded)
    (led : Tuplet.Led before.state.pending.tuplets) :
    Tuplet.Led after.state.pending.tuplets := by
  cases step with
  | amend _ amends =>
      dsimp only
      rw [amends.pending]
      exact led
  | turn state written note value decorations turn due =>
      by_cases isTuplets : turn = .tuplets
      · subst isTuplets
        exact led_tupling (tupling_action value) recorded.decorated led
      · dsimp only
        rw [(changes_action turn).same_tuplets isTuplets]
        exact led
  | flush => exact .nil
  | _ => exact led

theorem Run.led {moment : Moment} (run : start.Run moment) :
    Tuplet.Led moment.state.pending.tuplets := by
  induction run with
  | refl => exact .nil
  | tail run step induction => exact step.led (Run.recorded run) induction

theorem Accounted.keep
    {kind : PairedRelation} {before : Moment} (accounted : before.Accounted kind)
    {after : Analysis} {focus : Focus}
    (step : Step before ⟨after, before.written, focus⟩)
    (unsettled : focus.unsettled? kind = before.focus.unsettled? kind)
    (stands : before.draft.Stands after.draft)
    (waits : kind.waiting after.pending = kind.waiting before.state.pending) :
    Accounted kind ⟨after, before.written, focus⟩ := by
  obtain ⟨settled, handed, fates, isWritten, collects, keeps⟩ := accounted
  refine ⟨settled, handed, fates, ?_, collects.later (.single step),
    keeps.stand stands waits⟩
  rw [unsettled]
  exact isWritten

/-- A turn settles what it is the turn of, and nothing else. -/
theorem unsettled?_next
    {kind : PairedRelation} {turn : Turn} (other : turn ≠ kind.turn)
    (note : Written) (value : NoteValue) (decorations : Decorations) :
    (Focus.settling note value decorations turn.next).unsettled? kind =
      (Focus.settling note value decorations turn).unsettled? kind := by
  cases kind <;> cases turn <;> first | rfl | exact absurd rfl other

theorem stands_joinChord
    {draft : Draft} {base note : Handle} (linked : draft.model.LinksChords)
    (baseIs : draft.model.IsNote base) (isNote : draft.model.IsNote note) :
    draft.Stands (joinChord base note draft) := by
  cases joined : (draft.model.note? base).bind Note.chord with
  | none => exact (creates_joinChord joined baseIs.lt_size isNote.lt_size).stands
  | some chord =>
      refine ⟨(spares_joinChord linked baseIs isNote).keepsRelations, ?_⟩
      rw [joinChord_of_joined joined]
      exact List.prefix_refl _

theorem Step.accounted
    {kind : PairedRelation} {before after : Moment} (step : Step before after)
    (run : start.Run before) (accounted : before.Accounted kind) :
    after.Accounted kind := by
  have recorded := run.recorded
  cases step with
  | amend _ amends =>
      exact accounted.keep (.amend _ amends) rfl amends.stands
        (congrArg kind.waiting amends.pending)
  | write state written note anchor value pitch anchored isNew isFrom =>
      obtain ⟨settled, handed, fates, isWritten, collects, keeps⟩ := accounted
      have isSettled : written = settled :=
        isWritten.trans (List.append_nil settled)
      refine ⟨settled, handed, fates, congrArg (· ++ [note]) isSettled,
        collects.later (.single
          (.write _ _ note anchor value pitch anchored isNew isFrom)), ?_⟩
      exact keeps.stand (Draft.stands_addObject _ _ _ anchored _) rfl
  | read state written note value decorations reads =>
      by_cases skipped : (Focus.settling note value decorations
          (Turn.first note.flavor)).unsettled? kind = some note
      · exact accounted.keep (.read _ _ note value decorations reads) skipped
          (.refl _) rfl
      · obtain ⟨settled, handed, fates, isWritten, collects, keeps⟩ := accounted
        have later : Focus.unsettled? kind (.settling note value decorations
            (Turn.first note.flavor)) = none := by
          rw [Focus.unsettled?] at skipped ⊢
          split <;> simp_all
        have noneGiven : ¬ kind.IsGivenBy note := by
          cases flavor : note.flavor <;> rw [flavor] at skipped <;>
            cases kind <;> first
              | exact absurd rfl skipped
              | simp [PairedRelation.IsGivenBy, Written.noteOptions, flavor]
        refine ⟨settled ++ [note], handed, fates, ?_,
          (collects.later (.single
            (.read _ _ note value decorations reads))).skip noneGiven, keeps⟩
        rw [later]
        exact isWritten.trans (List.append_nil _).symm
  | turn state written note value decorations turn due =>
      by_cases isOwn : turn = kind.turn
      · subst isOwn
        obtain ⟨settled, handed, fates, isWritten, collects, keeps⟩ := accounted
        obtain ⟨given, more, hands, kept⟩ :=
          handsOver_action value due recorded.decorated keeps
        refine ⟨settled ++ [note], handed ++ given, fates ++ more, ?_,
          (collects.append run hands).later (.single
            (.turn state written note value decorations kind.turn due)), kept⟩
        have isCurrent : written = settled ++ [note] := by
          rw [Focus.unsettled?, if_pos (Nat.le_refl _)] at isWritten
          exact isWritten
        rw [isCurrent]
        cases kind <;> exact (List.append_nil _).symm
      · obtain ⟨content, found⟩ :=
          Model.exists_get?_of_lt_size due.isNoteRest.lt_size
        have joins := (joins_action value due ⟨content, found, rfl⟩).1
        exact accounted.keep (.turn _ _ note value decorations turn due)
          (unsettled?_next isOwn note value decorations) joins.stands
          ((changes_action turn).waiting isOwn)
  | sound state written note value decorations base baseIs isNote =>
      exact accounted.keep
        (.sound _ _ note value decorations base baseIs isNote) rfl
        (stands_joinChord recorded.chords baseIs isNote) rfl
  | finish state written note value decorations =>
      refine accounted.keep (.finish _ _ note value decorations) ?_ (.refl _) rfl
      cases kind <;> rfl
  | flush state written =>
      obtain ⟨settled, handed, fates, isWritten, collects, keeps⟩ := accounted
      obtain ⟨more, kept⟩ := keeps.flush run.led
      exact ⟨settled, handed, fates ++ more, isWritten,
        collects.later (.single (.flush state written)), kept⟩

theorem Run.accounted
    {moment : Moment} (kind : PairedRelation) (run : start.Run moment) :
    moment.Accounted kind := by
  induction run with
  | refl =>
      refine ⟨[], [], [], rfl, ⟨.slnil, nofun, nofun⟩, [], .nil kind _, ?_⟩
      cases kind <;> rfl
  | tail run step induction => exact step.accounted run induction

end Moment

/-! ## In the end -/

/--
No descriptor that is handed over gets lost.  For every text that is accepted and
every kind of relation, each note or rest that gives a descriptor has handed it
over, and in the end every descriptor has exactly one fate: it is one of a chain
of which a relation was made, or a report tells of it.
-/
theorem accounts_analyseSource
    (source file : String) {model : Model}
    (accepted : (analyseSource source file).result = .ok model) :
    ∃ root last, (Node.read (Token.lex source file)).result = .ok root ∧
      Moment.IsLast last source file root model ∧
      ∀ kind : PairedRelation, ∃ handed fates,
        kind.Collects last.written handed last ∧
          kind.Accounts handed fates [] last.draft := by
  obtain ⟨root, last, isTree, isLast⟩ := Moment.exists_last_of_accepted accepted
  refine ⟨root, last, isTree, isLast, fun kind => ?_⟩
  obtain ⟨settled, handed, fates, isWritten, collects, waiting, accounts, waits⟩ :=
    isLast.leads.1.accounted kind
  have isSettled : settled = last.written := by
    rw [isWritten, isLast.idle]
    exact (List.append_nil settled).symm
  have noneWaits : waiting = [] := by
    rw [isLast.nothing] at waits
    cases kind <;> exact List.map_eq_nil_iff.mp waits
  subst isSettled noneWaits
  exact ⟨handed, fates, collects, accounts⟩

/-- A tie is made, a slur is never ended, and another one was never started. -/
theorem accounts_tie_and_slurs :
    ∃ model root last,
      (analyseSource
        ("(score (vers 2.0) (instrument (musicData (n c4 q (tie 1 start) " ++
          "(slur 1 start)) (n c4 q (tie 1 stop) (slur 2 stop)))))")
        "").result = .ok model ∧
      ((model.content? 5).map Content.memberHandles = some [3, 4] ∧
        (analyseSource
          ("(score (vers 2.0) (instrument (musicData (n c4 q (tie 1 start) " ++
            "(slur 1 start)) (n c4 q (tie 1 stop) (slur 2 stop)))))")
          "").diagnostics.map Diagnostic.problem =
            #[.neverStarted .slur 2, .neverEnded .slur 1]) ∧
      Moment.IsLast last
        ("(score (vers 2.0) (instrument (musicData (n c4 q (tie 1 start) " ++
          "(slur 1 start)) (n c4 q (tie 1 stop) (slur 2 stop)))))")
        "" root model ∧
      ∀ kind : PairedRelation, ∃ handed fates,
        kind.Collects last.written handed last ∧
          kind.Accounts handed fates [] last.draft := by
  obtain ⟨model, accepted, members⟩ := exists_model_of_any
    (fun model => (model.content? 5).map Content.memberHandles = some [3, 4])
    (by decide +kernel : (analyseSource
      ("(score (vers 2.0) (instrument (musicData (n c4 q (tie 1 start) " ++
        "(slur 1 start)) (n c4 q (tie 1 stop) (slur 2 stop)))))")
      "").result.toOption.any _)
  obtain ⟨root, last, _, isLast, accounts⟩ :=
    accounts_analyseSource _ _ accepted
  exact ⟨model, root, last, accepted,
    ⟨of_decide_eq_true members, by decide +kernel⟩, isLast, accounts⟩

/-- Of two ties of one note only the last one is handed over: nothing becomes of
the first one, and nothing tells of it. -/
theorem earlier_tie_unaccounted :
    ∃ model root,
      (analyseSource "(n c4 q (tie 1 start) (tie 2 start))" "").result =
          .ok model ∧
        (Node.read (Token.lex "(n c4 q (tie 1 start) (tie 2 start))"
          "")).result = .ok root ∧
        (root.children.filter fun node =>
          node.is .tie && node.givesTie).length = 2 ∧
        model.findAll "tie" = [] ∧
        (analyseSource "(n c4 q (tie 1 start) (tie 2 start))"
          "").diagnostics.map Diagnostic.problem = #[.neverEnded .tie 2] := by
  obtain ⟨model, accepted, noTie⟩ := exists_model_of_any
    (fun model => model.findAll "tie" = [])
    (by decide +kernel : (analyseSource "(n c4 q (tie 1 start) (tie 2 start))"
      "").result.toOption.any _)
  obtain ⟨root, isTree, given⟩ := exists_tree_of_any
    (fun root => (root.children.filter fun node =>
      node.is .tie && node.givesTie).length = 2)
    (by decide +kernel : (Node.read (Token.lex
      "(n c4 q (tie 1 start) (tie 2 start))" "")).result.toOption.any _)
  exact ⟨model, root, accepted, isTree, of_decide_eq_true given,
    of_decide_eq_true noTie, by decide +kernel⟩

end LdpScore
