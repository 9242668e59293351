import LdpScore.Proofs.Analysis.Tupling
import LdpScore.Proofs.Invariant.Record
import Mathlib.Algebra.Group.Nat.Defs
import Mathlib.Data.List.Basic

/-!
# How long notes and rests last

A modification that the text gives stays, whatever tuplets a note or rest belongs
to.  One without it has the product of the modifications of all its tuplets, in
which the counts are limited once and for all, however the tuplets are nested and
in whatever order they come to an end.
-/

namespace LdpScore

open Analyser

/-! ## Products of modifications -/

namespace TimeModification

/-- The modification by several tuplets: the counts are multiplied, and limited to
the greatest count.  No tuplets modify nothing. -/
def product? : List TimeModification → Option TimeModification
  | [] => none
  | modifications =>
      some
        ⟨min (modifications.map normal).prod maxCount,
          min (modifications.map actual).prod maxCount⟩

/-- The modification by some tuplets and one more. -/
def join (inner : Option TimeModification) (outer : TimeModification) :
    TimeModification :=
  match inner with
  | some inner => inner.combine outer
  | none => outer

/-- A product may be limited before it is multiplied. -/
theorem multiply_min (left right : Nat) :
    multiply (min left maxCount) right = min (left * right) maxCount := by
  rw [multiply]
  rcases Nat.le_total left maxCount with small | large
  · rw [Nat.min_eq_left small]
  · rw [Nat.min_eq_right large]
    rcases Nat.eq_zero_or_pos right with rfl | positive
    · rw [Nat.mul_zero, Nat.mul_zero]
    · have limited : maxCount ≤ maxCount * right :=
        Nat.le_mul_of_pos_right maxCount positive
      have unlimited : maxCount * right ≤ left * right :=
        Nat.mul_le_mul_right right large
      rw [Nat.min_eq_right limited,
        Nat.min_eq_right (Nat.le_trans limited unlimited)]

/-- One more tuplet, the counts of which fit into 32 bits, joins the product. -/
theorem product?_concat
    (modifications : List TimeModification) {last : TimeModification}
    (normalFits : last.normal ≤ maxCount)
    (actualFits : last.actual ≤ maxCount) :
    product? (modifications ++ [last]) =
      some (join (product? modifications) last) := by
  cases modifications with
  | nil =>
      simp only [product?, join, List.nil_append, List.map_cons, List.map_nil,
        List.prod_singleton, Nat.min_eq_left normalFits,
        Nat.min_eq_left actualFits]
  | cons first rest =>
      simp only [product?, join, combine, List.cons_append, List.map_cons,
        List.map_append, List.map_nil, List.prod_cons, List.prod_append,
        List.prod_nil, Nat.mul_one, multiply_min, Nat.mul_assoc]

end TimeModification

open TimeModification

/-! ## The timing of the objects of a score -/

/-- What becomes of a note or rest to which the text gives a modification. -/
def NoteRest.give (given : TimeModification) (noteRest : NoteRest) : NoteRest :=
  { noteRest with
    timeModification := some given
    isModificationExplicit := true }

namespace Model

/-- The modification of a note or rest, and whether the text gives it. -/
def timing? (model : Model) (handle : Handle) :
    Option (Option TimeModification × Bool) :=
  (model.content? handle).bind Content.timing?

/-- The modification that a tuplet applies, and its members. -/
def tuplet? (model : Model) (handle : Handle) :
    Option (TimeModification × List Handle) :=
  (model.content? handle).bind Content.tuplet?

/-- The modification that a tuplet applies to an object, if that is a member. -/
def modificationBy? (model : Model) (member tuplet : Handle) :
    Option TimeModification :=
  (model.tuplet? tuplet).bind fun (modification, members) =>
    if member ∈ members then some modification else none

/-- The modifications by all tuplets that an object belongs to. -/
def modificationsOf (model : Model) (member : Handle) :
    List TimeModification :=
  model.handles.filterMap (model.modificationBy? member)

theorem noteRest?_timing?
    {model : Model} {handle : Handle} {noteRest : NoteRest}
    (found : model.noteRest? handle = some noteRest) :
    model.timing? handle =
      some (noteRest.timeModification, noteRest.isModificationExplicit) := by
  obtain ⟨content, isContent, isNoteRest⟩ := Option.bind_eq_some_iff.mp found
  rw [timing?, isContent, Option.bind_some, Content.timing?, isNoteRest,
    Option.map_some]

/-- The tuplets are the same, among more objects perhaps. -/
theorem modificationsOf_congr
    {before after : Model} (le : before.size ≤ after.size)
    (same : ∀ handle, after.tuplet? handle = before.tuplet? handle)
    (member : Handle) :
    after.modificationsOf member = before.modificationsOf member := by
  have sameBy :
      after.modificationBy? member = before.modificationBy? member := by
    funext tuplet
    rw [modificationBy?, modificationBy?, same tuplet]
  obtain ⟨count, isSize⟩ := Nat.exists_eq_add_of_le le
  rw [modificationsOf, modificationsOf, sameBy, handles, handles, isSize,
    List.range_add, List.filterMap_append, List.filterMap_map]
  rw [List.append_right_eq_self, List.filterMap_eq_nil_iff]
  intro index _
  have outside : before.content? (before.size + index) = none := by
    rw [content?, get?_eq_none_iff.mpr (Nat.le_add_right _ _),
      Option.map_none]
  rw [Function.comp_apply, modificationBy?, tuplet?, outside]
  rfl

/-- A note or rest may take a modification of its own. -/
theorem timing?_give
    (model : Model) (handle : Handle) (given : TimeModification)
    (other : Handle) :
    (model.modifyNoteRest handle (NoteRest.give given)).timing? other =
      (model.timing? other).map fun timing =>
        if other = handle then (some given, true) else timing := by
  rw [timing?, modifyNoteRest, content?_modifyContent, timing?]
  cases model.content? other with
  | none => rfl
  | some content =>
      rw [Option.map_some, Option.bind_some, Option.bind_some]
      split
      · cases content <;> rfl
      · exact Option.map_id'.symm

/-- What changes in notes and rests does not change the tuplets. -/
theorem modificationsOf_modifyNoteRest
    (model : Model) (handle : Handle) (change : NoteRest → NoteRest)
    (member : Handle) :
    (model.modifyNoteRest handle change).modificationsOf member =
      model.modificationsOf member := by
  apply modificationsOf_congr
  · exact Nat.le_of_eq (size_modifyContent ..).symm
  · intro other
    rw [tuplet?, modifyNoteRest, content?_modifyContent, tuplet?]
    cases model.content? other with
    | none => rfl
    | some content =>
        rw [Option.map_some, Option.bind_some, Option.bind_some]
        split
        · cases content <;> rfl
        · rfl

namespace Spares

variable {before after : Model}

theorem tuplet? (spares : Spares before after) (handle : Handle) :
    after.tuplet? handle = before.tuplet? handle := by
  cases found : before.content? handle with
  | some content =>
      obtain ⟨later, foundLater, retains⟩ := spares.old handle content found
      rw [Model.tuplet?, Model.tuplet?, found, foundLater, Option.bind_some,
        Option.bind_some, retains.tuplet?]
  | none =>
      rw [Model.tuplet?, Model.tuplet?, found]
      cases foundLater : after.content? handle with
      | none => rfl
      | some later =>
          have outside : before.size ≤ handle := by
            rw [content?, Option.map_eq_none_iff] at found
            exact get?_eq_none_iff.mp found
          exact (spares.new handle later foundLater outside).2

theorem timing? (spares : Spares before after) (handle : Handle) :
    after.timing? handle = before.timing? handle := by
  cases found : before.content? handle with
  | some content =>
      obtain ⟨later, foundLater, retains⟩ := spares.old handle content found
      rw [Model.timing?, Model.timing?, found, foundLater, Option.bind_some,
        Option.bind_some, retains.timing?]
  | none =>
      rw [Model.timing?, Model.timing?, found]
      cases foundLater : after.content? handle with
      | none => rfl
      | some later =>
          have outside : before.size ≤ handle := by
            rw [content?, Option.map_eq_none_iff] at found
            exact get?_eq_none_iff.mp found
          rw [Option.bind_some, Content.timing?,
            (spares.new handle later foundLater outside).1]
          rfl

theorem modificationsOf (spares : Spares before after) (member : Handle) :
    after.modificationsOf member = before.modificationsOf member :=
  modificationsOf_congr spares.size_le spares.tuplet? member

end Spares

end Model

/-! ## A new tuplet -/

/-- A tuplet modifies how long a note or rest lasts, unless the text says so. -/
theorem Content.timing?_modify
    (modification : TimeModification) (content : Content) :
    (content.mapNoteRest (Tuplet.modify modification)).timing? =
      content.timing?.map fun timing =>
        if timing.2 then timing else (some (join timing.1 modification), false) := by
  have modified : ∀ noteRest : NoteRest,
      ((Tuplet.modify modification noteRest).timeModification,
        (Tuplet.modify modification noteRest).isModificationExplicit) =
          if noteRest.isModificationExplicit then
            (noteRest.timeModification, noteRest.isModificationExplicit)
          else (some (join noteRest.timeModification modification), false) := by
    intro noteRest
    rw [Tuplet.modify]
    split
    · rfl
    · rename_i implicit
      rw [Bool.eq_false_iff.mpr implicit]
      cases noteRest.timeModification <;> rfl
  cases content <;> simp only [mapNoteRest, timing?, noteRest?, Option.map_some,
    Option.map_none, modified]

namespace Draft.Creates

variable {actual normal : Nat} {bracket : YesNo} {display : NumberDisplay}
variable {members : Members} {before after : Draft}

/-- A new tuplet modifies all its members and nothing else. -/
theorem timing?
    (created : Creates (.tuplet actual normal bracket display members) before
      after)
    (handle : Handle) :
    after.model.timing? handle =
      (before.model.timing? handle).map fun timing =>
        if handle ∈ members.map Prod.fst ∧ timing.2 = false then
          (some (join timing.1 ⟨normal, actual⟩), false)
        else timing := by
  rw [Model.timing?, Model.timing?, created.content? handle]
  split
  · rename_i isNew
    have none : before.model.content? handle = none := by
      rw [Model.content?, Model.get?_eq_none_iff.mpr (Nat.le_of_eq isNew.symm),
        Option.map_none]
    rw [none]
    rfl
  · cases before.model.content? handle with
    | none => rfl
    | some content =>
        rw [Option.map_some, Option.bind_some, Option.bind_some,
          Content.effectOn]
        by_cases isMember : handle ∈ members.map Prod.fst
        · rw [if_pos isMember, Content.timing?_modify]
          cases content.timing? with
          | none => rfl
          | some timing =>
              rcases timing with ⟨modification, _ | _⟩ <;> simp [isMember]
        · rw [if_neg isMember]
          cases content.timing? <;> simp [isMember]

/-- The members of a new tuplet belong to one more. -/
theorem modificationsOf
    (created : Creates (.tuplet actual normal bracket display members) before
      after)
    (member : Handle) :
    after.model.modificationsOf member =
      before.model.modificationsOf member ++
        if member ∈ members.map Prod.fst then [⟨normal, actual⟩] else [] := by
  have old : ∀ handle < before.model.size,
      after.model.modificationBy? member handle =
        before.model.modificationBy? member handle := by
    intro handle inside
    rw [Model.modificationBy?, Model.modificationBy?, Model.tuplet?,
      Model.tuplet?, created.content? handle, if_neg (Nat.ne_of_lt inside)]
    cases before.model.content? handle with
    | none => rfl
    | some content =>
        rw [Option.map_some, Option.bind_some, Option.bind_some,
          Content.effectOn]
        split
        · cases content <;> rfl
        · rfl
  have new : after.model.modificationBy? member before.model.size =
      if member ∈ members.map Prod.fst then some ⟨normal, actual⟩
      else none := by
    rw [Model.modificationBy?, Model.tuplet?, created.content?, if_pos rfl]
    rfl
  rw [Model.modificationsOf, Model.handles, created.size, List.range_succ,
    List.filterMap_append]
  congr 1
  · apply List.filterMap_congr
    intro handle listed
    exact old handle (List.mem_range.mp listed)
  · rw [List.filterMap_cons, new]
    split <;> simp_all

end Draft.Creates

/-! ## What holds at every moment -/

namespace Analysis

/-- Notes and rests without a modification of their own have that of their
tuplets. -/
structure Timed (state : Analysis) : Prop where
  fits : ∀ point ∈ state.pending.tuplets, CountsFit point
  fresh : ∀ member, state.draft.model.size ≤ member →
    state.draft.model.modificationsOf member = []
  implicit : ∀ handle modification,
    state.draft.model.timing? handle = some (modification, false) →
      modification = product? (state.draft.model.modificationsOf handle)

/-- A modification that the text gives stays, and no other one becomes such. -/
def KeepsGiven (before after : Analysis) : Prop :=
  ∀ handle timing, before.draft.model.timing? handle = some timing →
    ∃ later, after.draft.model.timing? handle = some later ∧
      later.2 = timing.2 ∧ (timing.2 → later = timing)

/-- What leaves all tuplets alone leaves alone how long notes and rests last. -/
theorem Timed.spare
    {before after : Analysis} (timed : before.Timed)
    (spares : before.draft.model.Spares after.draft.model)
    (tuplets : after.pending.tuplets ⊆ before.pending.tuplets) :
    after.Timed := by
  constructor
  · intro point waits
    exact timed.fits point (tuplets waits)
  · intro member outside
    rw [spares.modificationsOf]
    exact timed.fresh member (Nat.le_trans spares.size_le outside)
  · intro handle modification isTiming
    rw [spares.timing?] at isTiming
    rw [spares.modificationsOf]
    exact timed.implicit handle modification isTiming

/-- A note or rest may take a modification that the text gives. -/
theorem Timed.give
    {state : Analysis} (timed : state.Timed) (handle : Handle)
    (given : TimeModification) :
    Timed
      { state with
        draft := state.draft.mapModel fun model =>
          model.modifyNoteRest handle (NoteRest.give given) } := by
  have modifications :=
    state.draft.model.modificationsOf_modifyNoteRest handle
      (NoteRest.give given)
  refine ⟨timed.fits, fun member outside => ?_, fun other later found => ?_⟩
  · have outside : state.draft.model.size ≤ member :=
      Nat.le_trans (Nat.le_of_eq (Model.size_modifyContent ..).symm) outside
    exact (modifications member).trans (timed.fresh member outside)
  · have timing := state.draft.model.timing?_give handle given other
    obtain ⟨earlier, foundEarlier, isLater⟩ :=
      Option.map_eq_some_iff.mp (timing.symm.trans found)
    split at isLater
    · cases isLater
    · cases isLater
      exact (timed.implicit other later foundEarlier).trans
        (congrArg product? (modifications other).symm)

theorem KeepsGiven.of_same
    {before after : Analysis}
    (same : ∀ handle, after.draft.model.timing? handle =
      before.draft.model.timing? handle) :
    before.KeepsGiven after := by
  intro handle timing found
  exact ⟨timing, (same handle).trans found, rfl, fun _ => rfl⟩

/-- A new tuplet modifies exactly its members. -/
theorem timed_of_creates
    {before after : Analysis} {start : TupletPoint} {members : Members}
    (timed : before.Timed)
    (created : Draft.Creates (.tuplet start.actual start.normal start.bracket
      start.display members) before.draft after.draft)
    (old : ∀ member ∈ members.map Prod.fst, member < before.draft.model.size)
    (startFits : CountsFit start)
    (fits : ∀ point ∈ after.pending.tuplets, CountsFit point) :
    after.Timed ∧ before.KeepsGiven after := by
  refine ⟨⟨fits, fun member outside => ?_, fun handle modification found => ?_⟩,
    fun handle timing found => ?_⟩
  · rw [created.size] at outside
    have noMember : member ∉ members.map Prod.fst := by
      intro isMember
      exact absurd (old member isMember)
        (Nat.not_lt.mpr (Nat.le_of_succ_le outside))
    rw [created.modificationsOf, if_neg noMember, List.append_nil]
    exact timed.fresh member (Nat.le_of_succ_le outside)
  · rw [created.timing?] at found
    obtain ⟨⟨earlier, given⟩, foundEarlier, isLater⟩ :=
      Option.map_eq_some_iff.mp found
    rw [created.modificationsOf]
    by_cases isMember : handle ∈ members.map Prod.fst
    · cases given with
      | true => simp at isLater
      | false =>
          rw [if_pos ⟨isMember, rfl⟩] at isLater
          cases isLater
          have isProduct := timed.implicit handle earlier foundEarlier
          rw [if_pos isMember,
            product?_concat _ startFits.normal startFits.actual, isProduct]
    · rw [if_neg fun facts => isMember facts.1] at isLater
      cases isLater
      rw [if_neg isMember, List.append_nil]
      exact timed.implicit handle modification foundEarlier
  · rcases timing with ⟨modification, given⟩
    rw [created.timing?, found, Option.map_some]
    refine ⟨_, rfl, ?_, fun isGiven => ?_⟩
    · split
      · rename_i facts
        exact facts.2.symm
      · rfl
    · rw [if_neg]
      rintro ⟨_, isFalse⟩
      rw [isFalse] at isGiven
      cases isGiven

/-- Offering a descriptor of the newest object makes one tuplet at most. -/
theorem timed_offerTuplet
    {state : Analysis} {point : TupletPoint}
    (timed : state.Timed) (fits : CountsFit point)
    (waiting : Pairing.Waiting (point.noteRest + 1) state.pending.tuplets)
    (old : ∀ other ∈ state.pending.tuplets ++ [point],
      other.noteRest < state.draft.model.size) :
    (state.offerTuplet point).Timed ∧
      state.KeepsGiven (state.offerTuplet point) := by
  have allFit : ∀ other ∈ state.pending.tuplets ++ [point],
      CountsFit other := by
    intro other listed
    rcases List.mem_append.mp listed with waits | isNew
    · exact timed.fits other waits
    · exact List.mem_singleton.mp isNew ▸ fits
  rw [offerTuplet, Tuplet.add_eq_settleWith, Pairing.settleWith, Pairing.add]
  cases outcome : Pairing.offer state.pending.tuplets point with
  | rejected reason =>
      exact ⟨⟨timed.fits, timed.fresh, timed.implicit⟩,
        .of_same fun _ => rfl⟩
  | waiting =>
      exact ⟨⟨allFit, timed.fresh, timed.implicit⟩, .of_same fun _ => rfl⟩
  | complete chain =>
      have listed : ∀ other ∈ chain, other ∈ state.pending.tuplets ++ [point] := by
        intro other isListed
        rcases Pairing.mem_of_complete outcome isListed with waits | rfl
        · exact List.mem_append_left _ waits
        · exact List.mem_append_right _ (List.mem_singleton_self other)
      obtain ⟨rising, several⟩ := waiting.chain rfl outcome
      cases chain with
      | nil => cases several
      | cons start rest =>
          have created := Tuplet.creates_linkChain rising
            fun other isListed => old other (listed other isListed)
          refine timed_of_creates timed created ?_
            (allFit start (listed start (List.mem_cons_self ..)))
            fun other remains => ?_
          · rw [Tuplet.map_fst_entries]
            intro member isMember
            obtain ⟨other, isOther, rfl⟩ := List.mem_map.mp isMember
            exact old other (listed other isOther)
          · exact timed.fits other (List.mem_filter.mp remains).1

theorem timed_joinTuplets
    {state : Analysis} (timed : state.Timed) (noteRest : Handle)
    (location : Location) :
    (state.joinTuplets noteRest location).Timed := by
  refine ⟨fun other waits => ?_, timed.fresh, timed.implicit⟩
  rcases List.mem_append.mp waits with old | new
  · exact timed.fits other old
  · obtain ⟨start, isStart, rfl⟩ := List.mem_map.mp new
    have startFits := timed.fits start (List.mem_filter.mp isStart).1
    exact ⟨startFits.actual, startFits.normal⟩

/-- At the turn of its tuplets a note or rest makes one more tuplet at most. -/
theorem timed_tupling
    {note : Written} {decorations : Decorations} {before after : Analysis}
    (tupling : Tupling note decorations before after)
    (due : Turn.tuplets.Due note decorations before)
    (decorated : note.Says decorations) (timed : before.Timed) :
    after.Timed ∧ before.KeepsGiven after := by
  have waiting : Pairing.Waiting note.handle before.pending.tuplets :=
    due.ready.tupletsWait
  have offered : ∀ point : TupletPoint, point.noteRest = note.handle →
      CountsFit point →
        (before.offerTuplet point).Timed ∧
          before.KeepsGiven (before.offerTuplet point) := by
    intro point isOwn fits
    have waiting := waiting.mono (Nat.le_succ note.handle)
    exact timed_offerTuplet timed fits (isOwn ▸ waiting)
      (due.lt_size_of_waiting waiting isOwn)
  have given : ∀ point, decorations.tuplet = some point →
      point.noteRest = note.handle ∧ CountsFit point := by
    intro point isPoint
    obtain ⟨child, _, _, state, gives⟩ := decorated.givesTuplet isPoint
    have given := yields_analyseTuplet child (some note.handle) state
    exact ⟨due.areOf.tuplet point isPoint, (given point gives).fits⟩
  cases tupling with
  | useless _ _ agrees =>
      have amends := Amends.of_agrees agrees
      exact ⟨timed.spare amends.model (agrees.pending ▸ List.Subset.refl _),
        .of_same amends.model.timing?⟩
  | legacy point _ isOwn fits _ => exact offered point isOwn fits
  | inside =>
      exact ⟨timed_joinTuplets timed _ _, .of_same fun _ => rfl⟩
  | starting point _ isPoint _ =>
      obtain ⟨isOwn, fits⟩ := given point isPoint
      have waiting := Tuplet.waiting_join waiting note.node.location
      exact timed_offerTuplet (timed_joinTuplets timed _ _) fits
        (isOwn ▸ waiting) (due.lt_size_of_waiting waiting isOwn)
  | stopping point _ isPoint _ =>
      obtain ⟨isOwn, fits⟩ := given point isPoint
      obtain ⟨timedToo, keeps⟩ := offered point isOwn fits
      exact ⟨timed_joinTuplets timedToo _ _, keeps⟩

end Analysis

/-- The note or rest that may still take the modification that its element
gives. -/
def Focus.unmodified? : Focus → Option Written
  | .between => none
  | .reading note => some note
  | .settling note _ _ turn =>
      match turn with
      | .legacyTie | .tie | .modification => some note
      | _ => none

/-- A note or rest has the modification that its element gives, if there is
one. -/
def Model.Follows (model : Model) (note : Written) : Prop :=
  match note.modification? with
  | some given => model.timing? note.handle = some (some given, true)
  | none => ∃ modification,
      model.timing? note.handle = some (modification, false)

/-- Nothing modifies an object yet. -/
structure Model.Unmodified (model : Model) (handle : Handle) : Prop where
  timing : model.timing? handle = some (none, false)
  modifications : model.modificationsOf handle = []

theorem Model.Follows.congr
    {before after : Model} {note : Written} (follows : before.Follows note)
    (same : after.timing? note.handle = before.timing? note.handle) :
    after.Follows note := by
  unfold Follows at follows ⊢
  rw [same]
  exact follows

theorem Analysis.KeepsGiven.follows
    {before after : Analysis} (keeps : before.KeepsGiven after)
    {note : Written} (follows : before.draft.model.Follows note) :
    after.draft.model.Follows note := by
  unfold Model.Follows at follows ⊢
  split
  · rename_i given isGiven
    rw [isGiven] at follows
    obtain ⟨later, found, _, same⟩ := keeps _ _ follows
    rw [found, same rfl]
  · rename_i noneGiven
    rw [noneGiven] at follows
    obtain ⟨modification, isTiming⟩ := follows
    obtain ⟨⟨later, isGiven⟩, found, same, _⟩ := keeps _ _ isTiming
    cases same
    exact ⟨later, found⟩

namespace Moment

/-- How long all notes and rests last agrees with their elements and with their
tuplets. -/
structure Timed (moment : Moment) : Prop where
  state : moment.state.Timed
  unmodified : ∀ note, moment.focus.unmodified? = some note →
    moment.model.Unmodified note.handle
  follows : ∀ note ∈ moment.written, moment.focus.unmodified? ≠ some note →
    moment.model.Follows note

theorem Timed.spare
    {before : Moment} (timed : before.Timed) {after : Analysis}
    (spares : before.model.Spares after.draft.model)
    (tuplets : after.pending.tuplets ⊆ before.state.pending.tuplets)
    {focus : Focus} (same : focus.unmodified? = before.focus.unmodified?) :
    Timed ⟨after, before.written, focus⟩ := by
  refine ⟨timed.state.spare spares tuplets, fun note isUnmodified => ?_,
    fun note listed isModified => ?_⟩
  · rw [same] at isUnmodified
    obtain ⟨isTiming, noTuplet⟩ := timed.unmodified note isUnmodified
    exact ⟨(spares.timing? _).trans isTiming,
      (spares.modificationsOf _).trans noTuplet⟩
  · rw [same] at isModified
    exact (timed.follows note listed isModified).congr (spares.timing? _)

/-- A new note or rest is not modified yet. -/
theorem Timed.write
    {state : Analysis} {written : List Written}
    (timed : Timed ⟨state, written, .between⟩)
    (recorded : Recorded ⟨state, written, .between⟩) (note : Written)
    {anchor : Option Handle} (value : NoteValue) (pitch : Option Pitch)
    (anchored : state.draft.model.HasAnchor anchor)
    (isNew : note.handle = state.draft.model.size) :
    Timed
      ⟨{ state with
          draft := (state.draft.addObject note.node.id? note.node.location
            anchor (noteRestContent note.flavor value pitch)).2 },
        written ++ [note], .reading note⟩ := by
  have content := state.draft.content?_addObject note.node.id?
    note.node.location anchored (noteRestContent note.flavor value pitch)
  have outside : state.draft.model.content? state.draft.model.size = none := by
    rw [Model.content?, Model.get?_eq_none_iff.mpr (Nat.le_refl _),
      Option.map_none]
  have isTiming : (noteRestContent note.flavor value pitch).timing? =
      some (none, false) := by
    cases note.flavor <;> rfl
  have modifications : ∀ member,
      Model.modificationsOf (state.draft.addObject note.node.id?
        note.node.location anchor
          (noteRestContent note.flavor value pitch)).2.model member =
        state.draft.model.modificationsOf member := by
    apply Model.modificationsOf_congr
    · rw [Draft.size_addObject]
      exact Nat.le_succ _
    · intro handle
      rw [Model.tuplet?, Model.tuplet?, content handle]
      split
      · rename_i isOwn
        rw [isOwn, outside]
        cases note.flavor <;> rfl
      · rfl
  refine ⟨⟨timed.state.fits, fun member beyond => ?_,
    fun handle modification found => ?_⟩, ?_, fun other listed isOther => ?_⟩
  · rw [Draft.size_addObject] at beyond
    rw [modifications]
    exact timed.state.fresh member (Nat.le_of_succ_le beyond)
  · rw [modifications]
    rw [Model.timing?, content handle] at found
    split at found
    · rename_i isOwn
      rw [Option.bind_some, isTiming] at found
      cases found
      rw [timed.state.fresh handle (Nat.le_of_eq isOwn.symm)]
      rfl
    · exact timed.state.implicit handle modification found
  · rintro other ⟨⟩
    constructor
    · show Model.timing? _ note.handle = _
      rw [Model.timing?, content, if_pos isNew, Option.bind_some, isTiming]
    · rw [modifications]
      exact timed.state.fresh _ (Nat.le_of_eq isNew.symm)
  · rcases List.mem_append.mp listed with old | new
    · have notNew : other.handle ≠ state.draft.model.size :=
        Nat.ne_of_lt (recorded.lt_size old)
      refine (timed.follows other old
        (Option.some_ne_none other).symm).congr ?_
      show Model.timing? _ other.handle = _
      rw [Model.timing?, content, if_neg notNew]
      rfl
    · exact absurd (congrArg some (List.mem_singleton.mp new).symm) isOther

/-- A note or rest takes the modification that its element gives. -/
theorem Timed.applyModification
    {state : Analysis} {written : List Written} {note : Written}
    {value : NoteValue} {decorations : Decorations}
    (timed :
      Timed ⟨state, written, .settling note value decorations .modification⟩)
    (recorded :
      Recorded
        ⟨state, written, .settling note value decorations .modification⟩) :
    Timed
      ⟨((applyModification note.handle decorations.timeModification).run
          state).run.2, written,
        .settling note value decorations .tuplets⟩ := by
  obtain ⟨isUntouched, noTuplet⟩ := timed.unmodified note rfl
  have isGiven := recorded.decorated.timeModification
  have others : ∀ other ∈ written, other ≠ note →
      state.draft.model.Follows other ∧ other.handle ≠ note.handle := by
    intro other listed isOther
    refine ⟨timed.follows other listed fun isNote => ?_, fun same => ?_⟩
    · exact isOther (Option.some.inj isNote).symm
    · exact isOther (recorded.eq_of_handle listed
        (List.mem_of_getLast? (recorded.newest note rfl)) same)
  cases given : decorations.timeModification with
  | none =>
      refine ⟨timed.state, nofun, fun other listed _ => ?_⟩
      by_cases isOwn : other = note
      · unfold Model.Follows
        rw [isOwn, ← isGiven, given]
        exact ⟨none, isUntouched⟩
      · exact (others other listed isOwn).1
  | some modification =>
      refine ⟨timed.state.give note.handle modification, nofun,
        fun other listed _ => ?_⟩
      have timing := state.draft.model.timing?_give note.handle modification
      by_cases isOwn : other = note
      · unfold Model.Follows
        rw [isOwn, ← isGiven, given]
        show (state.draft.model.modifyNoteRest _ (NoteRest.give _)).timing? _ =
          _
        rw [timing, show state.draft.model.timing? _ = _ from isUntouched,
          Option.map_some, if_pos rfl]
      · obtain ⟨follows, differs⟩ := others other listed isOwn
        refine follows.congr ((timing other.handle).trans ?_)
        simp only [if_neg differs, Option.map_id']

/-- At the turn of its tuplets a note or rest has its own modification already. -/
theorem Timed.tuple
    {state after : Analysis} {written : List Written} {note : Written}
    {value : NoteValue} {decorations : Decorations}
    (timed :
      Timed ⟨state, written, .settling note value decorations .tuplets⟩)
    (recorded :
      Recorded ⟨state, written, .settling note value decorations .tuplets⟩)
    (due : Turn.tuplets.Due note decorations state)
    (tupling : Tupling note decorations state after) :
    Timed
      ⟨after, written, .settling note value decorations .legacyBeam⟩ := by
  obtain ⟨timedAfter, keeps⟩ :=
    Analysis.timed_tupling tupling due recorded.decorated timed.state
  refine ⟨timedAfter, nofun, fun other listed _ => ?_⟩
  exact keeps.follows (timed.follows other listed nofun)

theorem Step.timed
    {before after : Moment} (step : Step before after)
    (recorded : before.Recorded) (timed : before.Timed) :
    after.Timed := by
  cases step with
  | amend _ amends =>
      exact timed.spare amends.model (amends.pending ▸ List.Subset.refl _) rfl
  | write state written note anchor value pitch anchored isNew =>
      exact timed.write recorded note value pitch anchored isNew
  | read state written note value decorations reads =>
      refine timed.spare (.refl _) (List.Subset.refl _) ?_
      cases flavor : note.flavor <;> rfl
  | turn state written note value decorations turn due =>
      by_cases isModification : turn = .modification
      · subst isModification
        exact timed.applyModification recorded
      · by_cases isTuplets : turn = .tuplets
        · subst isTuplets
          exact timed.tuple recorded due (tupling_action value)
        · have spares :=
            (spares_action value due isModification isTuplets).1
          refine timed.spare spares.model
            (spares.tuplets ▸ List.Subset.refl _) ?_
          cases turn <;> first | rfl | contradiction
  | sound state written note value decorations base baseIs isNote =>
      refine timed.spare ?_ ?_ rfl
      · exact spares_joinChord recorded.chords baseIs isNote
      · exact List.Subset.refl _
  | finish state written note value decorations =>
      exact timed.spare (.refl _) (List.Subset.refl _) rfl
  | flush state written =>
      refine timed.spare ?_ (List.nil_subset _) rfl
      show Model.Spares _ (state.pending.reportAll state.draft).model
      rw [(Pending.silent_reportAll state.pending state.draft).model]
      exact .refl _

theorem timed_start : start.Timed := by
  refine ⟨⟨nofun, fun member _ => rfl, fun handle modification found => ?_⟩,
    nofun, nofun⟩
  cases found

/-- Every moment of an analysis has its notes and rests last as they should. -/
theorem Run.timed {moment : Moment} (run : start.Run moment) :
    moment.Timed := by
  have step : ∀ {before after : Moment}, Step before after →
      before.Recorded ∧ before.Timed → after.Recorded ∧ after.Timed :=
    fun step holds => ⟨step.recorded holds.1, step.timed holds.1 holds.2⟩
  exact (run.preserves step ⟨recorded_start, timed_start⟩).2

/-- How long a note or rest lasts at some moment.  Its own modification is applied
when all of its element has been read, before it joins any tuplet. -/
structure Lasts
    (moment : Moment) (note : Written) (noteRest : NoteRest) : Prop where
  implicit : note.modification? = none →
    noteRest.timeModification =
      product? (moment.model.modificationsOf note.handle)
  explicit : ∀ given, note.modification? = some given →
    noteRest.timeModification = some given ∨
      moment.focus.unmodified? = some note ∧
        noteRest.timeModification = none ∧
        moment.model.modificationsOf note.handle = []

theorem Timed.lasts
    {moment : Moment} (timed : moment.Timed) {note : Written}
    (listed : note ∈ moment.written) {noteRest : NoteRest}
    (found : moment.model.noteRest? note.handle = some noteRest) :
    moment.Lasts note noteRest := by
  have isTiming := Model.noteRest?_timing? found
  by_cases isUnmodified : moment.focus.unmodified? = some note
  · obtain ⟨untouched, noTuplet⟩ := timed.unmodified note isUnmodified
    rw [isTiming] at untouched
    have none : noteRest.timeModification = none :=
      congrArg Prod.fst (Option.some.inj untouched)
    refine ⟨fun _ => ?_, fun _ _ => Or.inr ⟨isUnmodified, none, noTuplet⟩⟩
    rw [none, noTuplet]
    rfl
  · have follows := timed.follows note listed isUnmodified
    unfold Model.Follows at follows
    refine ⟨fun noneGiven => ?_, fun given isGiven => Or.inl ?_⟩
    · rw [noneGiven] at follows
      obtain ⟨modification, isImplicit⟩ := follows
      have same : noteRest.timeModification = modification := by
        rw [isTiming] at isImplicit
        exact congrArg Prod.fst (Option.some.inj isImplicit)
      rw [same]
      exact timed.state.implicit note.handle modification isImplicit
    · rw [isGiven, isTiming] at follows
      exact congrArg Prod.fst (Option.some.inj follows)

end Moment

/--
Nested tuplets multiply.  At every moment of an analysis a note or rest whose
element gives no modification has the product of those of all its tuplets, and one
whose element gives a modification has exactly that, from the moment when it is
applied.
-/
theorem lasts_analyseSource
    (source file : String) {model : Model}
    (accepted : (analyseSource source file).result = .ok model) :
    ∃ root, (Node.read (Token.lex source file)).result = .ok root ∧
      Moment.start.Leads root model ∧
      ∀ moment : Moment, moment.Leads root model →
        ∀ handle noteRest, moment.model.noteRest? handle = some noteRest →
          ∃ note ∈ moment.written, note.handle = handle ∧
            note.node ∈ root.nodes ∧ moment.Lasts note noteRest := by
  obtain ⟨root, last, isTree, isLast⟩ := Moment.exists_last_of_accepted accepted
  refine ⟨root, isTree, isLast.leads.start, fun moment leads handle noteRest found => ?_⟩
  have isNoteRest : moment.model.IsNoteRest handle := by
    rw [Model.IsNoteRest, found]
    rfl
  obtain ⟨note, listed, rfl⟩ :=
    List.mem_map.mp ((leads.1.recorded.notes handle).mp isNoteRest)
  exact ⟨note, listed, rfl, leads.mem_nodes listed,
    leads.1.timed.lasts listed found⟩

/-- A triplet inside a triplet, and at its end a rest with a modification of its
own. -/
theorem lasts_nested_triplets :
    ∃ model root,
      (analyseSource
        ("(score (vers 2.0) (instrument (musicData (n c4 e (t 1 + 3 2))" ++
          "(n c4 e (t 2 + 3 2)) (n c4 e (t 2 -)) (r e (tm 1 1) (t 1 -)))))")
        "").result = .ok model ∧
      (model.timing? 4 = some (some ⟨4, 9⟩, false) ∧
        model.timing? 7 = some (some ⟨1, 1⟩, true) ∧
        model.modificationsOf 7 = [⟨2, 3⟩]) ∧
      ∀ moment : Moment, moment.Leads root model →
        ∀ handle noteRest, moment.model.noteRest? handle = some noteRest →
          ∃ note ∈ moment.written, note.handle = handle ∧
            note.node ∈ root.nodes ∧ moment.Lasts note noteRest := by
  obtain ⟨model, accepted, checked⟩ := exists_model_of_any
    (fun model => model.timing? 4 = some (some ⟨4, 9⟩, false) ∧
      model.timing? 7 = some (some ⟨1, 1⟩, true) ∧
      model.modificationsOf 7 = [⟨2, 3⟩]) (by decide +kernel :
        (analyseSource
          ("(score (vers 2.0) (instrument (musicData (n c4 e (t 1 + 3 2))" ++
            "(n c4 e (t 2 + 3 2)) (n c4 e (t 2 -)) (r e (tm 1 1) (t 1 -)))))")
          "").result.toOption.any _)
  obtain ⟨root, _, _, lasts⟩ := lasts_analyseSource _ _ accepted
  exact ⟨model, root, accepted, of_decide_eq_true checked, lasts⟩

end LdpScore
