import LdpScore.Proofs.Relation.Curve
import LdpScore.Proofs.Relation.Group
import LdpScore.Proofs.Score.Ids

/-!
# Adding a descriptor is all or nothing

A descriptor that is added to those that wait is refused, or it waits too, or it
ends their wait.  In the last case they are linked; only ties can be dropped
instead.  `Gives` says what each of the four verdicts comes to, down to every
object of the model, and `existsUnique_verdict` that there is exactly one.

Nothing is supposed about those that wait: an object may even be in a chain more
than once.  Then it joins the tuplet of the chain more than once, and its duration
is modified each time.  `Content.markedBy` therefore goes by memberships, where
`Content.effectOn` goes by objects.
-/

namespace LdpScore

/-! ## Marks of memberships -/

/-- The roles of an object among some members. -/
def rolesAmong (members : Members) (handle : Handle) : List Role :=
  (members.filter fun entry => entry.1 == handle).map Prod.snd

theorem rolesAmong_append
    (members : Members) (member : Handle) (role : Role) (handle : Handle) :
    rolesAmong (members ++ [(member, role)]) handle =
      rolesAmong members handle ++ if handle = member then [role] else [] := by
  rw [rolesAmong, List.filter_append, List.map_append, ← rolesAmong]
  by_cases isMember : handle = member
  · simp [isMember]
  · simp [isMember, Ne.symm isMember]

namespace Content

/-- What a numbered relation makes of an object that joins it in a role. -/
def mark (content : Content) (relation : Handle) (old : Content) : Role → Content
  | .tie true _ => old.mapNote fun note => { note with tieNext := some relation }
  | .tie false _ =>
      old.mapNote fun note => { note with tiePrevious := some relation }
  | .tuplet =>
      match content with
      | .tuplet actual normal _ _ _ =>
          old.mapNoteRest (Tuplet.modify ⟨normal, actual⟩)
      | _ => old
  | _ => old

/-- What a numbered relation with some members makes of the object at a handle. -/
def markedAmong
    (content : Content) (relation : Handle) (members : Members)
    (handle : Handle) (old : Content) :
    Content :=
  (rolesAmong members handle).foldl (content.mark relation) old

/-- What a numbered relation makes of the object at a handle: one mark for each of
its memberships. -/
def markedBy
    (content : Content) (relation handle : Handle) (old : Content) : Content :=
  content.markedAmong relation (content.members?.getD []) handle old

/-- Slurs and beams leave no marks. -/
theorem markedBy_of_plain
    {content : Content} {relation : Handle}
    (plain : ∀ entry ∈ content.members?.getD [], ∀ old,
      content.mark relation old entry.2 = old)
    (handle : Handle) (old : Content) :
    content.markedBy relation handle old = old := by
  rw [markedBy, markedAmong, rolesAmong, List.foldl_map]
  have plainHere : ∀ entry ∈ (content.members?.getD []).filter
      (fun entry => entry.1 == handle), ∀ old,
        content.mark relation old entry.2 = old :=
    fun entry listed => plain entry (List.mem_filter.mp listed).1
  generalize (content.members?.getD []).filter
    (fun entry => entry.1 == handle) = entries at plainHere
  induction entries with
  | nil => rfl
  | cons entry rest induction =>
      rw [List.foldl_cons, plainHere entry (List.mem_cons_self ..)]
      exact induction fun other listed =>
        plainHere other (List.mem_cons_of_mem _ listed)

/-- The ends of a tie have the marks of its two memberships. -/
theorem markedBy_tie
    (number : Int) (color : Option Color) (start finish : Tie.End)
    (relation handle : Handle) (old : Content) :
    (tie number color
        [(start.note, .tie true start.bezier),
          (finish.note, .tie false finish.bezier)]).markedBy relation handle old =
      (tie number color
        [(start.note, .tie true start.bezier),
          (finish.note, .tie false finish.bezier)]).effectOn relation handle old := by
  rw [effectOn_tie, markedBy, markedAmong, rolesAmong]
  by_cases isStart : handle = start.note
  · by_cases isFinish : handle = finish.note
    · have same : start.note = finish.note := isStart.symm.trans isFinish
      simp [members?, isFinish, same, mark]
    · have differs : finish.note ≠ start.note := fun same =>
        isFinish (isStart.trans same.symm)
      simp [members?, isStart, differs, differs.symm, mark]
  · by_cases isFinish : handle = finish.note
    · have differs : start.note ≠ finish.note := fun same =>
        isStart (isFinish.trans same.symm)
      simp [members?, isFinish, differs, differs.symm, mark]
    · simp [members?, isStart, isFinish, Ne.symm isStart, Ne.symm isFinish]

end Content

/-! ## One relation more -/

/-- A relation was created under a generated id, all of its members joined it, and
nothing else was done. -/
structure Draft.Gains (content : Content) (before after : Draft) : Prop where
  ids : after.ids = before.ids.next.2
  diagnostics : after.diagnostics = before.diagnostics
  root : after.model.root = before.model.root
  get? : ∀ handle, after.model.get? handle =
    if handle = before.model.size then
      some { id := before.ids.next.1, content := content }
    else
      (before.model.get? handle).map fun object =>
        { object with
          content :=
            content.markedBy before.model.size handle object.content
          relations :=
            object.relations ++
              List.replicate (content.memberHandles.count handle)
                before.model.size }

/-- Where every object is a member once, its marks are the effect that a relation has
on it. -/
theorem Draft.Creates.gains
    {content : Content} {before after : Draft}
    (created : before.Creates content after)
    (same : ∀ handle old, content.markedBy before.model.size handle old =
      content.effectOn before.model.size handle old) :
    before.Gains content after := by
  refine ⟨created.ids, created.diagnostics, created.root, fun handle => ?_⟩
  rw [created.get? handle]
  simp only [same]

theorem Draft.Gains.size
    {content : Content} {before after : Draft}
    (gains : before.Gains content after) :
    after.model.size = before.model.size + 1 :=
  Model.size_of_get? gains.get?

/-- One more member joins and is marked. -/
theorem Model.Enrolls.join_mark
    {content : Content} {relation member : Handle} {members earlier : Members}
    {before after : Model}
    (enrolled : Enrolls relation members (content.markedAmong relation members)
      before after)
    (related : before.members? relation = some earlier)
    (other : member ≠ relation) (role : Role) :
    Enrolls relation (members ++ [(member, role)])
      (content.markedAmong relation (members ++ [(member, role)])) before
      ((after.includeMember relation member role).modifyContent member
        fun old => content.mark relation old role) := by
  refine ((enrolled.join related member role).modifyContent other _).congr ?_
  intro handle old
  rw [Content.markedAmong, Content.markedAmong, rolesAmong_append,
    List.foldl_append]
  split <;> rfl

namespace Tuplet

/-- The notes and rests of a chain join a tuplet, some of them perhaps more than
once. -/
theorem enrolls_foldl_mark
    {actual normal : Nat} {bracket : YesNo} {display : NumberDisplay}
    {members : Members} {tuplet : Handle} {chain : List TupletPoint}
    {earlier : Members} {before after : Model}
    (enrolled : Model.Enrolls tuplet earlier
      ((Content.tuplet actual normal bracket display members).markedAmong tuplet
        earlier) before after)
    (related : before.members? tuplet = some [])
    (others : ∀ point ∈ chain, point.noteRest ≠ tuplet) :
    Model.Enrolls tuplet (earlier ++ chain.map entry)
      ((Content.tuplet actual normal bracket display members).markedAmong tuplet
        (earlier ++ chain.map entry)) before
      (chain.foldl
        (fun model point =>
          (model.includeMember tuplet point.noteRest .tuplet).modifyNoteRest
            point.noteRest (modify ⟨normal, actual⟩))
        after) := by
  induction chain generalizing earlier after with
  | nil => simpa using enrolled
  | cons point rest induction =>
      have joined := enrolled.join_mark related
        (others point (List.mem_cons_self ..)) .tuplet
      have finished := induction joined fun other listed =>
        others other (List.mem_cons_of_mem _ listed)
      rw [List.append_assoc] at finished
      exact finished

/-- A chain becomes a tuplet, whichever objects are in it. -/
theorem gains_linkChain
    {start : TupletPoint} {rest : List TupletPoint} {draft : Draft}
    (old : ∀ point ∈ start :: rest, point.noteRest < draft.model.size) :
    draft.Gains
      (.tuplet start.actual start.normal start.bracket start.display
        ((start :: rest).map entry))
      (linkChain (start :: rest) draft) := by
  have joined :
      linkChain (start :: rest) draft =
        (draft.create (.tuplet start.actual start.normal start.bracket
          start.display [])).2.mapModel fun model =>
            (start :: rest).foldl
              (fun model point =>
                (model.includeMember draft.model.size point.noteRest
                  .tuplet).modifyNoteRest point.noteRest
                    (modify start.modification))
              model := by
    rw [← Draft.foldl_mapModel]
    rfl
  have enrolled : Model.Enrolls draft.model.size ((start :: rest).map entry)
      ((Content.tuplet start.actual start.normal start.bracket start.display
        ((start :: rest).map entry)).markedBy draft.model.size)
      (draft.create (.tuplet start.actual start.normal start.bracket
        start.display [])).2.model (linkChain (start :: rest) draft).model := by
    rw [joined]
    exact enrolls_foldl_mark (Model.Enrolls.none _ draft.model.size)
      (draft.members?_create (.tuplet start.actual start.normal start.bracket
        start.display []))
      fun point isPoint => Nat.ne_of_lt (old point isPoint)
  refine ⟨?_, ?_, enrolled.root, ?_⟩
  · rw [joined]
    rfl
  · rw [joined]
    rfl
  · refine Draft.get?_of_enrolls (.tuplet start.actual start.normal start.bracket
      start.display []) ((start :: rest).map entry) rfl ?_ enrolled
    intro member listed
    obtain ⟨point, isPoint, rfl⟩ := List.mem_map.mp listed
    exact old point isPoint

end Tuplet

/-! ## Verdicts -/

/-- What becomes of a descriptor that is added. -/
inductive Verdict where
  | refused
  | waits
  | linked
  | dropped
deriving DecidableEq, Repr

namespace Pairing

variable {Point : Type} [Descriptor Point]

/-- A relation of some kind was made of a chain. -/
structure Forms
    (relation : PairedRelation) (chain : List Handle) (last : Handle)
    (content : Content) (before after : Draft) : Prop where
  gains : before.Gains content after
  named : content.name = relation.word
  listed : content.memberHandles.Sublist chain
  /-- There is a member: the object that ends the wait. -/
  ends : last ∈ content.memberHandles

/-- What a verdict comes to: who waits afterwards, and what the score has become.
The ids are those that have been handed out before. -/
inductive Gives
    (relation : PairedRelation) (ids : List Int) (pending : List Point)
    (point : Point) (before : Draft) :
    Verdict → List Point × Draft → Prop where
  /-- There is one report, and nothing else changes. -/
  | refused (problem : Problem) :
      Gives relation ids pending point before .refused
        (pending, before.report (location point) problem)
  /-- One more descriptor waits, and nothing else changes. -/
  | waits :
      Gives relation ids pending point before .waits (pending ++ [point], before)
  /-- The descriptors with the number wait no longer, and one relation is made of
  them, under an id that is new. -/
  | linked (content : Content) (after : Draft)
      (someWait : ∃ other ∈ pending, number other = number point)
      (forms : Forms relation
        ((pending.filter (sameNumber point) ++ [point]).map member)
        (member point) content before after)
      (isNew : before.ids.next.1 ∉ ids)
      (tracks : after.ids.Tracks (ids ++ [before.ids.next.1])) :
      Gives relation ids pending point before .linked
        (pending.filter fun other => !sameNumber point other, after)
  /-- The descriptors with the number of a tie wait no longer, and there is one
  report instead of a tie. -/
  | dropped (problem : Problem) (isTie : relation = .tie)
      (someWait : ∃ other ∈ pending, number other = number point) :
      Gives relation ids pending point before .dropped
        (pending.filter fun other => !sameNumber point other,
          before.report (location point) problem)

/-! ## One verdict and no other -/

namespace Gives

variable {relation : PairedRelation} {ids : List Int} {pending : List Point}
variable {point : Point} {before : Draft} {result : List Point × Draft}
variable {first second : Verdict}

/-- Some descriptor waits no longer. -/
theorem filter_ne
    (someWait : ∃ other ∈ pending, number other = number point) :
    (pending.filter fun other => !sameNumber point other) ≠ pending := by
  intro same
  obtain ⟨other, waits, equal⟩ := someWait
  have kept := List.filter_eq_self.mp same other waits
  simp [sameNumber, equal] at kept

/-- Only a descriptor that is refused leaves all as they wait. -/
theorem refused_iff (gives : Gives relation ids pending point before first result) :
    first = .refused ↔ result.1 = pending := by
  cases gives with
  | refused problem => exact iff_of_true rfl rfl
  | waits => exact iff_of_false nofun (by simp)
  | linked content after someWait => exact iff_of_false nofun (filter_ne someWait)
  | dropped problem isTie someWait => exact iff_of_false nofun (filter_ne someWait)

/-- Only a descriptor that is linked makes the model larger. -/
theorem linked_iff (gives : Gives relation ids pending point before first result) :
    first = .linked ↔ result.2.model.size ≠ before.model.size := by
  cases gives with
  | refused problem => exact iff_of_false nofun fun differs => differs rfl
  | waits => exact iff_of_false nofun fun differs => differs rfl
  | linked content after someWait forms =>
      exact iff_of_true rfl (forms.gains.size ▸ Nat.succ_ne_self _)
  | dropped problem => exact iff_of_false nofun fun differs => differs rfl

/-- A descriptor that waits or is linked is not reported. -/
theorem reported_iff (gives : Gives relation ids pending point before first result) :
    first = .refused ∨ first = .dropped ↔
      result.2.diagnostics.size ≠ before.diagnostics.size := by
  cases gives with
  | refused problem =>
      exact iff_of_true (.inl rfl) (by simp [Draft.report])
  | waits => exact iff_of_false (by simp) fun differs => differs rfl
  | linked content after someWait forms =>
      exact iff_of_false (by simp) fun differs =>
        differs (congrArg Array.size forms.gains.diagnostics)
  | dropped problem =>
      exact iff_of_true (.inr rfl) (by simp [Draft.report])

theorem unique
    (isFirst : Gives relation ids pending point before first result)
    (isSecond : Gives relation ids pending point before second result) :
    first = second := by
  have refused := isFirst.refused_iff.trans isSecond.refused_iff.symm
  have linked := isFirst.linked_iff.trans isSecond.linked_iff.symm
  have reported := isFirst.reported_iff.trans isSecond.reported_iff.symm
  revert refused linked reported
  cases first <;> cases second <;> simp

end Gives

section Adding

variable {relation : PairedRelation} {ids : List Int} {draft : Draft}
variable {link : List Point → Draft → Draft}

/-- A builder comes to a verdict if it makes a relation of the chain of a stop, or
drops it with a report. -/
theorem existsUnique_gives_settleWith
    (tracks : draft.ids.Tracks ids) {pending : List Point} {point : Point}
    (links : ∀ front : List Point, front ≠ [] → front.Sublist pending →
      phase point = .stop →
        (∃ content, Forms relation ((front ++ [point]).map member) (member point)
          content draft (link (front ++ [point]) draft)) ∨
        (relation = .tie ∧ ∃ problem,
          link (front ++ [point]) draft = draft.report (location point) problem)) :
    ∃! verdict, Gives relation ids pending point draft verdict
      (settleWith link relation pending point draft) := by
  refine existsUnique_of_exists_of_unique ?_ fun _ _ => Gives.unique
  rcases offer_cases pending point with
    ⟨reason, rejected⟩ | ⟨waits, _⟩ | ⟨complete, _, someWait⟩
  · rw [settleWith_of_rejected link relation draft rejected]
    exact ⟨.refused, .refused _⟩
  · rw [settleWith_of_waiting link relation draft waits]
    exact ⟨.waits, .waits⟩
  · rw [settleWith_of_complete link relation draft complete]
    have others : ∃ other ∈ pending, number other = number point := by
      obtain ⟨other, waits⟩ := List.exists_mem_of_ne_nil _ someWait
      exact ⟨other, (List.mem_filter.mp waits).1,
        beq_iff_eq.mp (List.mem_filter.mp waits).2⟩
    rcases links _ someWait List.filter_sublist (phase_of_complete complete) with
      ⟨content, forms⟩ | ⟨isTie, problem, dropped⟩
    · obtain ⟨isNew, _, tracksNext⟩ := tracks.next
      exact ⟨.linked, .linked content _ others forms isNew
        (forms.gains.ids ▸ tracksNext)⟩
    · rw [dropped]
      exact ⟨.dropped, .dropped problem isTie others⟩

end Adding

end Pairing

/-! ## The four builders -/

/-- A chain becomes a tie of its ends, or it is reported where it stops. -/
theorem Tie.linkChain_append
    (start : TiePoint) (front : List TiePoint) (point : TiePoint) (draft : Draft) :
    linkChain (start :: front ++ [point]) draft =
      if canTie draft.model start.note point.note then
        link ⟨start.note, start.bezier⟩ ⟨point.note, point.bezier⟩
          (some start.number) start.color draft
      else draft.report point.location (.incompatibleTie point.number) := by
  cases front with
  | nil => rfl
  | cons next rest => simp [linkChain]

/-- A chain of ties becomes a tie of its ends, or it is dropped. -/
theorem Tie.forms_linkChain
    {front : List TiePoint} {point : TiePoint} {draft : Draft}
    (someWait : front ≠ [])
    (old : ∀ other ∈ front ++ [point], other.note < draft.model.size) :
    (∃ content, Pairing.Forms .tie ((front ++ [point]).map Pairing.member)
        (Pairing.member point) content draft
        (linkChain (front ++ [point]) draft)) ∨
      ∃ problem, linkChain (front ++ [point]) draft =
        draft.report (Pairing.location point) problem := by
  obtain ⟨start, rest, rfl⟩ := List.exists_cons_of_ne_nil someWait
  rw [linkChain_append]
  split
  · have startsIn : (End.mk start.note start.bezier).note < draft.model.size :=
      old start (by simp)
    have endsIn : (End.mk point.note point.bezier).note < draft.model.size :=
      old point (by simp)
    obtain ⟨tieNumber, _, created⟩ :=
      creates_link startsIn endsIn (some start.number) start.color
    refine .inl ⟨_, created.gains fun _ _ => Content.markedBy_tie .., rfl, ?_, ?_⟩
    · show [start.note, point.note].Sublist
        (start.note :: (rest ++ [point]).map Pairing.member)
      rw [List.map_append]
      exact (List.sublist_append_right _ _).cons_cons _
    · exact List.mem_cons_of_mem _ (List.mem_singleton_self _)
  · exact .inr ⟨_, rfl⟩

/-- A chain of slurs becomes a slur that has the note where it stops. -/
theorem Slur.forms_linkChain
    {front : List SlurPoint} {point : SlurPoint} {draft : Draft}
    (isStop : point.phase = .stop)
    (old : ∀ other ∈ front ++ [point], other.note < draft.model.size) :
    ∃ content, Pairing.Forms .slur ((front ++ [point]).map Pairing.member)
      (Pairing.member point) content draft (linkChain (front ++ [point]) draft) := by
  obtain ⟨start, isStart⟩ : ∃ start, (front ++ [point]).head? = some start := by
    cases front <;> exact ⟨_, rfl⟩
  have created := creates_linkChain isStart List.getLast?_concat old
  have isEntry : inclusion? point = some (point.note, .slur false point.bezier) := by
    rw [inclusion?, isStop]
  refine ⟨_, created.gains fun handle content => ?_, rfl, sublist_entries _, ?_⟩
  · refine Content.markedBy_of_plain (fun entry listed content => ?_) handle content
    obtain ⟨other, _, isOther⟩ := List.mem_filterMap.mp listed
    obtain ⟨_, _, role⟩ := (inclusion?_fst isOther).2
    rw [role]
    rfl
  · exact List.mem_map_of_mem
      (List.mem_filterMap.mpr ⟨point, by simp, isEntry⟩)

theorem Beam.forms_linkChain
    {front : List BeamPoint} {point : BeamPoint} {draft : Draft}
    (old : ∀ other ∈ front ++ [point], other.noteRest < draft.model.size)
    (isAutomatic : Bool) :
    ∃ content, Pairing.Forms .beam ((front ++ [point]).map Pairing.member)
      (Pairing.member point) content draft
      (linkChain (front ++ [point]) isAutomatic draft) := by
  obtain ⟨members, same, areBeams, created⟩ :=
    exists_creates_linkChain old isAutomatic
  refine ⟨_, created.gains fun handle content => ?_, rfl, ?_, ?_⟩
  · refine Content.markedBy_of_plain (fun entry listed content => ?_) handle content
    obtain ⟨_, role⟩ := areBeams entry listed
    rw [role]
    rfl
  · exact same ▸ List.Sublist.refl _
  · show point.noteRest ∈ members.map Prod.fst
    rw [same]
    exact List.mem_map_of_mem (by simp)

theorem Tuplet.forms_linkChain
    {front : List TupletPoint} {point : TupletPoint} {draft : Draft}
    (someWait : front ≠ [])
    (old : ∀ other ∈ front ++ [point], other.noteRest < draft.model.size) :
    ∃ content, Pairing.Forms .tuplet ((front ++ [point]).map Pairing.member)
      (Pairing.member point) content draft (linkChain (front ++ [point]) draft) := by
  obtain ⟨start, rest, rfl⟩ := List.exists_cons_of_ne_nil someWait
  have same := map_fst_entries (start :: rest ++ [point])
  refine ⟨_, gains_linkChain old, rfl, ?_, ?_⟩
  · exact same ▸ List.Sublist.refl _
  · show Pairing.member point ∈ ((start :: rest ++ [point]).map entry).map Prod.fst
    rw [same]
    exact List.mem_map_of_mem (by simp)

/-- A descriptor that is added to any of the four builders is refused, or it waits,
or it is linked with those of its number, or, if it is one of a tie, they are all
dropped.  It is exactly one of these, whoever waits and whatever stands in the model,
if only the objects of the descriptors do. -/
theorem existsUnique_verdict
    {draft : Draft} {ids : List Int} (tracks : draft.ids.Tracks ids) :
    (∀ pending point,
      (∀ other ∈ pending ++ [point], other.note < draft.model.size) →
        ∃! verdict, Pairing.Gives .tie ids pending point draft verdict
          (Tie.add pending point draft)) ∧
    (∀ pending point,
      (∀ other ∈ pending ++ [point], other.note < draft.model.size) →
        ∃! verdict, Pairing.Gives .slur ids pending point draft verdict
          (Slur.add pending point draft)) ∧
    (∀ pending point,
      (∀ other ∈ pending ++ [point], other.noteRest < draft.model.size) →
        ∃! verdict, Pairing.Gives .beam ids pending point draft verdict
          (Beam.add pending point draft)) ∧
    ∀ pending point,
      (∀ other ∈ pending ++ [point], other.noteRest < draft.model.size) →
        ∃! verdict, Pairing.Gives .tuplet ids pending point draft verdict
          (Tuplet.add pending point draft) := by
  refine ⟨?_, ?_, ?_, ?_⟩
  all_goals intro pending point inside
  · rw [Tie.add_eq_settleWith]
    refine Pairing.existsUnique_gives_settleWith tracks
      fun front someWait part isStop => ?_
    exact (Tie.forms_linkChain someWait fun other listed =>
      inside other ((part.append_right _).subset listed)).imp_right fun dropped =>
        ⟨rfl, dropped⟩
  · rw [Slur.add_eq_settleWith]
    refine Pairing.existsUnique_gives_settleWith tracks
      fun front someWait part isStop => .inl ?_
    exact Slur.forms_linkChain isStop fun other listed =>
      inside other ((part.append_right _).subset listed)
  · rw [Beam.add_eq_settleWith]
    refine Pairing.existsUnique_gives_settleWith tracks
      fun front someWait part isStop => .inl ?_
    exact Beam.forms_linkChain (fun other listed =>
      inside other ((part.append_right _).subset listed)) _
  · rw [Tuplet.add_eq_settleWith]
    refine Pairing.existsUnique_gives_settleWith tracks
      fun front someWait part isStop => .inl ?_
    exact Tuplet.forms_linkChain someWait fun other listed =>
      inside other ((part.append_right _).subset listed)

/-- A note and a rest, with the ids that they have been given. -/
def noteAndRest : Draft :=
  ((({} : Draft).create (.note ⟨⟨⟨.quarter, 0⟩, 1, 0, none, false, {}⟩, none, .default,
    none, none, none⟩)).2.create (.rest ⟨⟨.quarter, 0⟩, 1, 0, none, false, {}⟩)).2

/-- A tie that stops on a rest, and a tuplet that has the note before it twice. -/
theorem existsUnique_verdict_at_rest :
    (noteAndRest.ids.Tracks [0, 1] ∧
        (∃! verdict, Pairing.Gives .tie [0, 1]
          [⟨1, true, none, none, 0, .nowhere⟩] ⟨1, false, none, none, 1, .nowhere⟩
          noteAndRest verdict
          (Tie.add [⟨1, true, none, none, 0, .nowhere⟩]
            ⟨1, false, none, none, 1, .nowhere⟩ noteAndRest))) ∧
      ∃! verdict, Pairing.Gives .tuplet [0, 1]
        [⟨1, .start, 3, 2, .default, .actual, 0, .nowhere⟩,
          ⟨1, .continue, 3, 2, .default, .actual, 0, .nowhere⟩]
        ⟨1, .stop, 3, 2, .default, .actual, 1, .nowhere⟩ noteAndRest verdict
        (Tuplet.add
          [⟨1, .start, 3, 2, .default, .actual, 0, .nowhere⟩,
            ⟨1, .continue, 3, 2, .default, .actual, 0, .nowhere⟩]
          ⟨1, .stop, 3, 2, .default, .actual, 1, .nowhere⟩ noteAndRest) := by
  have tracks : noteAndRest.ids.Tracks [0, 1] :=
    IdPool.tracks_empty.next.2.2.next.2.2
  obtain ⟨ties, _, _, tuplets⟩ := existsUnique_verdict tracks
  exact ⟨⟨tracks, ties _ _ (by decide)⟩, tuplets _ _ (by decide)⟩

end LdpScore
