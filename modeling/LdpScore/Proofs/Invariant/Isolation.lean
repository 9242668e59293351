import LdpScore.Proofs.Analysis.Replaying
import LdpScore.Proofs.Analysis.Run

/-!
# Instruments are isolated

Nothing is carried from one instrument into the next but the score version and how
tuplets are shown.  Whatever was analysed before, the same instrument becomes the
same `Music`: objects that refer to each other in the same way, and reports.

The analysis of an instrument is compared with one that starts from an empty
model, step by step.  When both start, everything that the steps below can refer
to is new.
-/

namespace LdpScore

/-- What is carried from one instrument into the next: the score version and how
tuplets are shown. -/
def Context.carried (context : Context) : Nat × YesNo × NumberDisplay :=
  (context.version, context.tupletBracket, context.tupletNumber)

/-- A tie is numbered after an id; any other object stays as it is. -/
def Content.renumber (id : Int) : Content → Content
  | .tie _ color members => .tie (Tie.numberOfId id) color members
  | other => other

/-- What an instrument adds to a score. -/
structure Music where
  /-- The new objects in the order of their creation, first the instrument.  They
  refer to each other by their places here; their ids do not matter. -/
  objects : List Object
  /-- Whether an object is a legacy tie, which is numbered after its id. -/
  isLegacyTie : Handle → Bool
  /-- What is reported, apart from taken ids. -/
  reports : List Diagnostic

/-- An object of some music as it is when `base` objects come before the music,
and the instrument stands below the anchor. -/
def Music.place
    (music : Music) (base : Handle) (anchor : Option Handle) (handle : Handle)
    (id : Int) (object : Object) : Object where
  id := id
  content :=
    (if music.isLegacyTie handle then object.content.renumber id
      else object.content).shift base
  parent :=
    if handle = 0 then anchor else object.parent.map (base + ·)
  children := object.children.map (base + ·)
  relations := object.relations.map (base + ·)

/-- An analysis adds some music, below an anchor if there is one.  The objects
that were there before stay as they were, but the instrument becomes the last
child of its anchor; and after what was reported before come reports of what was
open before, and then those of the music. -/
structure Music.IsPlayed
    (music : Music) (anchor : Option Handle) (before after : Analysis) :
    Prop where
  size : after.draft.model.size =
    before.draft.model.size + music.objects.length
  earlier : ∀ handle object,
    before.draft.model.get? handle = some object →
      after.draft.model.get? handle = some
        { object with
          children :=
            if anchor = some handle then
              object.children ++ [before.draft.model.size]
            else object.children }
  later : ∀ handle object, music.objects[handle]? = some object →
    ∃ id, after.draft.model.get? (before.draft.model.size + handle) =
      some (music.place before.draft.model.size anchor handle id object)
  reports : after.draft.remarks =
    (before.pending.reportAll before.draft).remarks ++ music.reports

namespace Content.Echoes

variable {base : Handle} {id other : Int} {alone within : Content}

/-- Under the same id everything is the same. -/
theorem eq_shift
    (echoes : Echoes base id other alone within) (sameId : other = id) :
    within = alone.shift base := by
  cases echoes with
  | shifted => rfl
  | numbered =>
      rw [sameId]
      rfl

/-- What differs further on is the number of a tie that is numbered after its
id. -/
theorem eq_renumber
    (echoes : Echoes base id other alone within)
    (differs : within ≠ alone.shift base) :
    alone.renumber id = alone ∧
      within = (alone.renumber other).shift base := by
  cases echoes with
  | shifted => exact absurd rfl differs
  | numbered => exact ⟨rfl, rfl⟩

end Content.Echoes

namespace Analysis

/-- Where an instrument comes to stand that is analysed next. -/
def site
    (before : Analysis) (anchor : Option Handle) (sharesIds : Prop) :
    Site where
  base := before.draft.model.size
  anchor := anchor
  earlier handle := (before.draft.model.get? handle).map fun object =>
    { object with
      children :=
        if anchor = some handle then
          object.children ++ [before.draft.model.size]
        else object.children }
  reports := (before.pending.reportAll before.draft).remarks
  sharesIds := sharesIds

/-- An analysis of an instrument alone that has the same settings and ids. -/
def alone (before : Analysis) : Analysis where
  draft := { ids := before.draft.ids }
  context :=
    { version := before.context.version
      tupletBracket := before.context.tupletBracket
      tupletNumber := before.context.tupletNumber }

/-- The state when an instrument has been added and nothing of it has been read. -/
def started
    (before : Analysis) (node : Node) (anchor : Option Handle) : Analysis where
  draft := ((before.pending.reportAll before.draft).addObject node.id?
    node.location anchor (.instrument none none 1)).2
  context := before.context.startInstrument
  pending := {}

/-- The state after an instrument has been analysed. -/
def afterInstrument
    (before : Analysis) (node : Node) (anchor : Option Handle) : Analysis :=
  ((Analyser.analyseInstrument node anchor).run before).run.2

/-- The state after an instrument has been analysed and what is still open has
been given up. -/
def withInstrument
    (before : Analysis) (node : Node) (anchor : Option Handle) : Analysis :=
  (Analyser.clearPending.run (before.afterInstrument node anchor)).run.2

variable {before other : Analysis} {anchor : Option Handle}

theorem withInstrument_eq
    (before : Analysis) (node : Node) (anchor : Option Handle) :
    before.withInstrument node anchor =
      ((do
        Analyser.instrumentBody node before.draft.model.size
        Analyser.clearPending : Analyser Unit).run
          (before.started node anchor)).run.2 := by
  have isNew := Draft.addObject_fst (before.pending.reportAll before.draft)
    node.id? node.location anchor (.instrument none none 1)
  rw [(before.pending.silent_reportAll before.draft).model] at isNew
  rw [← isNew]
  rfl

section Started

variable (before : Analysis) (node : Node)

theorem size_started :
    (before.started node anchor).draft.model.size =
      before.draft.model.size + 1 := by
  rw [started, Draft.size_addObject,
    (before.pending.silent_reportAll before.draft).model]

theorem ids_started :
    (before.started node anchor).draft.ids =
      (before.draft.ids.assign node.id?).2 := by
  rw [started, Draft.ids_addObject,
    (before.pending.silent_reportAll before.draft).ids]

/-- An instrument starts as a new object, the last child of its anchor. -/
theorem get?_started
    (anchored : before.draft.model.HasAnchor anchor) (handle : Handle) :
    (before.started node anchor).draft.model.get? handle =
      if handle = before.draft.model.size then
        some {
          id := before.draft.nextId node.id?
          content := .instrument none none 1
          parent := anchor }
      else
        (before.draft.model.get? handle).map fun object =>
          { object with
            children :=
              if anchor = some handle then
                object.children ++ [before.draft.model.size]
              else object.children } := by
  have silent := before.pending.silent_reportAll before.draft
  have anchoredLater :
      (before.pending.reportAll before.draft).model.HasAnchor anchor := by
    rw [silent.model]
    exact anchored
  rw [started, Draft.get?_addObject _ _ _ anchoredLater, silent.model,
    Draft.nextId, silent.ids]
  rfl

end Started

/-- When an instrument starts, everything below it is still to come, and what is
carried on is the same. -/
theorem echoes_started
    (node : Node) (carried : before.context.carried = other.context.carried)
    (anchored : other.draft.model.HasAnchor anchor) {sharesIds : Prop}
    (ids : sharesIds → other.draft.ids = before.draft.ids) :
    Analysis.Echoes (other.site anchor sharesIds)
      (before.alone.started node none) (other.started node anchor) := by
  simp only [Context.carried, Prod.mk.injEq] at carried
  obtain ⟨version, bracket, number⟩ := carried
  have emptySize : before.alone.draft.model.size = 0 := rfl
  have sizeAlone : (before.alone.started node none).draft.model.size = 1 :=
    size_started before.alone node
  have size : (other.started node anchor).draft.model.size =
      other.draft.model.size + 1 := size_started other node
  have objectAlone := get?_started before.alone node
    (Model.hasAnchor_none before.alone.draft.model)
  have object := get?_started other node anchored
  refine ⟨⟨⟨?_, ?_, fun handle earlier => ?_, fun handle => ?_⟩, ?_,
    fun shares => ?_⟩, ⟨other.context.instruments + 1, ?_⟩, rfl⟩
  · rw [sizeAlone]
    exact Nat.one_pos
  · rw [sizeAlone, size]
    rfl
  · have old : handle ≠ other.draft.model.size := Nat.ne_of_lt earlier
    rw [object, if_neg old]
    rfl
  · rw [objectAlone, object, emptySize]
    by_cases isFirst : handle = 0
    · subst isFirst
      have isNew : (other.site anchor sharesIds).base + 0 =
          other.draft.model.size := rfl
      rw [if_pos rfl, if_pos isNew]
      refine .some ⟨.shifted (.instrument none none 1), rfl, rfl, rfl,
        fun shares => ?_⟩
      exact congrArg (fun pool : IdPool => (pool.assign node.id?).1.id)
        (ids shares)
    · have later : (other.site anchor sharesIds).base + handle ≠
          other.draft.model.size :=
        fun same => isFirst (Nat.add_eq_left.mp same)
      have outside : other.draft.model.get?
          ((other.site anchor sharesIds).base + handle) = none :=
        Model.get?_eq_none_iff.mpr (Nat.le_add_right _ _)
      rw [if_neg isFirst, if_neg later, outside]
      exact .none
  · rw [started, started, Draft.remarks_addObject, Draft.remarks_addObject]
    exact (List.append_nil _).symm
  · rw [ids_started, ids_started, ids shares]
    rfl
  · simp only [started, alone, Context.startInstrument, version, bracket,
      number]
    rfl

/-- An instrument that has been analysed is an echo of the instrument alone. -/
theorem echoes_withInstrument
    (node : Node) (carried : before.context.carried = other.context.carried)
    (anchored : other.draft.model.HasAnchor anchor) {sharesIds : Prop}
    (ids : sharesIds → other.draft.ids = before.draft.ids) :
    Analysis.Echoes (other.site anchor sharesIds)
      (before.alone.withInstrument node none)
      (other.withInstrument node anchor) := by
  rw [withInstrument_eq, withInstrument_eq]
  have body := @Analyser.matches_instrumentBody (other.site anchor sharesIds)
    node 0
  exact ((body.bind fun _ _ _ => Analyser.repeats_clearPending) _ _
    (echoes_started node carried anchored ids)).2

end Analysis

namespace Music

variable {music : Music} {before after alone : Analysis}
variable {anchor : Option Handle} {sharesIds : Prop}

/-- An echo of an instrument alone is played, if the right objects count as legacy
ties. -/
theorem isPlayed_of_echoes
    (echoes : Analysis.Echoes (before.site anchor sharesIds) alone after)
    (objects : music.objects = alone.draft.model.objects.toList)
    (reports : music.reports = alone.draft.remarks)
    (contents : ∀ handle object copy,
      alone.draft.model.get? handle = some object →
        after.draft.model.get? (before.draft.model.size + handle) =
            some copy →
          Content.Echoes before.draft.model.size object.id copy.id
            object.content copy.content →
          (sharesIds → copy.id = object.id) →
            copy.content = (music.place before.draft.model.size anchor handle
              copy.id object).content) :
    music.IsPlayed anchor before after := by
  have model := echoes.draft.model
  refine ⟨?_, fun handle object found => ?_, fun handle object found => ?_, ?_⟩
  · rw [objects, Array.length_toList]
    exact model.size
  · rw [model.earlier handle (Model.lt_size_of_get? found)]
    exact congrArg (Option.map _) found
  · rw [objects, Array.getElem?_toList] at found
    have known : alone.draft.model.get? handle = some object := found
    obtain ⟨copy, foundCopy, echo⟩ := model.exists_echo known
    have content := contents handle object copy known foundCopy echo.content
      echo.id
    refine ⟨copy.id, foundCopy.trans (congrArg some ?_)⟩
    obtain ⟨id, own, parent, children, relations⟩ := copy
    simp only [place, Object.mk.injEq, true_and]
    exact ⟨content, echo.parent, echo.children, echo.relations⟩
  · rw [reports]
    exact echoes.draft.remarks

end Music

/-- The same instrument adds the same music, whatever was analysed before. -/
theorem isolated_analyseInstrument
    (node : Node) (first second : Analysis) (anchor anchor' : Option Handle)
    (carried : first.context.carried = second.context.carried)
    (anchored : first.draft.model.HasAnchor anchor)
    (anchored' : second.draft.model.HasAnchor anchor') :
    ∃ music : Music,
      music.IsPlayed anchor first (first.withInstrument node anchor) ∧
        music.IsPlayed anchor' second
          (second.withInstrument node anchor') := by
  classical
  -- The instrument alone gets the ids that it gets in the first analysis, so there
  -- only the second one can differ in the number of a tie.
  have echoes : Analysis.Echoes (first.site anchor True) _ _ :=
    Analysis.echoes_withInstrument node rfl anchored fun _ => rfl
  have echoes' : Analysis.Echoes (second.site anchor' False) _ _ :=
    Analysis.echoes_withInstrument node carried anchored' False.elim
  generalize first.alone.withInstrument node none = alone at echoes echoes'
  let differs (handle : Handle) : Bool := decide (∃ object copy,
    alone.draft.model.get? handle = some object ∧
      (second.withInstrument node anchor').draft.model.get?
          (second.draft.model.size + handle) = some copy ∧
        copy.content ≠ object.content.shift second.draft.model.size)
  refine ⟨⟨alone.draft.model.objects.toList, differs, alone.draft.remarks⟩,
    Music.isPlayed_of_echoes echoes rfl rfl ?_,
    Music.isPlayed_of_echoes echoes' rfl rfl ?_⟩
  · intro handle object copy found foundCopy content sameId
    have shifted := content.eq_shift (sameId trivial)
    rw [Music.place]
    by_cases isLegacyTie : differs handle = true
    · obtain ⟨_, copy', found', foundCopy', isOther⟩ :=
        of_decide_eq_true isLegacyTie
      cases found.symm.trans found'
      obtain ⟨_, foundEcho, echo⟩ := echoes'.draft.model.exists_echo found
      cases foundCopy'.symm.trans foundEcho
      dsimp only
      rw [if_pos isLegacyTie, sameId trivial, (echo.content.eq_renumber isOther).1]
      exact shifted
    · dsimp only
      rw [if_neg isLegacyTie]
      exact shifted
  · intro handle object copy found foundCopy content _
    rw [Music.place]
    by_cases isLegacyTie : differs handle = true
    · obtain ⟨_, _, found', foundCopy', isOther⟩ :=
        of_decide_eq_true isLegacyTie
      cases found.symm.trans found'
      cases foundCopy.symm.trans foundCopy'
      dsimp only
      rw [if_pos isLegacyTie]
      exact (content.eq_renumber isOther).2
    · have same : copy.content =
          object.content.shift second.draft.model.size := by
        by_contra isOther
        exact isLegacyTie
          (decide_eq_true ⟨object, copy, found, foundCopy, isOther⟩)
      dsimp only
      rw [if_neg isLegacyTie]
      exact same

/-- Two notes with a legacy tie, at the start of a text and again below an
instrument whose last note has started another tie. -/
theorem isolated_after_open_tie :
    ∃ root,
      (Node.read
        (Token.lex "(instrument (musicData (n c4 q l) (n c4 q l)))" "")).result =
          .ok root ∧
      ((Analysis.afterInstrument {} root none).pending.legacyTie.isSome ∧
        (Analysis.afterInstrument {} root none).context.lastNote = some 3 ∧
        (Analysis.afterInstrument {} root none).draft.model.size = 5) ∧
      ∃ music : Music,
        music.IsPlayed none {} (Analysis.withInstrument {} root none) ∧
          music.IsPlayed (some 0) (Analysis.afterInstrument {} root none)
            ((Analysis.afterInstrument {} root none).withInstrument root
              (some 0)) := by
  obtain ⟨root, isTree, checked⟩ := exists_tree_of_any
    (fun root =>
      ((Analysis.afterInstrument {} root none).pending.legacyTie.isSome ∧
        (Analysis.afterInstrument {} root none).context.lastNote = some 3 ∧
        (Analysis.afterInstrument {} root none).draft.model.size = 5) ∧
      ({} : Analysis).context.carried =
        (Analysis.afterInstrument {} root none).context.carried)
    (by decide +kernel : (Node.read
      (Token.lex "(instrument (musicData (n c4 q l) (n c4 q l)))"
        "")).result.toOption.any _)
  obtain ⟨isOpen, carried⟩ := of_decide_eq_true checked
  have anchored : (Analysis.afterInstrument {} root none).draft.model.HasAnchor
      (some 0) := by
    refine Model.hasAnchor_some ?_
    rw [isOpen.2.2]
    exact Nat.succ_pos 4
  exact ⟨root, isTree, isOpen, isolated_analyseInstrument root {} _ none (some 0)
    carried (Model.hasAnchor_none _) anchored⟩

end LdpScore
