import LdpScore.Proofs.Relation.Group
import Mathlib.Data.List.Forall2
import Mathlib.Data.List.Induction

/-!
# The marks of a beam

At every level the notes of a beam fall into runs of notes that are beamed as deep
as that.  `WellBeamed` says how such a run is marked: it begins, continues and ends,
or if it is a single note it carries a hook.  Each mark is computed from a note and
its two neighbours alone, and `wellBeamed_marksOf` says that these choices always
fit together.

The marks are written back to every place where a note is listed, rests are passed over,
and `marksAnew_autobeam` says that nothing else is written and that nothing of it
matters for the marks themselves.
-/

namespace LdpScore.Autobeam

/-! ## Runs -/

/-- Whether the note at an index is beamed at a level. -/
def Reaches (depths : List Int) (level index : Nat) : Prop :=
  ∃ depth, depths[index]? = some depth ∧ (level : Int) ≤ depth

/-- All notes from `first` to `last` are beamed at a level, and neither the note
before them nor the note after them is. -/
structure IsRun (depths : List Int) (level first last : Nat) : Prop where
  ordered : first ≤ last
  reached : ∀ index, first ≤ index → index ≤ last → Reaches depths level index
  before : ∀ index, index + 1 = first → ¬ Reaches depths level index
  after : ¬ Reaches depths level (last + 1)

/-- The hook of a note that stands alone at a level.  Between two notes it points to
the one that is beamed deeper, and backward if neither is. -/
def hook (depths : List Int) (index : Nat) : BeamMark :=
  if index = 0 then .forward
  else if index + 1 = depths.length then .backward
  else if depths.getD (index - 1) (-1) < depths.getD (index + 1) (-1) then .forward
  else .backward

/-- The mark of the note at an index at one level. -/
def markAt
    (levels : List BeamLevels) (level : Fin maxBeamLevels) (index : Nat) :
    Option BeamMark :=
  levels[index]?.map fun marks => marks.get level

/-- Marks of the notes of a beam that are right at every level. -/
structure WellBeamed (depths : List Int) (levels : List BeamLevels) : Prop where
  length : levels.length = depths.length
  /-- A run of two or more notes begins, continues and ends. -/
  joined : ∀ (level : Fin maxBeamLevels) (first last : Nat),
    IsRun depths level first last → first < last →
    markAt levels level first = some .start ∧
      markAt levels level last = some .finish ∧
      ∀ index, first < index → index < last →
        markAt levels level index = some .continue
  /-- A run of one note is a hook. -/
  alone : ∀ (level : Fin maxBeamLevels) (index : Nat), IsRun depths level index index →
    markAt levels level index = some (hook depths index)
  unmarked : ∀ (level : Fin maxBeamLevels) (index : Nat), index < depths.length →
    ¬ Reaches depths level index → markAt levels level index = some .none

/-- Where a note is, it is beamed at a level or its depth is less. -/
theorem lt_of_not_reaches {depths : List Int} {level index : Nat} {depth : Int}
    (isDepth : depths[index]? = some depth)
    (shallow : ¬ Reaches depths level index) : depth < level :=
  Int.not_le.mp fun deep => shallow ⟨depth, isDepth, deep⟩

/-! ## The marks of one note -/

section Mark

variable {previous next : Option Int} {before current after : Int}

theorem length_marks (previous : Option Int) (current : Int) (next : Option Int)
    (count : Nat) : (marks previous current next count).length = count := by
  induction count with
  | zero => rfl
  | succ count induction => rw [marks, List.length_append, induction]; rfl

/-- The marks at the levels up to a number of them begin with those up to a smaller
number. -/
theorem marks_prefix (previous : Option Int) (current : Int) (next : Option Int)
    {level count : Nat} (lt : level < count) :
    ∃ deeper, marks previous current next count =
      marks previous current next level ++
        mark previous current next (marks previous current next level) level ::
          deeper := by
  induction count with
  | zero => cases lt
  | succ count induction =>
      rw [marks]
      rcases Nat.lt_succ_iff_lt_or_eq.mp lt with lt | rfl
      · obtain ⟨deeper, same⟩ := induction lt
        rw [same]
        exact ⟨deeper ++ [_], by rw [List.append_assoc, List.cons_append]⟩
      · exact ⟨[], rfl⟩

/-- The mark at a level depends on the levels before it only. -/
theorem get_ofList_marks
    (previous : Option Int) (current : Int) (next : Option Int)
    (level : Fin maxBeamLevels) :
    (BeamLevels.ofList (marks previous current next maxBeamLevels)).get level =
      mark previous current next (marks previous current next level) level := by
  obtain ⟨deeper, same⟩ := marks_prefix previous current next level.isLt
  show (BeamLevels.ofList (marks previous current next maxBeamLevels))[level.val] = _
  simp only [BeamLevels.ofList, Vector.getElem_ofFn]
  rw [List.getD_eq_getElem?_getD, same,
    List.getElem?_append_right (Nat.le_of_eq (length_marks ..)), length_marks,
    Nat.sub_self]
  rfl

/-- As long as all three notes are deep enough the beam continues. -/
theorem marks_eq_replicate {count : Nat}
    (deep : ∀ level < count, (level : Int) ≤ before ∧ (level : Int) ≤ current ∧
      (level : Int) ≤ after) :
    marks (some before) current (some after) count =
      List.replicate count .continue := by
  induction count with
  | zero => rfl
  | succ count induction =>
      obtain ⟨reachesBefore, reaches, reachesAfter⟩ := deep count (Nat.lt_succ_self count)
      rw [marks, induction fun level lt => deep level (Nat.lt_succ_of_lt lt),
        List.replicate_succ', mark, if_neg (Int.not_lt.mpr reaches)]
      simp only [if_neg (Int.not_lt.mpr reachesBefore),
        if_neg (Int.not_lt.mpr reachesAfter)]

theorem hookDirection_replicate_append (count : Nat) (deeper : List BeamMark) :
    hookDirection (List.replicate count .continue ++ deeper) =
      hookDirection deeper := by
  induction count with
  | zero => rfl
  | succ count induction => exact induction

/-- The hook of a note in the middle points to the deeper one of its neighbours. -/
theorem hookDirection_marks {level : Nat}
    (atLeastBefore : -1 ≤ before) (atLeastAfter : -1 ≤ after)
    (reaches : (level : Int) ≤ current)
    (ends : before < level) (begins : after < level) :
    hookDirection (marks (some before) current (some after) level) =
      if before < after then .forward else .backward := by
  -- The first level that one of the neighbours does not reach decides.
  obtain ⟨shared, isShared⟩ : ∃ shared : Nat, (shared : Int) = min before after + 1 :=
    ⟨(min before after + 1).toNat, by omega⟩
  have continues : marks (some before) current (some after) shared =
      List.replicate shared .continue :=
    marks_eq_replicate fun other lt => by omega
  rcases Nat.lt_or_ge shared level with lt | ge
  · obtain ⟨deeper, same⟩ := marks_prefix (some before) current (some after) lt
    rw [same, continues, hookDirection_replicate_append, mark, if_neg (by omega)]
    split
    case isTrue endsThere =>
      split
      case isTrue beginsThere =>
        have alone : hookDirection (List.replicate shared .continue) = .backward := by
          rw [← List.append_nil (List.replicate shared _),
            hookDirection_replicate_append]
          rfl
        rw [alone, if_neg (by omega)]
        rfl
      case isFalse => rw [if_pos (by omega)]; rfl
    case isFalse =>
      rw [if_pos (by omega), if_neg (by omega)]
      rfl
  · obtain rfl : shared = level := by omega
    rw [continues, if_neg (by omega), ← List.append_nil (List.replicate shared _),
      hookDirection_replicate_append]
    rfl

end Mark

/-! ## The marks of all notes -/

/-- The depth of the note before the one at an index, if there is one. -/
def depthBefore? (depths : List Int) : Nat → Option Int
  | 0 => none
  | index + 1 => depths[index]?

/-- The marks of each note follow from its own depth and those next to it. -/
theorem getElem?_marksOf (previous : Option Int) (depths : List Int) (index : Nat) :
    (marksOf previous depths)[index]? = depths[index]?.map fun current =>
      BeamLevels.ofList (marks
        (if index = 0 then previous else depthBefore? depths index) current
        depths[index + 1]? maxBeamLevels) := by
  induction depths generalizing previous index with
  | nil => rfl
  | cons first rest induction =>
      rw [marksOf]
      cases index with
      | zero => rw [List.head?_eq_getElem?]; rfl
      | succ index =>
          rw [List.getElem?_cons_succ, induction, List.getElem?_cons_succ]
          cases index <;> rfl

theorem length_marksOf (previous : Option Int) (depths : List Int) :
    (marksOf previous depths).length = depths.length := by
  induction depths generalizing previous with
  | nil => rfl
  | cons first rest induction => rw [marksOf, List.length_cons, induction]; rfl

/-- One mark, computed from a note and its neighbours. -/
theorem markAt_marksOf {depths : List Int} {index : Nat} {current : Int}
    (isDepth : depths[index]? = some current) (level : Fin maxBeamLevels) :
    markAt (marksOf none depths) level index =
      some (mark (depthBefore? depths index) current depths[index + 1]?
        (marks (depthBefore? depths index) current depths[index + 1]? level)
        level) := by
  have isBefore : (if index = 0 then none else depthBefore? depths index) =
      depthBefore? depths index := by
    cases index <;> rfl
  rw [markAt, getElem?_marksOf, isDepth, isBefore, Option.map_some, Option.map_some,
    get_ofList_marks]

section Run

variable {depths : List Int} {level : Fin maxBeamLevels} {first last : Nat}

/-- What stands next to a run on the left does not reach its level. -/
theorem IsRun.lt_of_before (isRun : IsRun depths level first last) {before : Int}
    (isBefore : depthBefore? depths first = some before) : before < level := by
  cases first with
  | zero => cases isBefore
  | succ index => exact lt_of_not_reaches isBefore (isRun.before index rfl)

/-- What stands next to a run on the right does not reach its level. -/
theorem IsRun.lt_of_after (isRun : IsRun depths level first last) {after : Int}
    (isAfter : depths[last + 1]? = some after) : after < level :=
  lt_of_not_reaches isAfter isRun.after

theorem IsRun.markAt_first
    (isRun : IsRun depths level first last) (lt : first < last) :
    markAt (marksOf none depths) level first = some .start := by
  obtain ⟨current, isDepth, deep⟩ := isRun.reached first (Nat.le_refl _) isRun.ordered
  obtain ⟨after, isAfter, deepAfter⟩ := isRun.reached (first + 1) (Nat.le_succ _) lt
  rw [markAt_marksOf isDepth, isAfter]
  cases isBefore : depthBefore? depths first with
  | none =>
      rw [mark, if_neg (Int.not_lt.mpr deep), Option.getD_some, if_neg (Int.not_lt.mpr deepAfter)]
  | some before =>
      rw [mark, if_neg (Int.not_lt.mpr deep),
        if_pos (isRun.lt_of_before isBefore), if_neg (Int.not_lt.mpr deepAfter)]

/-- The note before one that is not the first of a run belongs to the run too. -/
theorem IsRun.exists_before (isRun : IsRun depths level first last) {index : Nat}
    (lt : first < index) (le : index ≤ last) :
    ∃ before, depthBefore? depths index = some before ∧ (level : Int) ≤ before := by
  cases index with
  | zero => cases lt
  | succ index =>
      exact isRun.reached index (Nat.le_of_lt_succ lt) (Nat.le_of_succ_le le)

theorem IsRun.markAt_last
    (isRun : IsRun depths level first last) (lt : first < last) :
    markAt (marksOf none depths) level last = some .finish := by
  obtain ⟨current, isDepth, deep⟩ := isRun.reached last isRun.ordered (Nat.le_refl _)
  obtain ⟨before, isBefore, deepBefore⟩ := isRun.exists_before lt (Nat.le_refl _)
  rw [markAt_marksOf isDepth, isBefore]
  cases isAfter : depths[last + 1]? with
  | none =>
      rw [mark, if_neg (Int.not_lt.mpr deep), if_neg (Int.not_lt.mpr deepBefore)]
  | some after =>
      rw [mark, if_neg (Int.not_lt.mpr deep), if_neg (Int.not_lt.mpr deepBefore),
        if_pos (isRun.lt_of_after isAfter)]

theorem IsRun.markAt_middle
    (isRun : IsRun depths level first last) {index : Nat}
    (above : first < index) (below : index < last) :
    markAt (marksOf none depths) level index = some .continue := by
  obtain ⟨current, isDepth, deep⟩ :=
    isRun.reached index (Nat.le_of_lt above) (Nat.le_of_lt below)
  obtain ⟨after, isAfter, deepAfter⟩ :=
    isRun.reached (index + 1) (Nat.le_succ_of_le (Nat.le_of_lt above)) below
  obtain ⟨before, isBefore, deepBefore⟩ :=
    isRun.exists_before above (Nat.le_of_lt below)
  rw [markAt_marksOf isDepth, isAfter, isBefore, mark, if_neg (Int.not_lt.mpr deep),
    if_neg (Int.not_lt.mpr deepBefore), if_neg (Int.not_lt.mpr deepAfter)]

theorem IsRun.markAt_alone
    (atLeast : ∀ depth ∈ depths, -1 ≤ depth) {index : Nat}
    (isRun : IsRun depths level index index) :
    markAt (marksOf none depths) level index = some (hook depths index) := by
  obtain ⟨current, isDepth, deep⟩ := isRun.reached index (Nat.le_refl _) (Nat.le_refl _)
  have inside := (List.getElem?_eq_some_iff.mp isDepth).1
  rw [markAt_marksOf isDepth, hook]
  cases index with
  | zero =>
      rw [if_pos rfl, depthBefore?, mark, if_neg (Int.not_lt.mpr deep), if_pos]
      cases isAfter : depths[1]? with
      | none => exact Int.lt_of_lt_of_le (by decide) (Int.natCast_nonneg _)
      | some after => exact isRun.lt_of_after isAfter
  | succ index =>
      obtain ⟨before, isBefore⟩ : ∃ before, depths[index]? = some before :=
        ⟨_, List.getElem?_eq_getElem (Nat.lt_of_succ_lt inside)⟩
      have ends := isRun.lt_of_before isBefore
      rw [if_neg (Nat.succ_ne_zero index), depthBefore?, isBefore]
      cases isAfter : depths[index + 1 + 1]? with
      | none =>
          rw [mark, if_neg (Int.not_lt.mpr deep), if_pos ends, if_pos]
          exact Nat.le_antisymm inside (List.getElem?_eq_none_iff.mp isAfter)
      | some after =>
          have begins := isRun.lt_of_after isAfter
          rw [mark, if_neg (Int.not_lt.mpr deep), if_pos ends, if_pos begins,
            hookDirection_marks
            (atLeast before (List.mem_of_getElem? isBefore))
            (atLeast after (List.mem_of_getElem? isAfter)) deep ends begins,
            if_neg (Nat.ne_of_lt (List.getElem?_eq_some_iff.mp isAfter).1),
            List.getD_eq_getElem?_getD, List.getD_eq_getElem?_getD, isAfter,
            Nat.add_sub_cancel, isBefore]
          rfl

end Run

/-- The marks that are computed are right for every series of depths. -/
theorem wellBeamed_marksOf
    {depths : List Int} (atLeast : ∀ depth ∈ depths, -1 ≤ depth) :
    WellBeamed depths (marksOf none depths) where
  length := length_marksOf none depths
  joined _ _ _ isRun lt :=
    ⟨isRun.markAt_first lt, isRun.markAt_last lt, fun _ => isRun.markAt_middle⟩
  alone _ _ isRun := isRun.markAt_alone atLeast
  unmarked level index inside shallow := by
    have isDepth := List.getElem?_eq_getElem inside
    rw [markAt_marksOf isDepth, mark.eq_def,
      if_pos (lt_of_not_reaches isDepth shallow)]

/-! ## The members of a beam -/

theorem neg_one_le_depth (note : Note) : -1 ≤ depth note := by
  unfold depth
  split <;> omega

/-- Every object has the marks that it was given last. -/
theorem foldl_setLevels (assignments : List (Handle × BeamLevels)) (members : Members) :
    assignments.foldl setLevels members = members.map fun entry =>
      (entry.1, ((assignments.reverse.lookup entry.1).map Role.beam).getD entry.2) := by
  induction assignments using List.reverseRecOn with
  | nil => simp
  | append_singleton earlier last induction =>
      rw [List.foldl_append, List.foldl_cons, List.foldl_nil, induction, setLevels,
        List.map_map, List.reverse_concat]
      refine List.map_congr_left fun entry _ => ?_
      dsimp only [Function.comp_apply]
      rw [List.lookup_cons]
      by_cases same : entry.1 = last.1
      · rw [if_pos same, beq_iff_eq.mpr same]
        rfl
      · rw [if_neg same, beq_eq_false_iff_ne.mpr same]

/-- Looking up each object in turn gives all marks in order. -/
theorem map_lookup_zip
    {handles : List Handle} {levels : List BeamLevels} (once : handles.Nodup)
    (paired : handles.length = levels.length) :
    (handles.map fun handle => (handles.zip levels).reverse.lookup handle) =
      levels.map some := by
  induction handles generalizing levels with
  | nil => rw [List.length_eq_zero_iff.mp paired.symm]; rfl
  | cons first rest induction =>
      cases levels with
      | nil => cases paired
      | cons level levels =>
          rw [List.nodup_cons] at once
          have unlisted : (rest.zip levels).reverse.lookup first = none := by
            refine List.lookup_eq_none_iff.mpr fun assignment assigned => ?_
            refine bne_iff_ne.mpr fun same => once.1 (same ▸ ?_)
            exact (List.of_mem_zip (List.mem_reverse.mp assigned)).1
          simp only [List.zip_cons_cons, List.reverse_cons, List.lookup_append,
            List.map_cons, unlisted, List.lookup_cons, beq_self_eq_true]
          rw [← induction once.2 (Nat.succ.inj paired)]
          refine congrArg _ (List.map_congr_left fun handle listed => ?_)
          have other : handle ≠ first := fun same => once.1 (same ▸ listed)
          rw [beq_eq_false_iff_ne.mpr other]
          exact Option.or_none

/-- The marks that are computed for an object; if it is listed more than once, those
for the last time. -/
def given? (model : Model) (members : Members) (handle : Handle) : Option BeamLevels :=
  let notes := notesOf model members
  ((notes.map Prod.fst).zip
    (marksOf none (notes.map fun entry => depth entry.2))).reverse.lookup handle

/-- Each member of a beam with two or more notes is given its marks. -/
theorem beamed_eq_map {model : Model} {members : Members}
    (several : 2 ≤ (notesOf model members).length) :
    beamed model members = members.map fun entry =>
      (entry.1, ((given? model members entry.1).map Role.beam).getD entry.2) := by
  rw [beamed]
  dsimp only
  rw [if_neg (Nat.not_lt.mpr several), foldl_setLevels]
  rfl

theorem beamed_of_few {model : Model} {members : Members}
    (few : (notesOf model members).length < 2) : beamed model members = members := by
  rw [beamed]
  exact if_pos few

/-- The notes of a beam are those of its members that are notes. -/
theorem mem_notesOf_iff {model : Model} {members : Members} {handle : Handle} :
    handle ∈ (notesOf model members).map Prod.fst ↔
      handle ∈ members.map Prod.fst ∧ (model.note? handle).isSome := by
  simp only [notesOf, List.mem_map, List.mem_filterMap, Option.map_eq_some_iff,
    Option.isSome_iff_exists]
  constructor
  · rintro ⟨_, ⟨entry, isMember, note, isNote, rfl⟩, rfl⟩
    exact ⟨⟨entry, isMember, rfl⟩, note, isNote⟩
  · rintro ⟨⟨entry, isMember, rfl⟩, note, isNote⟩
    exact ⟨_, ⟨entry, isMember, note, isNote, rfl⟩, rfl⟩

theorem length_marksOf_notes (notes : List (Handle × Note)) :
    (notes.map Prod.fst).length =
      (marksOf none (notes.map fun entry => depth entry.2)).length := by
  rw [length_marksOf, List.length_map, List.length_map]

/-- Marks are given to the notes and to nothing else. -/
theorem given?_isSome_iff {model : Model} {members : Members} {handle : Handle} :
    (given? model members handle).isSome ↔
      handle ∈ members.map Prod.fst ∧ (model.note? handle).isSome := by
  rw [← mem_notesOf_iff, given?, List.lookup_isSome_iff]
  constructor
  · rintro ⟨assignment, assigned, same⟩
    rw [eq_of_beq same]
    exact (List.of_mem_zip (List.mem_reverse.mp assigned)).1
  · intro listed
    rw [← List.map_fst_zip (Nat.le_of_eq (length_marksOf_notes _))] at listed
    obtain ⟨assignment, assigned, rfl⟩ := List.mem_map.mp listed
    exact ⟨assignment, List.mem_reverse.mpr assigned, beq_self_eq_true _⟩

theorem given?_of_other {model : Model} {members : Members} {handle : Handle}
    (isOther : model.note? handle = none) : given? model members handle = none := by
  rw [← Option.not_isSome_iff_eq_none, given?_isSome_iff, isOther]
  exact fun given => nomatch given.2

/-- What a beam records about its notes, in order. -/
def noteRoles (model : Model) (members : Members) : List Role :=
  members.filterMap fun (member, role) => (model.note? member).map fun _ => role

/-- Members that are recorded anew have the same notes. -/
theorem notesOf_congr {model other : Model} {members changed : Members}
    (notes : ∀ member, other.note? member = model.note? member)
    (same : changed.map Prod.fst = members.map Prod.fst) :
    notesOf other changed = notesOf model members := by
  have byHandle : ∀ (model : Model) (members : Members),
      notesOf model members = (members.map Prod.fst).filterMap fun member =>
        (model.note? member).map fun note => (member, note) := fun model members => by
    rw [List.filterMap_map]
    rfl
  rw [byHandle, byHandle, same]
  simp only [notes]

/-- If all notes of a beam are given a role, they have these roles afterwards. -/
theorem noteRoles_map {model : Model} {members : Members} {given : Handle → Option Role}
    (all : ∀ handle ∈ (notesOf model members).map Prod.fst, (given handle).isSome) :
    (noteRoles model (members.map fun entry =>
        (entry.1, (given entry.1).getD entry.2))).map some =
      ((notesOf model members).map Prod.fst).map given := by
  induction members with
  | nil => rfl
  | cons entry rest induction =>
      obtain ⟨member, role⟩ := entry
      rw [noteRoles, List.map_cons, List.filterMap_cons]
      rw [notesOf, List.filterMap_cons] at all ⊢
      dsimp only at all ⊢
      cases isNote : model.note? member with
      | none =>
          rw [isNote] at all
          exact induction all
      | some note =>
          rw [isNote] at all
          obtain ⟨marked, isGiven⟩ :=
            Option.isSome_iff_exists.mp (all member List.mem_cons_self)
          have others := induction fun handle listed =>
            all handle (List.mem_cons_of_mem _ listed)
          dsimp only [Option.map_some]
          rw [List.map_cons, List.map_cons, List.map_cons, isGiven, Option.getD_some]
          exact congrArg (some marked :: ·) others

/-- Each note of a beam has the marks that are computed for it. -/
theorem noteRoles_beamed {model : Model} {members : Members}
    (distinct : ((notesOf model members).map Prod.fst).Nodup)
    (several : 2 ≤ (notesOf model members).length) :
    noteRoles model (beamed model members) =
      (marksOf none ((notesOf model members).map fun entry => depth entry.2)).map
        Role.beam := by
  have lookups : ((notesOf model members).map Prod.fst).map (given? model members) =
      (marksOf none ((notesOf model members).map fun entry => depth entry.2)).map some :=
    map_lookup_zip distinct (length_marksOf_notes _)
  have all : ∀ handle ∈ (notesOf model members).map Prod.fst,
      ((given? model members handle).map Role.beam).isSome := by
    intro handle listed
    rw [Option.isSome_map]
    exact given?_isSome_iff.mpr (mem_notesOf_iff.mp listed)
  refine (List.map_inj_right fun _ _ => Option.some.inj).mp ?_
  rw [beamed_eq_map several, noteRoles_map all,
    ← Function.comp_def (Option.map Role.beam), ← List.map_map, lookups, List.map_map,
    List.map_map]
  rfl

/-- What becomes of a member: a note gets marks, and anything else keeps its role. -/
structure Remarked (model : Model) (old new : Handle × Role) : Prop where
  member : new.1 = old.1
  note : (model.note? old.1).isSome → ∃ levels, new.2 = .beam levels
  other : model.note? old.1 = none → new.2 = old.2

/-- Computing marks anew keeps the members in their places. -/
theorem forall₂_remarked_beamed {model : Model} {members : Members}
    (several : 2 ≤ (notesOf model members).length) :
    List.Forall₂ (Remarked model) members (beamed model members) := by
  rw [beamed_eq_map several, List.forall₂_map_right_iff, List.forall₂_same]
  intro entry listed
  constructor
  · rfl
  · intro isNote
    obtain ⟨levels, isGiven⟩ := Option.isSome_iff_exists.mp
      (given?_isSome_iff.mpr ⟨List.mem_map_of_mem listed, isNote⟩)
    exact ⟨levels, by rw [isGiven]; rfl⟩
  · intro isOther
    rw [given?_of_other isOther]
    rfl

/-- What is not a note keeps its role. -/
theorem rests_beamed {model : Model} {members : Members}
    {entry : Handle × Role} (listed : entry ∈ members)
    (isRest : model.note? entry.1 = none) : entry ∈ beamed model members := by
  rcases Nat.lt_or_ge (notesOf model members).length 2 with few | several
  · rwa [beamed_of_few few]
  · rw [beamed_eq_map several]
    exact List.mem_map.mpr ⟨entry, listed, by rw [given?_of_other isRest]; rfl⟩

/-- Marks that are computed twice are those that are computed once. -/
theorem beamed_beamed {model other : Model} (members : Members)
    (notes : ∀ member, other.note? member = model.note? member) :
    beamed other (beamed model members) = beamed model members := by
  have sameNotes : notesOf other (beamed model members) = notesOf model members :=
    notesOf_congr notes (map_fst_beamed model members)
  rcases Nat.lt_or_ge (notesOf model members).length 2 with few | several
  · exact beamed_of_few (sameNotes ▸ few)
  · have sameGiven : given? other (beamed model members) = given? model members := by
      funext handle
      rw [given?, sameNotes]
      rfl
    rw [beamed_eq_map (sameNotes ▸ several), sameGiven, beamed_eq_map several,
      List.map_map]
    refine List.map_congr_left fun entry _ => ?_
    dsimp only [Function.comp_apply]
    cases given? model members entry.1 <;> rfl

end Autobeam

open Autobeam

namespace Model

/-- Only a beam changes. -/
theorem note?_autobeam {model : Model} {beam : Handle} {members : Members}
    (isBeam : model.content? beam = some (.beam members)) (handle : Handle) :
    (model.autobeam beam).note? handle = model.note? handle := by
  rw [note?, autobeam, content?_modifyContent, note?]
  by_cases same : handle = beam
  · rw [same, isBeam, Option.map_some, if_pos rfl]
    rfl
  · simp only [if_neg same, Option.map_id']

/--
Computing the marks of a beam anew is right.  A beam whose notes are two or more and
all different has the same members afterwards, of which those that are not notes keep
what is recorded about them, and at every level the marks of its notes are right for
their depths.
-/
theorem wellBeamed_autobeam {model : Model} {beam : Handle} {members : Members}
    (isBeam : model.content? beam = some (.beam members))
    (distinct : ((notesOf model members).map Prod.fst).Nodup)
    (several : 2 ≤ (notesOf model members).length) :
    ∃ (after : Members) (levels : List BeamLevels),
      (model.autobeam beam).content? beam = some (.beam after) ∧
        after.map Prod.fst = members.map Prod.fst ∧
        (∀ entry ∈ members, model.note? entry.1 = none → entry ∈ after) ∧
        notesOf (model.autobeam beam) after = notesOf model members ∧
        noteRoles (model.autobeam beam) after = levels.map Role.beam ∧
        WellBeamed ((notesOf model members).map fun entry => depth entry.2) levels := by
  have notes := note?_autobeam isBeam
  have same := map_fst_beamed model members
  refine ⟨beamed model members, _, ?_, same, fun _ => rests_beamed,
    notesOf_congr notes same, ?_, wellBeamed_marksOf ?_⟩
  · rw [autobeam, content?_modifyContent, isBeam, Option.map_some, if_pos rfl]
    rfl
  · rw [← noteRoles_beamed distinct several]
    simp only [noteRoles, notes]
  · intro depth listed
    obtain ⟨entry, _, rfl⟩ := List.mem_map.mp listed
    exact neg_one_le_depth entry.2

/-- A beam over an eighth note, a rest, a sixteenth note and an eighth note. -/
theorem wellBeamed_around_rest :
    let noteRest := fun type => NoteRest.mk ⟨type, 0⟩ 1 0 none false {}
    let note := fun type => Content.note { noteRest := noteRest type, pitch := none }
    let members : Members := [0, 1, 2, 3].map fun member => (member, .beam .empty)
    let contents := [note .eighth, .rest (noteRest .eighth), note .sixteenth,
      note .eighth, .beam members]
    let model : Model :=
      ⟨(contents.map fun content => ⟨0, content, none, [], []⟩).toArray, none⟩
    model.content? 4 = some (.beam members) ∧
      ((notesOf model members).map Prod.fst).Nodup ∧
      2 ≤ (notesOf model members).length ∧
      ∃ (after : Members) (levels : List BeamLevels),
        (model.autobeam 4).content? 4 = some (.beam after) ∧
          after.map Prod.fst = [0, 1, 2, 3] ∧
          (∀ entry ∈ members, model.note? entry.1 = none → entry ∈ after) ∧
          notesOf (model.autobeam 4) after = notesOf model members ∧
          noteRoles (model.autobeam 4) after = levels.map Role.beam ∧
          WellBeamed [0, 1, 0] levels := by
  intro noteRest note members contents model
  have isBeam : model.content? 4 = some (.beam members) := rfl
  have distinct : ((notesOf model members).map Prod.fst).Nodup := by decide
  have several : 2 ≤ (notesOf model members).length := by decide
  exact ⟨isBeam, distinct, several, wellBeamed_autobeam isBeam distinct several⟩

/-! ## What changes -/

/-- Models with the same root and the same objects are the same. -/
theorem eq_of_get? {model other : Model} (sameRoot : model.root = other.root)
    (same : ∀ handle, model.get? handle = other.get? handle) : model = other := by
  have sameObjects : model.objects = other.objects := Array.ext_getElem? same
  cases model
  cases other
  cases sameRoot
  cases sameObjects
  rfl

/-- Nothing changes but what a beam records about its notes. -/
structure MarksAnew (beam : Handle) (before after : Model) : Prop where
  root : after.root = before.root
  others : ∀ handle, handle ≠ beam → after.get? handle = before.get? handle
  own : ∃ (object : Object) (old new : Members),
    before.get? beam = some object ∧ object.content = .beam old ∧
      after.get? beam = some { object with content := .beam new } ∧
        List.Forall₂ (Remarked before) old new

section Beam

variable {model : Model} {beam : Handle} {members : Members}

theorem get?_autobeam (isBeam : model.content? beam = some (.beam members))
    (handle : Handle) :
    (model.autobeam beam).get? handle = (model.get? handle).map fun object =>
      if handle = beam then { object with content := .beam (beamed model members) }
      else object := by
  rw [autobeam, get?_modifyContent]
  by_cases same : handle = beam
  · obtain ⟨object, isObject, isContent⟩ := content?_eq_some_iff.mp isBeam
    simp only [same, isObject, isContent, Option.map_some, if_pos]
    rfl
  · simp only [if_neg same]

theorem content?_autobeam (isBeam : model.content? beam = some (.beam members)) :
    (model.autobeam beam).content? beam = some (.beam (beamed model members)) := by
  obtain ⟨object, isObject, _⟩ := content?_eq_some_iff.mp isBeam
  rw [content?, get?_autobeam isBeam, isObject, Option.map_some, Option.map_some,
    if_pos rfl]

/--
The marks of a beam are computed once and for all, and nothing but the marks of its
notes changes.  A note may be a member more than once.  A beam with fewer than two
notes stays as it is.
-/
theorem marksAnew_autobeam (isBeam : model.content? beam = some (.beam members)) :
    (model.autobeam beam).autobeam beam = model.autobeam beam ∧
      ((notesOf model members).length < 2 → model.autobeam beam = model) ∧
      (2 ≤ (notesOf model members).length →
        MarksAnew beam model (model.autobeam beam)) := by
  obtain ⟨object, isObject, isContent⟩ := content?_eq_some_iff.mp isBeam
  refine ⟨?_, fun few => ?_, fun several => ?_⟩
  · refine eq_of_get? rfl fun handle => ?_
    rw [get?_autobeam (content?_autobeam isBeam), get?_autobeam isBeam, Option.map_map,
      beamed_beamed members (note?_autobeam isBeam)]
    congr 1
    funext object
    dsimp only [Function.comp_apply]
    split <;> rfl
  · refine eq_of_get? rfl fun handle => ?_
    rw [get?_autobeam isBeam, beamed_of_few few]
    by_cases same : handle = beam
    · rw [same, isObject, Option.map_some, if_pos rfl, ← isContent]
    · simp only [if_neg same, Option.map_id']
  · refine ⟨rfl, fun handle other => ?_, object, members, beamed model members, isObject,
      isContent, ?_, forall₂_remarked_beamed several⟩
    · simp only [get?_autobeam isBeam, if_neg other, Option.map_id']
    · rw [get?_autobeam isBeam, isObject, Option.map_some, if_pos rfl]

end Beam

/-- In a beam over an eighth note, a rest, a sixteenth note and the first note again,
that note ends the beam in both places. -/
theorem marksAnew_of_repeated_note :
    let noteRest := fun type => NoteRest.mk ⟨type, 0⟩ 1 0 none false {}
    let note := fun type => Content.note { noteRest := noteRest type, pitch := none }
    let marked := fun marks => Role.beam (.ofList marks)
    let members : Members := [0, 1, 2, 0].map fun member => (member, marked [])
    let contents := [note .eighth, .rest (noteRest .eighth), note .sixteenth,
      .beam members]
    let model : Model :=
      ⟨(contents.map fun content => ⟨0, content, none, [], []⟩).toArray, none⟩
    model.content? 3 = some (.beam members) ∧
      (model.autobeam 3).content? 3 = some (.beam
        [(0, marked [.finish]), (1, marked []), (2, marked [.continue, .backward]),
          (0, marked [.finish])]) ∧
      (model.autobeam 3).autobeam 3 = model.autobeam 3 ∧
      MarksAnew 3 model (model.autobeam 3) := by
  intro noteRest note marked members contents model
  have isBeam : model.content? 3 = some (.beam members) := rfl
  obtain ⟨once, _, anew⟩ := marksAnew_autobeam isBeam
  exact ⟨isBeam, by decide, once, anew (by decide)⟩

end Model

end LdpScore
