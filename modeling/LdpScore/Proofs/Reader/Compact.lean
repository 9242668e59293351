import LdpScore.Proofs.Reader.Line

/-!
# How compact notation is closed

A compact label `name:` adds an opening parenthesis, and the next value adds a
closing one.  Only one label at a time is remembered: of two labels `a:b:c` in a row
the value closes the second, and the first stays open.  So does a label with nothing
but opening parentheses after it.

`closesCompact_lex` counts what is added to a text, and says where it is added.  The
parentheses of compact notation balance if and only if each label has a value of its
own.
-/

namespace LdpScore.Token

/-- How many results are a certain token. -/
def occurrences (token : Token) (results : List (Except LexicalError Token)) : Nat :=
  results.countP fun result => result.toOption == some token

section Occurrences

variable (token : Token) (results : List (Except LexicalError Token))

theorem occurrences_cons (result : Except LexicalError Token) :
    occurrences token (result :: results) =
      occurrences token [result] + occurrences token results := by
  rw [occurrences, ← List.singleton_append, List.countP_append]
  rfl

@[simp]
theorem occurrences_cons_self :
    occurrences token (.ok token :: results) = 1 + occurrences token results := by
  rw [occurrences_cons, occurrences, List.countP_singleton,
    Except.toOption, if_pos (beq_self_eq_true (some token))]

theorem occurrences_cons_other
    {other : Token} (isOther : other ≠ token) :
    occurrences token (.ok other :: results) = occurrences token results := by
  rw [occurrences_cons, occurrences, List.countP_singleton, Except.toOption,
    if_neg fun same => isOther (Option.some.inj (beq_iff_eq.mp same)),
    Nat.zero_add]

end Occurrences

namespace Lexeme

/-- The token of a piece, without what compact notation adds to it. -/
def token (piece : Lexeme) : LexedToken :=
  ⟨piece.result, piece.location⟩

/-- Whether a piece is an opening parenthesis, which a waiting label passes over. -/
structure IsOpening (piece : Lexeme) : Prop where
  plain : piece.isCompact = false
  isParen : isParenLeft piece.result = true

/-- Whether a compact label that waits is closed after this piece. -/
structure IsValue (piece : Lexeme) : Prop where
  plain : piece.isCompact = false
  notParen : isParenLeft piece.result = false

/-- Compact notation knows three kinds of pieces. -/
theorem kinds (piece : Lexeme) :
    piece.isCompact = true ∨ piece.IsOpening ∨ piece.IsValue := by
  cases isCompact : piece.isCompact with
  | true => exact .inl rfl
  | false =>
      cases isParen : isParenLeft piece.result with
      | true => exact .inr (.inl ⟨isCompact, isParen⟩)
      | false => exact .inr (.inr ⟨isCompact, isParen⟩)

end Lexeme

/-- Whether nothing closes a compact label before these pieces: after opening
parentheses there is another compact label, or nothing more. -/
def staysOpen : List Lexeme → Bool
  | [] => true
  | piece :: rest =>
      piece.isCompact || (isParenLeft piece.result && staysOpen rest)

/-- How many compact labels are never closed. -/
def openLabels : List Lexeme → Nat
  | [] => 0
  | piece :: rest =>
      openLabels rest + (piece.isCompact && staysOpen rest).toNat

/-! ## What one piece does -/

section Steps

variable {piece : Lexeme} (due : Bool) (rest : List Lexeme)

theorem closeCompact_compact (isCompact : piece.isCompact = true) :
    closeCompact due (piece :: rest) =
      ⟨.ok .parenLeft, piece.location⟩ :: piece.token :: closeCompact true rest := by
  rw [closeCompact, if_pos isCompact]
  rfl

theorem closeCompact_opening (isOpening : piece.IsOpening) :
    closeCompact due (piece :: rest) = piece.token :: closeCompact due rest := by
  rw [closeCompact, isOpening.plain, isOpening.isParen, Bool.not_true,
    Bool.and_false]
  rfl

theorem closeCompact_value (isValue : piece.IsValue) :
    closeCompact true (piece :: rest) =
      piece.token :: ⟨.ok .parenRight, piece.location⟩ :: closeCompact false rest := by
  rw [closeCompact, isValue.plain, isValue.notParen]
  rfl

/-- Where no label waits, a value is like an opening parenthesis. -/
theorem closeCompact_value_of_not_due (isValue : piece.IsValue) :
    closeCompact false (piece :: rest) = piece.token :: closeCompact false rest := by
  rw [closeCompact, isValue.plain]
  rfl

theorem staysOpen_compact (isCompact : piece.isCompact = true) :
    staysOpen (piece :: rest) = true := by
  rw [staysOpen, isCompact, Bool.true_or]

theorem staysOpen_opening (isOpening : piece.IsOpening) :
    staysOpen (piece :: rest) = staysOpen rest := by
  rw [staysOpen, isOpening.plain, isOpening.isParen, Bool.false_or, Bool.true_and]

theorem staysOpen_value (isValue : piece.IsValue) :
    staysOpen (piece :: rest) = false := by
  rw [staysOpen, isValue.plain, isValue.notParen, Bool.false_and, Bool.or_false]

theorem openLabels_plain (plain : piece.isCompact = false) :
    openLabels (piece :: rest) = openLabels rest := by
  rw [openLabels, plain, Bool.false_and]
  rfl

end Steps

/-! ## Which labels are closed -/

theorem staysOpen_eq_false_iff (later : List Lexeme) :
    staysOpen later = false ↔
      ∃ parens value rest, later = parens ++ value :: rest ∧
        (∀ paren ∈ parens, paren.IsOpening) ∧ value.IsValue := by
  constructor
  · intro closes
    induction later with
    | nil => cases closes
    | cons piece rest induction =>
        rcases piece.kinds with isCompact | isOpening | isValue
        · rw [staysOpen_compact rest isCompact] at closes
          cases closes
        · rw [staysOpen_opening rest isOpening] at closes
          obtain ⟨parens, value, after, rfl, allOpening, isValue⟩ :=
            induction closes
          exact ⟨piece :: parens, value, after, rfl,
            List.forall_mem_cons.mpr ⟨isOpening, allOpening⟩, isValue⟩
        · exact ⟨[], piece, rest, rfl, by simp, isValue⟩
  · rintro ⟨parens, value, rest, rfl, allOpening, isValue⟩
    induction parens with
    | nil => exact staysOpen_value rest isValue
    | cons paren parens induction =>
        obtain ⟨isOpening, others⟩ := List.forall_mem_cons.mp allOpening
        rw [List.cons_append, staysOpen_opening _ isOpening, induction others]

theorem openLabels_eq_zero_iff (pieces : List Lexeme) :
    openLabels pieces = 0 ↔
      ∀ before label after, pieces = before ++ label :: after →
        label.isCompact = true → staysOpen after = false := by
  constructor
  · rintro none before label after rfl isCompact
    induction before with
    | nil =>
        rw [List.nil_append, openLabels, isCompact, Bool.true_and] at none
        exact Bool.toNat_eq_zero.mp (Nat.add_eq_zero_iff.mp none).2
    | cons first before induction =>
        rw [List.cons_append, openLabels] at none
        exact induction (Nat.add_eq_zero_iff.mp none).1
  · intro closes
    induction pieces with
    | nil => rfl
    | cons piece rest induction =>
        rw [openLabels, induction fun before label after same =>
          closes (piece :: before) label after (by rw [same, List.cons_append])]
        cases isCompact : piece.isCompact with
        | false => rfl
        | true => rw [closes [] piece rest rfl isCompact]; rfl

/-! ## How many parentheses are added -/

/-- Each compact label adds an opening parenthesis. -/
theorem occurrences_parenLeft_closeCompact (due : Bool) (pieces : List Lexeme) :
    occurrences .parenLeft ((closeCompact due pieces).map (·.result)) =
      occurrences .parenLeft (pieces.map (·.result)) +
        pieces.countP Lexeme.isCompact := by
  induction pieces generalizing due with
  | nil => rfl
  | cons piece rest induction =>
      rw [List.map_cons, occurrences_cons _ _ piece.result]
      rcases piece.kinds with isCompact | isOpening | isValue
      · rw [closeCompact_compact due rest isCompact, List.map_cons, List.map_cons,
          occurrences_cons_self, occurrences_cons, induction,
          List.countP_cons_of_pos isCompact]
        simp only [Lexeme.token]
        omega
      · rw [closeCompact_opening due rest isOpening, List.map_cons,
          occurrences_cons, induction,
          List.countP_cons_of_neg (by simp [isOpening.plain])]
        simp only [Lexeme.token]
        omega
      · rw [List.countP_cons_of_neg (by simp [isValue.plain])]
        cases due with
        | true =>
            rw [closeCompact_value rest isValue, List.map_cons, List.map_cons,
              occurrences_cons, occurrences_cons_other _ _ (by decide), induction]
            simp only [Lexeme.token]
            omega
        | false =>
            rw [closeCompact_value_of_not_due rest isValue, List.map_cons,
              occurrences_cons, induction]
            simp only [Lexeme.token]
            omega

/-- Each compact label adds a closing parenthesis unless it stays open, and so does
the label that waits when the pieces begin. -/
theorem occurrences_parenRight_closeCompact (due : Bool) (pieces : List Lexeme) :
    occurrences .parenRight ((closeCompact due pieces).map (·.result)) +
        openLabels pieces + (due && staysOpen pieces).toNat =
      occurrences .parenRight (pieces.map (·.result)) +
        pieces.countP Lexeme.isCompact + due.toNat := by
  induction pieces generalizing due with
  | nil => cases due <;> rfl
  | cons piece rest induction =>
      rw [List.map_cons, occurrences_cons _ _ piece.result]
      rcases piece.kinds with isCompact | isOpening | isValue
      · have later := induction true
        rw [Bool.true_and] at later
        rw [closeCompact_compact due rest isCompact, List.map_cons, List.map_cons,
          occurrences_cons_other _ _ (by decide), occurrences_cons,
          openLabels, isCompact, Bool.true_and, staysOpen_compact rest isCompact,
          Bool.and_true, List.countP_cons_of_pos isCompact]
        simp only [Lexeme.token, Bool.toNat_true] at later ⊢
        omega
      · have later := induction due
        rw [closeCompact_opening due rest isOpening, List.map_cons,
          occurrences_cons, openLabels_plain rest isOpening.plain,
          staysOpen_opening rest isOpening,
          List.countP_cons_of_neg (by simp [isOpening.plain])]
        simp only [Lexeme.token]
        omega
      · have later := induction false
        rw [Bool.false_and] at later
        rw [openLabels_plain rest isValue.plain, staysOpen_value rest isValue,
          List.countP_cons_of_neg (by simp [isValue.plain])]
        cases due with
        | true =>
            rw [closeCompact_value rest isValue, List.map_cons, List.map_cons,
              occurrences_cons, occurrences_cons_self]
            simp only [Lexeme.token, Bool.and_false, Bool.toNat_false,
              Bool.toNat_true] at later ⊢
            omega
        | false =>
            rw [closeCompact_value_of_not_due rest isValue, List.map_cons,
              occurrences_cons]
            simp only [Lexeme.token, Bool.and_false, Bool.toNat_false] at later ⊢
            omega

/-! ## Where they are added -/

/-- Opening parentheses after a label stay what they are. -/
theorem closeCompact_openings
    {parens : List Lexeme} (allOpening : ∀ paren ∈ parens, paren.IsOpening)
    (due : Bool) (rest : List Lexeme) :
    closeCompact due (parens ++ rest) =
      parens.map Lexeme.token ++ closeCompact due rest := by
  induction parens with
  | nil => rfl
  | cons paren parens induction =>
      obtain ⟨isOpening, others⟩ := List.forall_mem_cons.mp allOpening
      rw [List.cons_append, closeCompact_opening due _ isOpening, induction others,
        List.map_cons, List.cons_append]

/-- A compact label and the opening parentheses after it, wherever they are. -/
theorem closeCompact_append_label
    {label : Lexeme} (isCompact : label.isCompact = true) {parens : List Lexeme}
    (allOpening : ∀ paren ∈ parens, paren.IsOpening)
    (due : Bool) (before rest : List Lexeme) :
    closeCompact due (before ++ label :: (parens ++ rest)) =
      closeCompact due before ++
        ⟨.ok .parenLeft, label.location⟩ :: label.token ::
          (parens.map Lexeme.token ++ closeCompact true rest) := by
  rw [closeCompact_append, closeCompact_compact _ _ isCompact,
    closeCompact_openings allOpening]

/-- How compact notation is written out: the parentheses that are added, and where
they are. -/
structure ClosesCompact
    (pieces : List Lexeme) (tokens : List LexedToken) : Prop where
  opened : occurrences .parenLeft (tokens.map (·.result)) =
    occurrences .parenLeft (pieces.map (·.result)) +
      pieces.countP Lexeme.isCompact
  closed : occurrences .parenRight (tokens.map (·.result)) + openLabels pieces =
    occurrences .parenRight (pieces.map (·.result)) +
      pieces.countP Lexeme.isCompact
  /-- As many are added of one kind as of the other if and only if a value comes
  after each label, with nothing but opening parentheses before it. -/
  balanced : occurrences .parenLeft (tokens.map (·.result)) +
        occurrences .parenRight (pieces.map (·.result)) =
      occurrences .parenRight (tokens.map (·.result)) +
        occurrences .parenLeft (pieces.map (·.result)) ↔
    ∀ before label after, pieces = before ++ label :: after →
      label.isCompact = true →
        ∃ parens value rest, after = parens ++ value :: rest ∧
          (∀ paren ∈ parens, paren.IsOpening) ∧ value.IsValue
  /-- A label is closed directly after its value. -/
  atValue : ∀ before label parens value after,
    pieces = before ++ label :: (parens ++ value :: after) →
    label.isCompact = true → (∀ paren ∈ parens, paren.IsOpening) →
    value.IsValue →
      tokens = closeCompact false before ++
        ⟨.ok .parenLeft, label.location⟩ :: label.token ::
          (parens.map Lexeme.token ++
            value.token :: ⟨.ok .parenRight, value.location⟩ ::
              closeCompact false after)
  /-- A label before another one is forgotten: what comes next is written out as if
  nothing were waiting. -/
  atLabel : ∀ before label parens next after,
    pieces = before ++ label :: (parens ++ next :: after) →
    label.isCompact = true → (∀ paren ∈ parens, paren.IsOpening) →
    next.isCompact = true →
      tokens = closeCompact false before ++
        ⟨.ok .parenLeft, label.location⟩ :: label.token ::
          (parens.map Lexeme.token ++ closeCompact false (next :: after))

theorem closesCompact_lex (source file : String) :
    ClosesCompact (lexemes file {} 0 source.toList) (lex source file) := by
  have opened := occurrences_parenLeft_closeCompact false
    (lexemes file {} 0 source.toList)
  have closed : occurrences .parenRight ((lex source file).map (·.result)) +
        openLabels (lexemes file {} 0 source.toList) =
      occurrences .parenRight
          ((lexemes file {} 0 source.toList).map (·.result)) +
        (lexemes file {} 0 source.toList).countP Lexeme.isCompact :=
    occurrences_parenRight_closeCompact false _
  refine ⟨opened, closed, ?_, ?_, ?_⟩
  · simp only [← staysOpen_eq_false_iff, ← openLabels_eq_zero_iff]
    change occurrences .parenLeft ((lex source file).map (·.result)) = _ at opened
    omega
  · intro before label parens value after isText isCompact allOpening isValue
    rw [lex, isText, closeCompact_append_label isCompact allOpening,
      closeCompact_value after isValue]
  · intro before label parens next after isText isCompact allOpening isNext
    rw [lex, isText, closeCompact_append_label isCompact allOpening,
      closeCompact_compact _ after isNext, closeCompact_compact _ after isNext]

/-- Where one label is the value of another, and each has a token after it, the
parentheses need not balance: in `a:b:c` nothing closes `a`. -/
theorem not_all_compact_closed :
    ¬ ∀ source file : String,
      (∀ before label after,
        lexemes file {} 0 source.toList = before ++ label :: after →
          label.isCompact = true → after ≠ []) →
      occurrences .parenLeft ((lex source file).map (·.result)) +
          occurrences .parenRight
            ((lexemes file {} 0 source.toList).map (·.result)) =
        occurrences .parenRight ((lex source file).map (·.result)) +
          occurrences .parenLeft
            ((lexemes file {} 0 source.toList).map (·.result)) := by
  intro balances
  have pieces : lexemes "f" {} 0 "a:b:c".toList =
      [⟨.ok (.label "a"), ⟨"f", 0, 1, 0, 0⟩, true⟩,
        ⟨.ok (.label "b"), ⟨"f", 2, 3, 0, 2⟩, true⟩,
        ⟨.ok (.label "c"), ⟨"f", 4, 5, 0, 4⟩, false⟩] :=
    rfl
  have unequal := balances "a:b:c" "f" (by
    rintro before label after isText isCompact rfl
    have isLast := congrArg List.getLast? (pieces.symm.trans isText)
    rw [List.getLast?_append, List.getLast?_singleton] at isLast
    cases isLast
    cases isCompact)
  exact absurd unequal (by decide +kernel)

end LdpScore.Token
