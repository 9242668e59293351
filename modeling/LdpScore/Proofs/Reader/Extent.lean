import LdpScore.Proofs.Reader.Spelling

/-!
# No character of a text is lost

The tokens of a text stand one after the other.  Each of them is written where its
location says, except for the parentheses that compact notation adds: these share
the place of the token that they are added to.  What lies between the tokens is
blank, or part of a comment, or the colon of compact notation.

`Cuts` says how a text falls into gaps and pieces and which tokens come of them.
It holds of every text and its tokens, and all that is said here about locations
is proved from it.
-/

namespace LdpScore

/-- The characters of a text at a location. -/
def Location.textIn (location : Location) (source : List Char) : List Char :=
  source.extract location.start location.stop

/-- Whether a character of the text lies in a location. -/
def Location.Covers (location : Location) (index : Nat) : Prop :=
  location.start ≤ index ∧ index < location.stop

namespace Token

/-- How a token may be written. -/
inductive IsWritten : Token → List Char → Prop
  | parenLeft : IsWritten .parenLeft ['(']
  | parenRight : IsWritten .parenRight [')']
  | label (text : String) : IsWritten (.label text) text.toList
  | number (text : String) : IsWritten (.number text) text.toList
  | quoted (content : String) {quote : Char} (isQuote : quote = '"' ∨ quote = '\'')
      (ends : quote ∉ content.toList) :
      IsWritten (.quoted content) (quote :: (content.toList ++ [quote]))
  /-- An underscore may stand before a quoted text. -/
  | marked (content : String) (ends : '"' ∉ content.toList) :
      IsWritten (.quoted content) ('_' :: '"' :: (content.toList ++ ['"']))

def IsBlank (character : Char) : Prop :=
  character = ' ' ∨ character = '\t' ∨ character = '\r' ∨ character = '\n'

/-- Two slashes and the rest of their line. -/
def IsComment (source : List Char) (start stop : Nat) : Prop :=
  ∃ text, source.extract start stop = '/' :: '/' :: text ∧ '\n' ∉ text ∧
    ∀ character, source[stop]? = some character → character = '\n'

end Token

namespace LexedToken

/-- Whether a token is written where its location says.  Nothing is said of a piece
of text that is no token. -/
def IsWrittenIn (token : LexedToken) (source : List Char) : Prop :=
  ∀ written, token.result = .ok written →
    written.IsWritten (token.location.textIn source)

/-- Whether a token is a parenthesis at the place of its neighbour: of the token
after it if it opens, and of the token before it if it closes. -/
def IsAdded
    (token : LexedToken) (before after : List LexedToken) : Prop :=
  (token.result = .ok .parenLeft ∧
    ∃ next, after.head? = some next ∧ next.location = token.location) ∨
  (token.result = .ok .parenRight ∧
    ∃ last, before.getLast? = some last ∧ last.location = token.location)

/-- Whether one of two tokens is a parenthesis that compact notation may add to the
other one: an opening one to a label that stands before a colon, or a closing one to
any value. -/
def Adjoins (first second : LexedToken) (source : List Char) : Prop :=
  (first.result = .ok .parenLeft ∧ Token.isLabel second.result = true ∧
      source[second.location.stop]? = some ':') ∨
    (first.result ≠ .ok .parenLeft ∧ second.result = .ok .parenRight)

end LexedToken

namespace Token

/-- What may be left out by the tokens of a text. -/
inductive IsSkipped
    (source : List Char) (tokens : List LexedToken) (index : Nat) : Prop
  | blank (character : Char) (isHere : source[index]? = some character)
      (isBlank : IsBlank character)
  /-- A comment that no token reaches into. -/
  | comment (start stop : Nat) (isComment : IsComment source start stop)
      (fromStart : start ≤ index) (beforeStop : index < stop)
      (apart : ∀ token ∈ tokens,
        token.location.stop ≤ start ∨ stop ≤ token.location.start)
  /-- A colon right after a label. -/
  | colon (label : LexedToken) (listed : label ∈ tokens)
      (isLabel : isLabel label.result = true)
      (isNext : label.location.stop = index)
      (isHere : source[index]? = some ':')

/-- A text and tokens that stand for all of it. -/
structure Preserves (source : List Char) (tokens : List LexedToken) : Prop where
  inside : ∀ token ∈ tokens, token.location.start < token.location.stop ∧
    token.location.stop ≤ source.length
  /-- Tokens are apart, unless compact notation has added one to the other. -/
  ordered : tokens.Pairwise fun first second =>
    first.location.stop ≤ second.location.start ∨
      (first.location = second.location ∧ first.Adjoins second source)
  written : ∀ before token after, tokens = before ++ token :: after →
    token.IsAdded before after ∨ token.IsWrittenIn source
  skipped : ∀ index < source.length,
    (∀ token ∈ tokens, ¬ token.location.Covers index) →
      IsSkipped source tokens index

/-! ## Gaps and pieces -/

/-- What may stand between two tokens, before the rest of a text. -/
inductive IsGap : List Char → List Char → Prop
  | blank {character : Char} (isBlank : IsBlank character) (rest : List Char) :
      IsGap [character] rest
  | comment {text rest : List Char} (sameLine : '\n' ∉ text)
      (ends : ∀ character, rest.head? = some character → character = '\n') :
      IsGap ('/' :: '/' :: text) rest

/-- Whether some characters, at least one, are what a piece stands for. -/
structure IsPiece (result : Except LexicalError Token) (text : List Char) :
    Prop where
  nonempty : text ≠ []
  written : ∀ token, result = .ok token → token.IsWritten text

theorem IsPiece.error (error : LexicalError) {text : List Char}
    (nonempty : text ≠ []) :
    IsPiece (.error error) text :=
  ⟨nonempty, fun _ impossible => by cases impossible⟩

theorem IsPiece.ok {token : Token} {text : List Char}
    (nonempty : text ≠ []) (written : token.IsWritten text) :
    IsPiece (.ok token) text := by
  refine ⟨nonempty, fun other same => ?_⟩
  cases same
  exact written

/-- A word is written as it is, be it a label or a number. -/
theorem isWritten_ofWord (word : List Char) : (ofWord word).IsWritten word := by
  have isText : (String.ofList word).toList = word := String.toList_ofList
  rw [ofWord]
  split
  · simpa only [isText] using IsWritten.number (String.ofList word)
  · simpa only [isText] using IsWritten.label (String.ofList word)

/-- What is read after a quote: a text up to the next quote, or all that is left. -/
theorem scanText_cases
    {delimiter : Char} {rest : List Char} {length : Nat}
    {result : Except LexicalError Token}
    (scanned : scanText delimiter rest = (result, length)) :
    (∃ content after, rest = content ++ delimiter :: after ∧
        length = (content ++ [delimiter]).length ∧ delimiter ∉ content ∧
        result = .ok (.quoted (String.ofList content))) ∨
      (length = rest.length ∧ result = .error .unterminatedString) := by
  have whole : rest.takeWhile (· != delimiter) ++
      rest.dropWhile (· != delimiter) = rest :=
    List.takeWhile_append_dropWhile
  have noQuote : delimiter ∉ rest.takeWhile (· != delimiter) := by
    intro listed
    exact absurd (List.mem_takeWhile_imp listed) (by simp)
  have dropped : rest.drop (rest.takeWhile (· != delimiter)).length =
      rest.dropWhile (· != delimiter) := by
    have isDrop : (rest.takeWhile (· != delimiter) ++
        rest.dropWhile (· != delimiter)).drop
          (rest.takeWhile (· != delimiter)).length =
        rest.dropWhile (· != delimiter) :=
      List.drop_left
    rwa [whole] at isDrop
  rw [scanText, dropped] at scanned
  cases isRest : rest.dropWhile (· != delimiter) with
  | nil =>
      rw [isRest] at scanned whole
      cases scanned
      refine .inr ⟨?_, rfl⟩
      rw [← congrArg List.length whole, List.append_nil]
  | cons quote after =>
      rw [isRest] at scanned whole
      cases scanned
      have isQuote : quote = delimiter := by
        have stops := List.head?_dropWhile_not (· != delimiter) rest
        rw [isRest] at stops
        simpa using stops
      rw [isQuote] at whole
      exact .inl ⟨_, after, whole.symm, by simp, noQuote, rfl⟩

/-- Where there is no piece there is a gap. -/
theorem scan_gap
    {first : Char} {rest : List Char} {length : Nat}
    (scanned : scan first rest = (none, length)) :
    ∃ text after, rest = text ++ after ∧ length = text.length ∧
      IsGap (first :: text) after := by
  unfold scan at scanned
  split at scanned
  case isTrue isBlank =>
    cases scanned
    exact ⟨[], rest, rfl, rfl, .blank (by simpa [IsBlank, or_assoc] using isBlank) _⟩
  split at scanned
  case isTrue opens =>
    cases scanned
    obtain ⟨isSlash, slashNext⟩ : first = '/' ∧ rest.head? = some '/' := by
      simpa using opens
    cases isSlash
    cases rest with
    | nil => cases slashNext
    | cons second rest =>
        cases slashNext
        refine ⟨'/' :: rest.takeWhile (· != '\n'), rest.dropWhile (· != '\n'),
          ?_, rfl, .comment ?_ ?_⟩
        · rw [List.cons_append, List.takeWhile_append_dropWhile]
        · intro listed
          exact absurd (List.mem_takeWhile_imp listed) (by simp)
        · intro character isNext
          have stops := List.head?_dropWhile_not (· != '\n') rest
          rw [isNext] at stops
          simpa using stops
  split at scanned
  · cases scanned
  split at scanned
  · cases scanned
  split at scanned
  · cases scanned
  split at scanned
  · cases scanned
  split at scanned
  · cases scanned
  · cases scanned

/-- A piece is cut out of the text as it is written. -/
theorem scan_piece
    {first : Char} {rest : List Char} {length : Nat}
    {result : Except LexicalError Token}
    (scanned : scan first rest = (some result, length)) :
    ∃ text after, rest = text ++ after ∧ length = text.length ∧
      IsPiece result (first :: text) := by
  unfold scan at scanned
  split at scanned
  · cases scanned
  split at scanned
  · cases scanned
  split at scanned
  case isTrue isParen =>
    cases scanned
    obtain rfl := beq_iff_eq.mp isParen
    exact ⟨[], rest, rfl, rfl, .ok (by simp) .parenLeft⟩
  split at scanned
  case isTrue isParen =>
    cases scanned
    obtain rfl := beq_iff_eq.mp isParen
    exact ⟨[], rest, rfl, rfl, .ok (by simp) .parenRight⟩
  split at scanned
  case isTrue isQuote =>
    cases cut : scanText first rest with
    | mk outcome size =>
      rw [cut] at scanned
      cases scanned
      rcases scanText_cases cut with
        ⟨content, after, rfl, rfl, ends, rfl⟩ | ⟨rfl, rfl⟩
      · refine ⟨content ++ [first], after, by simp, rfl, .ok (by simp) ?_⟩
        have written := IsWritten.quoted (String.ofList content)
          (by simpa using isQuote : first = '"' ∨ first = '\'')
          (by simpa using ends)
        simpa only [String.toList_ofList] using written
      · exact ⟨rest, [], by simp, rfl, .error _ (by simp)⟩
  split at scanned
  case isTrue isMarked =>
    obtain ⟨isUnderscore, quoteNext⟩ : first = '_' ∧ rest.head? = some '"' := by
      simpa using isMarked
    cases isUnderscore
    cases rest with
    | nil => cases quoteNext
    | cons second rest =>
        cases quoteNext
        cases cut : scanText '"' rest with
        | mk outcome size =>
          rw [List.tail_cons, cut] at scanned
          cases scanned
          rcases scanText_cases cut with
            ⟨content, after, rfl, rfl, ends, rfl⟩ | ⟨rfl, rfl⟩
          · refine ⟨'"' :: (content ++ ['"']), after, by simp, by simp,
              .ok (by simp) ?_⟩
            have written := IsWritten.marked (String.ofList content)
              (by simpa using ends)
            simpa only [String.toList_ofList] using written
          · exact ⟨'"' :: rest, [], by simp, by simp, .error _ (by simp)⟩
  split at scanned
  · cases scanned
    exact ⟨rest.takeWhile isLabelChar, rest.dropWhile isLabelChar,
      List.takeWhile_append_dropWhile.symm, rfl,
      .ok (by simp) (isWritten_ofWord _)⟩
  · cases scanned
    exact ⟨[], rest, rfl, rfl, .error _ (by simp)⟩

/-! ## How a text is cut -/

/-- What stands at a position falls into gaps and pieces, and these tokens come of
them. -/
inductive Cuts (file : String) :
    Position → List Char → List LexedToken → Prop
  | done (position : Position) : Cuts file position [] []
  | skip {position : Position} {text rest : List Char} {tokens : List LexedToken}
      (isGap : IsGap text rest)
      (later : Cuts file (position.skip text) rest tokens) :
      Cuts file position (text ++ rest) tokens
  | single {position : Position} {text rest : List Char}
      {tokens : List LexedToken} {result : Except LexicalError Token}
      (isPiece : IsPiece result text)
      (later : Cuts file (position.skip text) rest tokens) :
      Cuts file position (text ++ rest)
        (⟨result, .between file position (position.offset + text.length)⟩ ::
          tokens)
  /-- A label with a colon, which opens an element. -/
  | opening {position : Position} {name : String} {rest : List Char}
      {tokens : List LexedToken} (nonempty : name.toList ≠ [])
      (later : Cuts file (position.skip (name.toList ++ [':'])) rest tokens) :
      Cuts file position (name.toList ++ [':'] ++ rest)
        (⟨.ok .parenLeft,
            .between file position (position.offset + name.toList.length)⟩ ::
          ⟨.ok (.label name),
            .between file position (position.offset + name.toList.length)⟩ ::
          tokens)
  /-- A value after which such an element is closed. -/
  | closing {position : Position} {text rest : List Char}
      {tokens : List LexedToken} {result : Except LexicalError Token}
      (isPiece : IsPiece result text) (isValue : result ≠ .ok .parenLeft)
      (later : Cuts file (position.skip text) rest tokens) :
      Cuts file position (text ++ rest)
        (⟨result, .between file position (position.offset + text.length)⟩ ::
          ⟨.ok .parenRight,
            .between file position (position.offset + text.length)⟩ ::
          tokens)

/-- A label is what is written before a colon of compact notation. -/
theorem exists_name_of_isLabel
    {result : Except LexicalError Token} {text : List Char}
    (isPiece : IsPiece result text) (named : isLabel result = true) :
    ∃ name, result = .ok (.label name) ∧ text = name.toList := by
  unfold isLabel at named
  split at named
  case h_1 name =>
    refine ⟨name, rfl, ?_⟩
    cases isPiece.written _ rfl
    rfl
  case h_2 => cases named

/-- What is left after a character and some text is shorter. -/
theorem length_after_lt (first : Char) (text after : List Char) :
    after.length < (first :: (text ++ after)).length := by
  rw [List.length_cons, List.length_append]
  omega

/-- Every text is cut into its tokens, whether or not a parenthesis is due. -/
theorem cuts_closeCompact
    (file : String) (due : Bool) (position : Position) (text : List Char) :
    Cuts file position text (closeCompact due (lexemes file position 0 text)) := by
  -- The text after a gap or a piece is shorter.
  induction size : text.length using Nat.strongRecOn
    generalizing due position text with
  | ind size induction =>
  subst size
  cases text with
  | nil => exact .done position
  | cons first rest =>
  cases scanned : scan first rest with
  | mk outcome length =>
  cases outcome with
  | none =>
      obtain ⟨text, after, rfl, rfl, isGap⟩ := scan_gap scanned
      have later := induction after.length (length_after_lt first text after) due
        (position.skip (first :: text)) after rfl
      rw [lexemes, scanned]
      dsimp only
      rw [lexemes_covered]
      exact .skip isGap later
  | some result =>
      obtain ⟨text, after, rfl, rfl, isPiece⟩ := scan_piece scanned
      have stop : position.offset + 1 + text.length =
          position.offset + (first :: text).length := by
        rw [List.length_cons]
        omega
      rw [lexemes, scanned]
      dsimp only
      rw [List.drop_left, stop]
      by_cases isCompact : (isLabel result && after.head? == some ':') = true
      · obtain ⟨named, isColon⟩ :
            isLabel result = true ∧ after.head? = some ':' := by
          simpa using isCompact
        obtain ⟨name, rfl, isName⟩ := exists_name_of_isLabel isPiece named
        cases after with
        | nil => cases isColon
        | cons colon after =>
            cases isColon
            have shorter :
                after.length < (first :: (text ++ ':' :: after)).length :=
              Nat.lt_of_succ_lt (length_after_lt first text (':' :: after))
            have later := induction after.length shorter true
              (position.skip (name.toList ++ [':'])) after rfl
            have covered : lexemes file (position.next first) (text.length + 1)
                (text ++ ':' :: after) =
                lexemes file (position.skip (name.toList ++ [':'])) 0 after := by
              have passed := lexemes_covered file (position.next first)
                (text ++ [':']) after
              rw [← isName]
              simpa using passed
            have cut := Cuts.opening (isName ▸ isPiece.nonempty) later
            rw [← isName, List.append_assoc] at cut
            rw [isCompact, if_pos rfl, covered, closeCompact, if_pos rfl, ← isName]
            exact cut
      · have later := fun due =>
          induction after.length (length_after_lt first text after) due
            (position.skip (first :: text)) after rfl
        rw [eq_false_of_ne_true isCompact, if_neg Bool.false_ne_true,
          lexemes_covered, closeCompact, if_neg Bool.false_ne_true]
        split
        case isTrue closes =>
          refine .closing isPiece ?_ (later false)
          rintro rfl
          cases (Bool.and_eq_true_iff.mp closes).2
        case isFalse => exact .single isPiece (later due)

/-! ## What is left of the source -/

namespace Cuts

variable {file : String} {position : Position} {text source : List Char}
variable {tokens : List LexedToken}

/-- What is left of the source after some of it has been passed over. -/
theorem drop_skip
    {front rest : List Char}
    (isRest : source.drop position.offset = front ++ rest) :
    source.drop (position.skip front).offset = rest := by
  rw [Position.skip_offset, ← List.drop_drop, isRest, List.drop_left]

theorem extract_front
    {offset : Nat} {front rest : List Char}
    (isRest : source.drop offset = front ++ rest) :
    source.extract offset (offset + front.length) = front := by
  rw [List.extract_eq_take_drop, isRest, Nat.add_sub_cancel_left, List.take_left]

theorem getElem?_of_drop
    {index : Nat} {rest : List Char} (isRest : source.drop index = rest) :
    source[index]? = rest.head? := by
  rw [← isRest, List.head?_drop]

theorem colon_next
    {name rest : List Char}
    (isRest : source.drop position.offset = name ++ [':'] ++ rest) :
    source[position.offset + name.length]? = some ':' := by
  rw [List.append_assoc] at isRest
  have isColon := drop_skip isRest
  rw [Position.skip_offset] at isColon
  exact getElem?_of_drop isColon

/-! ## Where the tokens stand -/

/-- Tokens stand between the position and the end of the text. -/
theorem bounds (cuts : Cuts file position text tokens) :
    ∀ token ∈ tokens, position.offset ≤ token.location.start ∧
      token.location.start < token.location.stop ∧
      token.location.stop ≤ position.offset + text.length := by
  have widen : ∀ {position : Position} {text rest : List Char}
      {tokens : List LexedToken},
      (∀ token ∈ tokens, (position.skip text).offset ≤ token.location.start ∧
        token.location.start < token.location.stop ∧
        token.location.stop ≤ (position.skip text).offset + rest.length) →
      ∀ token ∈ tokens, position.offset ≤ token.location.start ∧
        token.location.start < token.location.stop ∧
        token.location.stop ≤ position.offset + (text ++ rest).length := by
    intro position text rest tokens narrow token listed
    have known := narrow token listed
    rw [Position.skip_offset] at known
    rw [List.length_append]
    omega
  have here : ∀ {position : Position} {text rest : List Char}, text ≠ [] →
      position.offset ≤ position.offset ∧
        position.offset < position.offset + text.length ∧
        position.offset + text.length ≤
          position.offset + (text ++ rest).length := by
    intro position text rest nonempty
    have atLeast := List.length_pos_iff.mpr nonempty
    rw [List.length_append]
    omega
  induction cuts with
  | done => exact fun _ impossible => absurd impossible List.not_mem_nil
  | skip isGap _ induction => exact widen induction
  | single isPiece _ induction =>
      exact List.forall_mem_cons.mpr ⟨here isPiece.nonempty, widen induction⟩
  | @opening position name rest tokens nonempty _ induction =>
      have label := @here position name.toList ([':'] ++ rest) nonempty
      rw [← List.append_assoc] at label
      exact List.forall_mem_cons.mpr ⟨label,
        List.forall_mem_cons.mpr ⟨label, widen induction⟩⟩
  | closing isPiece _ _ induction =>
      exact List.forall_mem_cons.mpr ⟨here isPiece.nonempty,
        List.forall_mem_cons.mpr ⟨here isPiece.nonempty, widen induction⟩⟩

/-- Whatever stands before some text stands before its tokens. -/
theorem stop_le_start
    {front : List Char} (cuts : Cuts file (position.skip front) text tokens)
    {stop : Nat} (before : stop ≤ position.offset + front.length) :
    ∀ token ∈ tokens, stop ≤ token.location.start := by
  intro token listed
  have known := (cuts.bounds token listed).1
  rw [Position.skip_offset] at known
  exact Nat.le_trans before known

theorem ordered
    (cuts : Cuts file position text tokens)
    (isRest : source.drop position.offset = text) :
    tokens.Pairwise fun first second =>
      first.location.stop ≤ second.location.start ∨
        (first.location = second.location ∧ first.Adjoins second source) := by
  induction cuts with
  | done => exact .nil
  | skip _ _ induction => exact induction (drop_skip isRest)
  | single _ later induction =>
      refine .cons (fun token listed => .inl ?_) (induction (drop_skip isRest))
      exact later.stop_le_start (Nat.le_refl _) token listed
  | @opening position name rest tokens _ later induction =>
      have beforeColon : position.offset + name.toList.length ≤
          position.offset + (name.toList ++ [':']).length := by simp
      have apart := later.stop_le_start beforeColon
      have adjoins := colon_next isRest
      refine .cons
        (List.forall_mem_cons.mpr ⟨.inr ⟨rfl, .inl ⟨rfl, rfl, adjoins⟩⟩, ?_⟩)
        (.cons ?_ (induction (drop_skip isRest)))
      · exact fun token listed => .inl (apart token listed)
      · exact fun token listed => .inl (apart token listed)
  | closing _ isValue later induction =>
      have apart := later.stop_le_start (Nat.le_refl _)
      refine .cons
        (List.forall_mem_cons.mpr ⟨.inr ⟨rfl, .inr ⟨isValue, rfl⟩⟩, ?_⟩)
        (.cons ?_ (induction (drop_skip isRest)))
      · exact fun token listed => .inl (apart token listed)
      · exact fun token listed => .inl (apart token listed)

/-! ## What the tokens say -/

/-- Every token is written where it stands or was added to its neighbour. -/
theorem written
    (cuts : Cuts file position text tokens)
    (isRest : source.drop position.offset = text) :
    ∀ before token after, tokens = before ++ token :: after →
      token.IsAdded before after ∨ token.IsWrittenIn source := by
  -- A token that was added is still added when there are more tokens before it.
  have more : ∀ {first token : LexedToken} {before after : List LexedToken},
      token.IsAdded before after ∨ token.IsWrittenIn source →
        token.IsAdded (first :: before) after ∨ token.IsWrittenIn source := by
    intro first token before after known
    refine known.imp_left (Or.imp_right ?_)
    rintro ⟨closes, last, isLast, same⟩
    refine ⟨closes, last, ?_, same⟩
    rw [List.getLast?_cons, isLast]
    rfl
  have isWritten : ∀ {position : Position} {text rest : List Char}
      {result : Except LexicalError Token}, IsPiece result text →
      source.drop position.offset = text ++ rest →
        LexedToken.IsWrittenIn
          ⟨result, .between file position (position.offset + text.length)⟩
          source := by
    intro position text rest result isPiece isRest token isToken
    rw [Location.textIn, Location.between, extract_front isRest]
    exact isPiece.written token isToken
  induction cuts with
  | done =>
      intro before token after impossible
      cases before <;> cases impossible
  | skip _ _ induction => exact induction (drop_skip isRest)
  | single isPiece _ induction =>
      intro before token after isSplit
      cases before with
      | nil =>
          cases isSplit
          exact .inr (isWritten isPiece isRest)
      | cons first before =>
          cases isSplit
          exact more (induction (drop_skip isRest) before token after rfl)
  | @opening position name rest tokens nonempty _ induction =>
      intro before token after isSplit
      rcases before with _ | ⟨first, _ | ⟨second, before⟩⟩
      · cases isSplit
        exact .inl (.inl ⟨rfl, _, rfl, rfl⟩)
      · cases isSplit
        rw [List.append_assoc] at isRest
        exact .inr (isWritten (.ok nonempty (.label name)) isRest)
      · cases isSplit
        exact more (more (induction (drop_skip isRest) before token after rfl))
  | closing isPiece _ _ induction =>
      intro before token after isSplit
      rcases before with _ | ⟨first, _ | ⟨second, before⟩⟩
      · cases isSplit
        exact .inr (isWritten isPiece isRest)
      · cases isSplit
        exact .inl (.inr ⟨rfl, _, rfl, rfl⟩)
      · cases isSplit
        exact more (more (induction (drop_skip isRest) before token after rfl))

/-! ## What no token stands for -/

/-- A gap is a blank or a comment of the whole text. -/
theorem isSkipped_of_isGap
    {gap rest : List Char} (isGap : IsGap gap rest)
    (isRest : source.drop position.offset = gap ++ rest) {index : Nat}
    (fromStart : position.offset ≤ index)
    (beforeStop : index < position.offset + gap.length)
    (apart : ∀ token ∈ tokens, token.location.stop ≤ position.offset ∨
      position.offset + gap.length ≤ token.location.start) :
    IsSkipped source tokens index := by
  cases isGap with
  | @blank character isBlank =>
      rw [List.length_singleton] at beforeStop
      obtain rfl : index = position.offset := by omega
      exact .blank character (getElem?_of_drop isRest) isBlank
  | @comment comment _ sameLine ends =>
      refine .comment position.offset _
        ⟨comment, extract_front isRest, sameLine, ?_⟩ fromStart beforeStop apart
      have after := drop_skip isRest
      rw [Position.skip_offset] at after
      intro character isNext
      rw [getElem?_of_drop after] at isNext
      exact ends character isNext

/-- Some tokens account for all of a text at an offset of the source: where none of
them stands, and none of those before the offset, the source may leave a gap. -/
def Accounts
    (source : List Char) (offset : Nat) (text : List Char)
    (tokens : List LexedToken) : Prop :=
  ∀ earlier : List LexedToken,
    (∀ token ∈ earlier, token.location.stop ≤ offset) →
    ∀ index, offset ≤ index → index < offset + text.length →
      (∀ token ∈ earlier ++ tokens, ¬ token.location.Covers index) →
        IsSkipped source (earlier ++ tokens) index

/-- It is enough to look at the front of a text with the tokens that stand there. -/
theorem Accounts.append
    {offset : Nat} {front rest : List Char} (pieces : List LexedToken)
    (later : Accounts source (offset + front.length) rest tokens)
    (within : ∀ token ∈ pieces, token.location.stop ≤ offset + front.length)
    (here : ∀ earlier : List LexedToken,
      (∀ token ∈ earlier, token.location.stop ≤ offset) →
      ∀ index, offset ≤ index → index < offset + front.length →
        (∀ token ∈ pieces, ¬ token.location.Covers index) →
          IsSkipped source (earlier ++ (pieces ++ tokens)) index) :
    Accounts source offset (front ++ rest) (pieces ++ tokens) := by
  intro earlier before index fromOffset inText uncovered
  rw [List.length_append, ← Nat.add_assoc] at inText
  by_cases inFront : index < offset + front.length
  · refine here earlier before index fromOffset inFront fun token listed => ?_
    exact uncovered token (by simp [listed])
  · rw [← List.append_assoc] at uncovered ⊢
    have passed : ∀ token ∈ earlier ++ pieces,
        token.location.stop ≤ offset + front.length :=
      List.forall_mem_append.mpr
        ⟨fun token listed =>
          Nat.le_trans (before token listed) (Nat.le_add_right _ _), within⟩
    exact later _ passed index (Nat.not_lt.mp inFront) inText uncovered

/-- Nothing is left out where a token stands. -/
theorem Accounts.covered
    {offset : Nat} {front rest : List Char} (pieces : List LexedToken)
    (later : Accounts source (offset + front.length) rest tokens)
    (within : ∀ token ∈ pieces, token.location.stop ≤ offset + front.length)
    (covers : ∃ token ∈ pieces, token.location.start = offset ∧
      token.location.stop = offset + front.length) :
    Accounts source offset (front ++ rest) (pieces ++ tokens) := by
  refine later.append pieces within fun earlier _ index fromOffset inFront uncovered => ?_
  obtain ⟨token, listed, starts, stops⟩ := covers
  rw [← starts] at fromOffset
  rw [← stops] at inFront
  exact absurd ⟨fromOffset, inFront⟩ (uncovered token listed)

theorem accounts
    (cuts : Cuts file position text tokens)
    (isRest : source.drop position.offset = text) :
    Accounts source position.offset text tokens := by
  induction cuts with
  | done =>
      intro earlier _ index fromOffset inText
      exact absurd inText (Nat.not_lt.mpr fromOffset)
  | skip isGap later induction =>
      have accounts := induction (drop_skip isRest)
      rw [Position.skip_offset] at accounts
      refine accounts.append [] (fun _ => List.not_mem_nil.elim)
        fun earlier before index fromOffset inGap _ => ?_
      refine isSkipped_of_isGap isGap isRest fromOffset inGap ?_
      refine List.forall_mem_append.mpr
        ⟨fun token listed => .inl (before token listed),
          fun token listed => .inr ?_⟩
      exact later.stop_le_start (Nat.le_refl _) token listed
  | single _ _ induction =>
      have accounts := induction (drop_skip isRest)
      rw [Position.skip_offset] at accounts
      refine accounts.covered [_] ?_ ⟨_, .head _, rfl, rfl⟩
      exact List.forall_mem_cons.mpr ⟨Nat.le_refl _, fun _ => List.not_mem_nil.elim⟩
  | closing _ _ _ induction =>
      have accounts := induction (drop_skip isRest)
      rw [Position.skip_offset] at accounts
      refine accounts.covered [_, _] ?_ ⟨_, .head _, rfl, rfl⟩
      exact List.forall_mem_cons.mpr ⟨Nat.le_refl _,
        List.forall_mem_cons.mpr ⟨Nat.le_refl _, fun _ => List.not_mem_nil.elim⟩⟩
  | @opening position name rest tokens _ _ induction =>
      have accounts := induction (drop_skip isRest)
      rw [Position.skip_offset] at accounts
      have inFront : position.offset + name.toList.length ≤
          position.offset + (name.toList ++ [':']).length := by simp
      refine accounts.append [_, _] ?_ ?_
      · exact List.forall_mem_cons.mpr ⟨inFront,
          List.forall_mem_cons.mpr ⟨inFront, fun _ => List.not_mem_nil.elim⟩⟩
      · intro earlier _ index fromOffset inFront uncovered
        rw [List.length_append, List.length_singleton] at inFront
        have afterName : position.offset + name.toList.length ≤ index :=
          Nat.not_lt.mp fun inName => uncovered _ (.head _) ⟨fromOffset, inName⟩
        obtain rfl : index = position.offset + name.toList.length := by omega
        exact .colon _ (List.mem_append_right _ (.tail _ (.head _))) rfl rfl
          (colon_next isRest)

/-- Tokens that are cut out of a whole text stand for all of it. -/
theorem preserves
    (cuts : Cuts file {} source tokens) : Preserves source tokens := by
  refine ⟨fun token listed => ?_, cuts.ordered rfl, cuts.written rfl, ?_⟩
  · have known := cuts.bounds token listed
    exact ⟨known.2.1, by simpa using known.2.2⟩
  · intro index inside uncovered
    exact cuts.accounts rfl [] (fun _ => List.not_mem_nil.elim) index
      (Nat.zero_le _) (by simpa using inside) uncovered

end Cuts

/-- Every text is cut into its tokens. -/
theorem cuts_lex (source file : String) :
    Cuts file {} source.toList (lex source file) :=
  cuts_closeCompact file false {} source.toList

/-- Every text is preserved by its tokens. -/
theorem preserves_lex (source file : String) :
    Preserves source.toList (lex source file) :=
  (cuts_lex source file).preserves

end Token

end LdpScore
