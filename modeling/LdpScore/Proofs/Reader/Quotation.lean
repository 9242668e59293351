import LdpScore.Proofs.Reader.RoundTrip

/-!
# Quotes around a text

A text stands in one of two kinds of quotes, and all that it cannot contain is the
quote that begins it.  It is always written in double quotes.  So a text that has
been read is read again as it was if and only if there is no double quote in it.
A text with a double quote ends there when it is read again, although it stood in
single quotes and would be read from them.
-/

namespace LdpScore

namespace Token

theorem noDelimiter_of_scanText
    {delimiter : Char} {rest : List Char} {content : String} {length : Nat}
    (scanned : scanText delimiter rest = (.ok (quoted content), length)) :
    delimiter ∉ content.toList := by
  unfold scanText at scanned
  dsimp only at scanned
  split at scanned <;> cases scanned
  rw [String.toList_ofList]
  exact fun listed => absurd (List.mem_takeWhile_imp listed) (by simp)

theorem ofWord_ne_quoted (word : List Char) (content : String) :
    ofWord word ≠ quoted content := by
  unfold ofWord
  split <;> exact nofun

/-- What is quoted does not contain both quotes. -/
theorem lacksQuote_of_scan
    {first : Char} {rest : List Char} {content : String} {length : Nat}
    (scanned : scan first rest = (some (.ok (quoted content)), length)) :
    '"' ∉ content.toList ∨ '\'' ∉ content.toList := by
  unfold scan at scanned
  split at scanned
  · cases scanned
  split at scanned
  · cases scanned
  split at scanned
  · cases scanned
  split at scanned
  · cases scanned
  split at scanned
  case isTrue isQuote =>
    cases cut : scanText first rest with
    | mk result size =>
      rw [cut] at scanned
      cases scanned
      have noQuote := noDelimiter_of_scanText cut
      rcases (by simpa using isQuote : first = '"' ∨ first = '\'') with rfl | rfl
      · exact .inl noQuote
      · exact .inr noQuote
  split at scanned
  · cases cut : scanText '"' rest.tail with
    | mk result size =>
      rw [cut] at scanned
      cases scanned
      exact .inl (noDelimiter_of_scanText cut)
  split at scanned
  · exact absurd (Except.ok.inj (Option.some.inj (congrArg Prod.fst scanned)))
      (ofWord_ne_quoted _ _)
  · cases scanned

theorem lacksQuote_of_mem_lex
    {source file : String} {token : LexedToken} {content : String}
    (listed : token ∈ lex source file)
    (isQuoted : token.result = .ok (quoted content)) :
    '"' ∉ content.toList ∨ '\'' ∉ content.toList := by
  rcases mem_closeCompact listed with opens | closes | ⟨piece, isPiece, same⟩
  · cases isQuoted.symm.trans opens
  · cases isQuoted.symm.trans closes
  · obtain ⟨first, rest, length, scanned⟩ := exists_scan_of_mem isPiece
    rw [← same, isQuoted] at scanned
    exact lacksQuote_of_scan scanned

/-- A text that begins with a quote is cut at the next such quote. -/
theorem results_of_quote
    {quote : Char} {content : List Char} (isQuote : quote = '"' ∨ quote = '\'')
    (noQuote : quote ∉ content) (file : String) (position : Position)
    (rest : List Char) :
    results file position (quote :: (content ++ [quote] ++ rest)) =
      .ok (quoted (String.ofList content)) ::
        results file (position.skip (quote :: (content ++ [quote]))) rest :=
  results_of_scan (scan_quote isQuote noQuote rest) nofun file position

end Token

namespace Node

open Token (results results_of_quote lacksQuote_of_mem_lex)

/-- The tokens of what is written for a text. -/
theorem results_toLdp_string (content : String) (location : Location) (file : String) :
    (Token.lex (leaf .string content location).toLdp file).map LexedToken.result =
      results file {} ('"' :: (content.toList ++ ['"'])) := by
  rw [show '"' :: (content.toList ++ ['"']) =
      (leaf .string content location).toLdp.toList from
    (toList_toLdp_leaf .string content location).symm]
  rfl

/-- A text that has been read is read again, as one token, if and only if there is no
double quote in it.  Otherwise the first token is the part before its first double
quote, and from single quotes it is read as it was. -/
theorem rereads_iff_of_mem_lex
    {source file : String} {token : LexedToken} {content : String}
    (listed : token ∈ Token.lex source file)
    (isQuoted : token.result = .ok (.quoted content))
    (location : Location) (copy : String) :
    ((Token.lex (leaf .string content location).toLdp copy).map LexedToken.result =
        [.ok (.quoted content)] ↔ '"' ∉ content.toList) ∧
      ∀ front back, content.toList = front ++ '"' :: back → '"' ∉ front →
        ((Token.lex (leaf .string content location).toLdp copy).map
            LexedToken.result).head? = some (.ok (.quoted (String.ofList front))) ∧
          results copy {} ('\'' :: (content.toList ++ ['\''])) =
            [.ok (.quoted content)] := by
  have fromQuotes : ∀ {quote}, quote = '"' ∨ quote = '\'' → quote ∉ content.toList →
      results copy {} (quote :: (content.toList ++ [quote])) =
        [.ok (.quoted content)] := by
    intro quote isQuote noQuote
    have cut := results_of_quote isQuote noQuote copy {} []
    rw [List.append_nil, String.ofList_toList] at cut
    exact cut
  have endsAtQuote : ∀ {front back}, content.toList = front ++ '"' :: back →
      '"' ∉ front →
        (results copy {} ('"' :: (content.toList ++ ['"']))).head? =
          some (.ok (.quoted (String.ofList front))) := by
    intro front back isContent noQuote
    have cut := results_of_quote (.inl rfl) noQuote copy {} (back ++ ['"'])
    rw [isContent, List.append_assoc, List.cons_append]
    rw [List.append_assoc, List.singleton_append] at cut
    rw [cut, List.head?_cons]
  rw [results_toLdp_string]
  refine ⟨⟨fun rereads hasQuote => ?_, fromQuotes (.inl rfl)⟩, ?_⟩
  · obtain ⟨front, back, isContent, noQuote⟩ := List.eq_append_cons_of_mem hasQuote
    have isFront := endsAtQuote isContent noQuote
    rw [rereads, List.head?_cons] at isFront
    cases isFront
    rw [String.toList_ofList] at isContent
    exact absurd isContent (by simp)
  · intro front back isContent noQuote
    have hasQuote : '"' ∈ content.toList := isContent ▸ by simp
    have noSingle := (lacksQuote_of_mem_lex listed isQuoted).resolve_left
      fun noDouble => noDouble hasQuote
    exact ⟨endsAtQuote isContent noQuote, fromQuotes (.inr rfl) noSingle⟩

/-- A comment sign and a line break in quotes are read again, and of `'a"b'` the part
before the double quote. -/
theorem rereads_comment_sign :
    let first : LexedToken := ⟨.ok (.quoted "//\n"), ⟨"", 0, 5, 0, 0⟩⟩
    let second : LexedToken := ⟨.ok (.quoted "a\"b"), ⟨"", 6, 11, 1, 2⟩⟩
    first ∈ Token.lex "'//\n' 'a\"b'" "" ∧ second ∈ Token.lex "'//\n' 'a\"b'" "" ∧
      (Token.lex (leaf .string "//\n" first.location).toLdp "").map
        LexedToken.result = [.ok (.quoted "//\n")] ∧
      ((Token.lex (leaf .string "a\"b" second.location).toLdp "").map
        LexedToken.result).head? = some (.ok (.quoted "a")) := by
  intro first second
  have tokens : Token.lex "'//\n' 'a\"b'" "" = [first, second] := rfl
  have isFirst : first ∈ Token.lex "'//\n' 'a\"b'" "" := by simp [tokens]
  have isSecond : second ∈ Token.lex "'//\n' 'a\"b'" "" := by simp [tokens]
  refine ⟨isFirst, isSecond, ?_, ?_⟩
  · exact (rereads_iff_of_mem_lex isFirst rfl _ "").1.mpr (by decide)
  · exact ((rereads_iff_of_mem_lex isSecond rfl _ "").2 ['a'] ['b'] (by decide)
      (by decide)).1

/-- Not every text that can be read is read again: `'a"b'` is written `"a"b"`, which
is a shorter text, a label and a quote that nothing closes. -/
theorem not_all_quoted_reread :
    ¬ ∀ (source file : String) (token : LexedToken) (content : String),
      token ∈ Token.lex source file → token.result = .ok (.quoted content) →
        ∀ (location : Location) (copy : String),
          (Token.lex (leaf .string content location).toLdp copy).map
            LexedToken.result = [.ok (.quoted content)] := by
  intro rereads
  have tokens : Token.lex "'a\"b'" "" =
      [⟨.ok (.quoted "a\"b"), ⟨"", 0, 5, 0, 0⟩⟩] :=
    rfl
  have written :
      (Token.lex (leaf .string "a\"b" ⟨"", 0, 5, 0, 0⟩).toLdp "").map
        LexedToken.result =
          [.ok (.quoted "a"), .ok (.label "b"), .error .unterminatedString] :=
    rfl
  have same := written.symm.trans
    (rereads _ _ _ _ (tokens ▸ List.mem_cons_self) rfl ⟨"", 0, 5, 0, 0⟩ "")
  exact absurd (congrArg List.length same) (by decide)

end Node

end LdpScore
