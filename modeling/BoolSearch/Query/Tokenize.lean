import BoolSearch.Query.Lookahead

namespace BoolSearch

-- Can a quote behind a part of kind `previous` start a quoted value? Glued to a bare value, a key
-- or another quoted value it is an ordinary character.
def quoteStartsOperand : Option TokenKind → Bool
  | none | some .blank | some (.connective _) | some (.paren _) | some .equals => true
  | some .key | some .quoted | some .bare => false

-- What one rule takes from a text: a first part, the further parts of a rule that takes several,
-- and the text that is left.
structure Scan where
  head : Lexeme
  more : List Lexeme
  rest : List Char
  deriving DecidableEq, Repr

namespace Scan

def one (kind : TokenKind) (text rest : List Char) : Scan :=
  ⟨⟨kind, text⟩, [], rest⟩

def lexemes (scan : Scan) : List Lexeme :=
  scan.head :: scan.more

def lastKind (scan : Scan) : TokenKind :=
  (scan.more.getLast?.getD scan.head).kind

-- At a quote: the value up to the quote that closes it. A quote that is never closed is an
-- ordinary character.
def atQuote (c : Char) (text : List Char) : Scan :=
  match quoted? (c :: text) with
  | some (value, rest) => one .quoted value rest
  | none               => one .bare [c] text

def keyValue : List Char → List Lexeme × List Char
  | [] => ([], [])
  | c :: text =>
    if isQuote c then
      let scan := atQuote c text
      ([scan.head], scan.rest)
    else
      match (c :: text).takeWhile isBare with
      | []  => ([], c :: text)
      | run => ([⟨.bare, run⟩], (c :: text).dropWhile isBare)

def blanks (text : List Char) : List Lexeme :=
  text.map fun c => ⟨.blank, [c]⟩

def atKey (head : KeyHead) : Scan :=
  let (value, rest) := keyValue (skipBlanks head.rest)
  { head := ⟨.key, head.name⟩
    more := blanks head.blanks ++ ⟨.equals, ['=']⟩ :: blanks (head.rest.takeWhile isBlank) ++ value
    rest }

-- The first rule that fits wins: a blank; `AND`, `OR` or `NOT` in any case, also where the word
-- goes on; a parenthesis; a key with its equals sign, its value and the blanks between them; a
-- quoted value, where a quote can start one; any other single character.
def next (previous : Option TokenKind) (c : Char) (text : List Char) : Scan :=
  if isBlank c then one .blank [c] text
  else match keyword? (c :: text) with
    | some connective =>
      one (.connective connective) ((c :: text).take connective.width)
        ((c :: text).drop connective.width)
    | none =>
      if c = '(' then one (.paren .opening) [c] text
      else if c = ')' then one (.paren .closing) [c] text
      else match key? (c :: text) with
        | some head => atKey head
        | none =>
          if isQuote c && quoteStartsOperand previous then atQuote c text
          else one .bare [c] text

def consumed (scan : Scan) : List Char :=
  scan.lexemes.flatMap Lexeme.text

@[simp] theorem consumed_one (kind : TokenKind) (text rest : List Char) :
    (one kind text rest).consumed = text := by
  simp [consumed, lexemes, one]

@[simp] theorem rest_one (kind : TokenKind) (text rest : List Char) :
    (one kind text rest).rest = rest := rfl

theorem consumed_append_rest_atQuote (c : Char) (text : List Char) :
    (atQuote c text).consumed ++ (atQuote c text).rest = c :: text := by
  unfold atQuote
  split
  next h => simpa using append_of_quoted? h
  next => simp

theorem head_text_append_rest_atQuote (c : Char) (text : List Char) :
    (atQuote c text).head.text ++ (atQuote c text).rest = c :: text := by
  unfold atQuote
  split
  next h => simpa [one] using append_of_quoted? h
  next => simp [one]

theorem keyValue_append (text : List Char) :
    (keyValue text).1.flatMap Lexeme.text ++ (keyValue text).2 = text := by
  cases text with
  | nil => rfl
  | cons c text =>
    simp only [keyValue]
    split
    · simpa using head_text_append_rest_atQuote c text
    · split
      next => simp
      next => simp

@[simp] theorem flatMap_text_blanks (text : List Char) :
    (blanks text).flatMap Lexeme.text = text := by
  simp [blanks, List.flatMap_map]

theorem consumed_append_rest_atKey (head : KeyHead) :
    (atKey head).consumed ++ (atKey head).rest = head.name ++ head.blanks ++ '=' :: head.rest := by
  simp only [atKey, consumed, lexemes, List.flatMap_cons, List.flatMap_append, flatMap_text_blanks,
    List.append_assoc, List.cons_append, List.nil_append, keyValue_append]
  rw [takeWhile_append_skipBlanks]

theorem consumed_append_rest_next (previous : Option TokenKind) (c : Char) (text : List Char) :
    (next previous c text).consumed ++ (next previous c text).rest = c :: text := by
  unfold next
  split
  · simp
  · split
    · simp
    · split
      · simp
      · split
        · simp
        · split
          next h => rw [consumed_append_rest_atKey, append_of_key? h]
          next =>
            split
            · exact consumed_append_rest_atQuote c text
            · simp

theorem head_text_ne_nil_next (previous : Option TokenKind) (c : Char) (text : List Char) :
    (next previous c text).head.text ≠ [] := by
  unfold next
  split
  · simp [one]
  · split
    next connective _ => cases connective <;> simp [one, Connective.width, Connective.spelling]
    · split
      · simp [one]
      · split
        · simp [one]
        · split
          next h =>
            have := two_le_length_of_key? h
            intro e
            simp [atKey] at e
            simp [e] at this
          next =>
            split
            · unfold atQuote
              split
              next value rest h =>
                intro e
                simp only [one] at e
                subst e
                simp [quoted?] at h
              next => simp [one]
            · simp [one]

theorem length_rest_next_lt (previous : Option TokenKind) (c : Char) (text : List Char) :
    (next previous c text).rest.length < (c :: text).length := by
  have all := congrArg List.length (consumed_append_rest_next previous c text)
  have := List.length_pos_iff.mpr (head_text_ne_nil_next previous c text)
  simp only [consumed, lexemes, List.flatMap_cons, List.length_append] at all
  omega

end Scan

def lexemes (previous : Option TokenKind) : List Char → List Lexeme
  | [] => []
  | c :: text =>
    let scan := Scan.next previous c text
    scan.lexemes ++ lexemes (some scan.lastKind) scan.rest
termination_by text => text.length
decreasing_by exact Scan.length_rest_next_lt previous c text

def tokenize (text : List Char) : List Token :=
  Token.layout 0 (lexemes none text)

@[simp] theorem lexemes_nil (previous : Option TokenKind) : lexemes previous [] = [] := by
  rw [lexemes]

-- No character of a text is lost and none is added.
theorem flatMap_text_lexemes (previous : Option TokenKind) (text : List Char) :
    (lexemes previous text).flatMap Lexeme.text = text := by
  fun_induction lexemes previous text with
  | case1 => rfl
  | case2 previous c text scan ih =>
    rw [List.flatMap_append, ih]
    exact Scan.consumed_append_rest_next previous c text

end BoolSearch
