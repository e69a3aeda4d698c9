import BoolSearch.Proofs.Completion
import BoolSearch.Proofs.Composition

namespace BoolSearch

open Grammar

-- The content with a backslash in front of each character that would not stand for itself in a
-- value that `opening` begins.
def escaped (opening : Char) (content : List Char) : List Char :=
  content.flatMap fun c => if c = '\\' ∨ closes opening c then ['\\', c] else [c]

def inQuotes (opening closing : Char) (content : List Char) : List Char :=
  opening :: (escaped opening content ++ [closing])

variable {opening closing c : Char} {content value name : List Char}

theorem escaped_cons_of_special (h : c = '\\' ∨ closes opening c) :
    escaped opening (c :: content) = '\\' :: c :: escaped opening content := by
  rw [escaped, List.flatMap_cons, if_pos h]
  rfl

theorem escaped_cons_of_plain (h : ¬(c = '\\' ∨ closes opening c)) :
    escaped opening (c :: content) = c :: escaped opening content := by
  rw [escaped, List.flatMap_cons, if_neg h]
  rfl

theorem closes_iff : closes opening closing ↔ (opening, closing) ∈ quotePairs := by
  simp [closes]

theorem isQuote_of_mem_quotePairs (h : (opening, closing) ∈ quotePairs) : isQuote opening :=
  List.any_eq_true.mpr ⟨_, h, by simp⟩

namespace Grammar

-- By induction on the content. An escaped character is taken along, any other one neither ends the
-- value nor escapes what follows it.
theorem enclosed_escaped (h : closes opening closing) (content : List Char) :
    Enclosed opening (escaped opening content ++ [closing]) := by
  induction content
  case nil => exact .close h
  case cons c content hi =>
    by_cases special : c = '\\' ∨ closes opening c
    case pos =>
      rw [escaped_cons_of_special special]
      exact .escape hi
    case neg =>
      rw [escaped_cons_of_plain special]
      have ⟨plain, inside⟩ := not_or.mp special
      exact .inner plain (eq_false_of_ne_true inside) hi

theorem isQuoted_inQuotes (h : (opening, closing) ∈ quotePairs) (content : List Char) :
    IsQuoted (inQuotes opening closing content) :=
  .mk (isQuote_of_mem_quotePairs h) (enclosed_escaped (closes_iff.mpr h) content)

theorem IsQuoted.sentence (h : IsQuoted value) (room : Nat) :
    Sentence .plain room [⟨.quoted, value⟩] := by
  have ⟨opening, tail, e, quote⟩ : ∃ opening tail, opening :: tail = value ∧ isQuote opening := by
    cases h
    case mk opening tail quote _ => exact ⟨opening, tail, rfl, quote⟩
  have unkeyed : ¬BeginsKeyed (value ++ []) := by
    rw [← e]
    exact not_beginsKeyed (isLetter_of_isQuote quote)
  have leaf : IsLeaf .plain [⟨.quoted, value⟩] [] := .plain (.quoted h) unkeyed
  have block : Derives .plain .block room [⟨.quoted, value⟩] [] :=
    .block_of_operand (isLetter_of_isQuote quote) (.leaf leaf) (by simpa using e)
  simpa [Scan.blanks] using Sentence.mk isBlanks_nil isBlanks_nil (.single block)

theorem IsQuoted.keyed_sentence (h : IsQuoted value) (hn : IsKeyName name)
    (unworded : ∀ connective, ¬Begins connective name) (room : Nat) :
    Sentence .keyed room [⟨.key, name⟩, ⟨.equals, ['=']⟩, ⟨.quoted, value⟩] := by
  have leaf : IsLeaf .keyed [⟨.key, name⟩, ⟨.equals, ['=']⟩, ⟨.quoted, value⟩] [] :=
    .keyed hn isBlanks_nil isBlanks_nil (.quoted h)
  have unworded : ∀ connective, ¬Begins connective (name ++ '=' :: value) :=
    fun connective begins =>
      unworded connective (begins_of_begins_append (by rintro _ ⟨⟩; decide) begins)
  have block : Derives .keyed .block room [⟨.key, name⟩, ⟨.equals, ['=']⟩, ⟨.quoted, value⟩] [] :=
    .asserted (by simpa using not_standsAlone_of_not_begins unworded)
      (by simpa using unworded .not) (.leaf leaf)
  simpa [Scan.blanks] using Sentence.mk isBlanks_nil isBlanks_nil (.single block)

theorem IsQuoted.lexemes_eq (h : IsQuoted value) : lexemes none value = [⟨.quoted, value⟩] := by
  rw [lexemes_of_takes_one (.quoted rfl h (List.append_nil value)), lexemes_nil]

theorem IsQuoted.lexemes_keyed (h : IsQuoted value) (hn : IsKeyName name)
    (unworded : ∀ connective, ¬Begins connective name) :
    lexemes none (name ++ '=' :: value) =
      [⟨.key, name⟩, ⟨.equals, ['=']⟩, ⟨.quoted, value⟩] := by
  have isValue : IsValue ⟨.quoted, value⟩ [] := .quoted h
  have takes : Takes none _ _ := takes_key hn unworded isBlanks_nil isBlanks_nil isValue
  simpa [Scan.blanks, Scan.lexemes] using lexemes_of_takes takes

end Grammar

-- Every content has its place in every pair of quotes: what is written so is a text with one plain
-- value and, behind a key, one with a keyed value, and it is one token.
theorem any_content_quotable (h : (opening, closing) ∈ quotePairs) (content : List Char)
    (maxDepth : Nat) :
    validate maxDepth (inQuotes opening closing content) =
      .ok { form := some .plain, latest := .block } ∧
    tokenize (inQuotes opening closing content) =
      [⟨.quoted, ⟨0, byteLength (inQuotes opening closing content)⟩⟩] ∧
    ∀ name, IsKeyName name → (∀ connective, ¬Begins connective name) →
      validate maxDepth (name ++ '=' :: inQuotes opening closing content) =
        .ok { form := some .keyed, latest := .block } ∧
      tokenize (name ++ '=' :: inQuotes opening closing content) =
        [⟨.key, ⟨0, byteLength name⟩⟩,
         ⟨.equals, ⟨byteLength name, byteLength name + 1⟩⟩,
         ⟨.quoted, ⟨byteLength name + 1,
            byteLength name + 1 + byteLength (inQuotes opening closing content)⟩⟩] := by
  have quoted := isQuoted_inQuotes h content
  refine ⟨?_, ?_, fun name hn unworded => ⟨?_, ?_⟩⟩
  · simpa using (quoted.sentence maxDepth).validate
  · rw [tokenize, quoted.lexemes_eq]
    simp [Token.layout]
  · simpa using (quoted.keyed_sentence hn unworded maxDepth).validate
  · rw [tokenize, quoted.lexemes_keyed hn unworded]
    have one : '='.utf8Size = 1 := rfl
    simp [Token.layout, one]

-- The content ends in a backslash and has an opening and a closing quote in it.
theorem any_content_quotable_of_curly :
    ('“', '”') ∈ quotePairs ∧ IsKeyName ['T', 'I'] ∧
    (∀ connective, ¬Begins connective ['T', 'I']) ∧
    inQuotes '“' '”' ['“', '=', '(', '”', '\\'] = "“\\“=(\\”\\\\”".toList ∧
    validate 0 "TI=“\\“=(\\”\\\\”".toList = .ok { form := some .keyed, latest := .block } := by
  have pair : ('“', '”') ∈ quotePairs := by decide
  have name : IsKeyName ['T', 'I'] := ⟨by decide, by simp [isLetter]⟩
  have unworded : ∀ connective, ¬Begins connective ['T', 'I'] := by decide
  have keyed := (any_content_quotable pair ['“', '=', '(', '”', '\\'] 0).2.2 _ name unworded
  exact ⟨pair, name, unworded, by decide, keyed.1⟩

end BoolSearch
