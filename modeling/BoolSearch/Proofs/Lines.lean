import BoolSearch.Proofs.MemberOrder
import BoolSearch.Proofs.Rendering

namespace BoolSearch

def isPrintable (c : Char) : Bool :=
  0x20 ≤ c.toNat

def isInLine (c : Char) : Bool :=
  c != '\n'

theorem isInLine_of_isPrintable {c : Char} (h : isPrintable c) : isInLine c := by
  simp only [isInLine, bne_iff_ne]
  rintro rfl
  simp [isPrintable] at h

theorem all_isInLine_iff {text : List Char} : text.all isInLine ↔ '\n' ∉ text := by
  simp only [List.all_eq_true, isInLine, bne_iff_ne]
  exact ⟨fun h hm => h _ hm rfl, fun h c hc e => h (e ▸ hc)⟩

-- A literal is the list of its characters, so nothing has to be decoded to look at them.
theorem all_toList {p : Char → Bool} {chars : List Char} (h : chars.all p) :
    (String.ofList chars).toList.all p := by
  rwa [String.toList_ofList]

theorem isPrintable_of_isDigit {c : Char} (h : c.isDigit) : isPrintable c := by
  have digit : 48 ≤ c.toNat ∧ c.toNat ≤ 57 := Char.isDigit_iff_toNat.mp h
  simp only [isPrintable, decide_eq_true_eq]
  omega

theorem all_isPrintable_decimal (n : Nat) : (decimal n).all isPrintable :=
  List.all_eq_true.mpr fun _ hc => isPrintable_of_isDigit (isDigit_of_mem_decimal hc)

theorem all_isInLine_of_all_isPrintable {text : List Char} (h : text.all isPrintable) :
    text.all isInLine :=
  List.all_eq_true.mpr fun c hc => isInLine_of_isPrintable (List.all_eq_true.mp h c hc)

namespace Json

-- A value that is not read but made: none of its numbers is kept as it was written.
inductive Made : Json → Prop
  | null : Made null
  | bool (value : Bool) : Made (bool value)
  | nat (n : Nat) : Made (nat n)
  | str (text : List Char) : Made (str text)
  | arr {items : List Json} (inside : ∀ item ∈ items, Made item) : Made (arr items)
  | obj {members : List (List Char × Json)} (inside : ∀ member ∈ members, Made member.2) :
    Made (obj members)

section Printing

variable {value : Json} {items : List Json} {members : List (List Char × Json)}

theorem Escaped.all_isPrintable {c : Char} {written : List Char} (h : Escaped c written) :
    written.all isPrintable := by
  have hex : ∀ n < 16, isPrintable (hexDigit n) := by decide
  have backslash : isPrintable '\\' := by decide
  cases h
  case short d _ visible _ =>
    have digit : isPrintable d := decide_eq_true visible
    simp [backslash, digit]
  case control control =>
    have high := hex (c.toNat / 16) (by omega)
    have low := hex (c.toNat % 16) (by omega)
    have marks : ['\\', 'u', '0', '0'].all isPrintable := by decide
    simpa [high, low] using marks
  case plain _ _ visible =>
    have whole : isPrintable c := decide_eq_true visible
    simp [whole]

theorem all_isPrintable_printString (text : List Char) : (printString text).all isPrintable := by
  have quote : isPrintable '"' := by decide
  have inside (c : Char) : (escape c).all isPrintable := (escaped_escape c).all_isPrintable
  simp [printString, List.all_flatMap, inside, quote]

theorem all_isPrintable_printItems (h : ∀ item ∈ items, item.print.all isPrintable)
    (isFirst : Bool) : (printItemsFrom isFirst items).all isPrintable := by
  have comma : isPrintable ',' := by decide
  induction items generalizing isFirst
  case nil => cases isFirst <;> rfl
  case cons item items hi =>
    have ⟨head, tail⟩ := List.forall_mem_cons.mp h
    have more : (printMoreItems items).all isPrintable := hi tail false
    cases isFirst <;> simp [printItemsFrom, printItems, printMoreItems, comma, head, more]

theorem all_isPrintable_printMembers (h : ∀ member ∈ members, member.2.print.all isPrintable)
    (isFirst : Bool) : (printMembersFrom isFirst members).all isPrintable := by
  have comma : isPrintable ',' := by decide
  have colon : isPrintable ':' := by decide
  induction members generalizing isFirst
  case nil => cases isFirst <;> rfl
  case cons member members hi =>
    have ⟨head, tail⟩ := List.forall_mem_cons.mp h
    have more : (printMoreMembers members).all isPrintable := hi tail false
    have name := all_isPrintable_printString member.1
    cases isFirst <;>
      simp [printMembersFrom, printMembers, printMoreMembers, comma, colon, name, head, more]

theorem Made.all_isPrintable_print (h : Made value) : value.print.all isPrintable := by
  induction h
  case null       => decide
  case bool b     => cases b <;> decide
  case nat n      => exact all_isPrintable_decimal n
  case str text   => exact all_isPrintable_printString text
  case arr items _ inside =>
    have inner : (printItems items).all isPrintable := all_isPrintable_printItems inside true
    have brackets : isPrintable '[' ∧ isPrintable ']' := by decide
    simp [print, brackets, inner]
  case obj members _ inside =>
    have inner : (printMembers members).all isPrintable :=
      all_isPrintable_printMembers inside true
    have braces : isPrintable '\x7b' ∧ isPrintable '\x7d' := by decide
    simp [print, braces, inner]

end Printing

section Sorting

variable {value : Json}

-- Putting the members in order makes nothing else of a value.
theorem Made.sorted (h : Made value) : Made value.sorted := by
  induction h
  case null   => exact .null
  case bool b => exact .bool b
  case nat n  => exact .nat n
  case str s  => exact .str s
  case arr hi =>
    refine .arr ?_
    rw [sortedItems_eq]
    exact List.forall_mem_map.mpr hi
  case obj hi => exact .obj (forall_mem_sortedMembers hi (by simp))

end Sorting

theorem made_ofString (s : String) : Made (.ofString s) :=
  .str _

theorem made_ofMembers {members : List (String × Json)}
    (h : ∀ member ∈ members, Made member.2) : Made (.ofMembers members) :=
  .obj (List.forall_mem_map.mpr h)

end Json

section Encodings

open Json (Made made_ofString made_ofMembers)

theorem TokenKind.made_toJson (kind : TokenKind) : Made kind.toJson := by
  cases kind
  case connective => exact made_ofMembers (by simp [Connective.toJson, made_ofString])
  case paren      => exact made_ofMembers (by simp [Paren.toJson, made_ofString])
  all_goals exact made_ofString _

theorem Span.made_toJson (span : Span) : Made span.toJson :=
  made_ofMembers (by simp [Made.nat])

theorem Token.made_toJson (token : Token) : Made token.toJson :=
  made_ofMembers (by simp [token.kind.made_toJson, token.span.made_toJson])

theorem Violation.made_toJson (violation : Violation) : Made violation.toJson :=
  made_ofMembers (by simp [ViolationKind.toJson, made_ofString, Made.nat])

theorem Highlight.made_toJson (highlight : Highlight) : Made highlight.toJson := by
  cases highlight
  case accepted tokens =>
    have each : Made (.arr (tokens.map Token.toJson)) :=
      .arr (List.forall_mem_map.mpr fun token _ => token.made_toJson)
    exact made_ofMembers (by simp [made_ofString, each])
  case rejected raw violation =>
    exact made_ofMembers (by simp [made_ofString, raw.made_toJson, violation.made_toJson])

end Encodings

section Messages

theorem all_isInLine_decimal (n : Nat) : (decimal n).all isInLine :=
  all_isInLine_of_all_isPrintable (all_isPrintable_decimal n)

theorem ViolationKind.all_isInLine_message (kind : ViolationKind) (locale : Locale) :
    (kind.message locale).toList.all isInLine := by
  cases locale <;> cases kind <;> exact all_toList (by decide)

theorem Violation.all_isInLine_describe (violation : Violation) :
    violation.describe.all isInLine := by
  have message := violation.kind.all_isInLine_message .en
  have words : " at offset ".toList.all isInLine := all_toList (by decide)
  simp only [Violation.describe, List.all_append, message, words, all_isInLine_decimal,
    Bool.and_self]

end Messages

section Shown

variable {settings : Settings} {text : List Char} {highlight : Highlight}

theorem all_isInLine_of_mem_lexemes {part : Lexeme} (h : text.all isInLine)
    (hp : part ∈ lexemes none text) : part.text.all isInLine := by
  rw [← flatMap_text_lexemes none text, List.all_flatMap] at h
  exact List.all_eq_true.mp h part hp

theorem Lexeme.all_isInLine_display {part : Lexeme} (h : part.text.all isInLine) :
    part.display.all isInLine := by
  obtain ⟨kind, text⟩ := part
  cases kind
  case connective c =>
    change c.spelling.all isInLine
    cases c <;> decide
  all_goals exact h

theorem exists_elements_in_line (h : settings.highlight text = .ok highlight)
    (hl : text.all isInLine) : ∃ elements, highlight.elements? text = some elements ∧
      ∀ element ∈ elements, element.text.all isInLine := by
  obtain rfl | ⟨violation, rfl⟩ := highlight_cases h
  case inl =>
    refine ⟨_, elements?_accepted text, List.forall_mem_map.mpr fun part hp => ?_⟩
    exact Lexeme.all_isInLine_display (all_isInLine_of_mem_lexemes hl hp)
  case inr => exact ⟨_, elements?_of_shows h .rejected, by simpa using hl⟩

theorem all_isInLine_entity {c : Char} (h : isInLine c) : (entity c).all isInLine := by
  unfold entity
  split_ifs
  case neg => simpa using h
  all_goals decide

theorem Element.all_isInLine_render {element : Element} (h : element.text.all isInLine) :
    element.render.all isInLine := by
  have opening : (openingTag element.style).all isInLine := by
    cases element.style <;> decide
  have closing : "</span>".toList.all isInLine := all_toList (by decide)
  have content : (element.text.flatMap entity).all isInLine := by
    rw [List.all_flatMap]
    exact List.all_eq_true.mpr fun c hc => all_isInLine_entity (List.all_eq_true.mp h c hc)
  simp only [Element.render, List.all_append, opening, closing, content, Bool.and_self]

theorem Element.all_isInLine_renderAll {elements : List Element}
    (h : ∀ element ∈ elements, element.text.all isInLine) :
    (Element.renderAll elements).all isInLine := by
  rw [Element.renderAll, List.all_flatMap]
  exact List.all_eq_true.mpr fun element he => Element.all_isInLine_render (h element he)

theorem Highlight.all_isInLine_message {locale : Locale} {message : String}
    (h : highlight.message? locale = some message) : message.toList.all isInLine := by
  have ⟨violation, _, e⟩ := Option.map_eq_some_iff.mp h
  rw [← e]
  exact violation.kind.all_isInLine_message locale

namespace Command

theorem all_isInLine_tooLong (limit actual : Nat) :
    (failureLine (.tooLong limit actual)).all isInLine := by
  change ("error: ".toList ++ ("Input too long: ".toList ++ decimal actual
    ++ " characters, limit is ".toList ++ decimal limit)).all isInLine
  simp only [List.all_append, Bool.and_eq_true]
  exact ⟨all_toList (by decide), ⟨⟨all_toList (by decide), all_isInLine_decimal actual⟩,
    all_toList (by decide)⟩, all_isInLine_decimal limit⟩

theorem all_isInLine_invalid (violation : Violation) :
    (failureLine (.invalid violation)).all isInLine := by
  change ("error: ".toList ++ ("Invalid expression: ".toList ++ violation.describe)).all isInLine
  simp only [List.all_append, Bool.and_eq_true]
  exact ⟨all_toList (by decide), all_toList (by decide), violation.all_isInLine_describe⟩

theorem all_isInLine_plainLine (h : settings.highlight text = .ok highlight)
    (hl : text.all isInLine) (locale : Locale) :
    (plainLine locale text highlight).all isInLine := by
  cases highlight
  case accepted tokens =>
    have ⟨elements, found, inLine⟩ := exists_elements_in_line h hl
    have each : (elements.flatMap Element.text).all isInLine := by
      rw [List.all_flatMap]
      exact List.all_eq_true.mpr inLine
    change ("ok: ".toList ++ shown (.accepted tokens) text).all isInLine
    rw [shown, found, Option.getD_some, List.all_append, Bool.and_eq_true]
    exact ⟨all_toList (by decide), each⟩
  case rejected raw violation =>
    have message := violation.kind.all_isInLine_message locale
    have offset := all_isInLine_decimal violation.offset
    change ("error: ".toList ++ (violation.kind.message locale).toList ++ " (offset ".toList
      ++ decimal violation.offset ++ "): ".toList ++ text).all isInLine
    simp only [List.all_append, Bool.and_eq_true]
    exact ⟨⟨⟨⟨⟨all_toList (by decide), message⟩, all_toList (by decide)⟩, offset⟩,
      all_toList (by decide)⟩, hl⟩

-- Nothing in JSON ends the line, be it in a string of a text that goes over several lines.
theorem all_isPrintable_jsonLine (locale : Locale) (text : List Char) (highlight : Highlight) :
    (jsonLine locale text highlight).all isPrintable := by
  have message : Json.Made (.ofOption .ofString (highlight.message? locale)) := by
    cases highlight.message? locale
    case none => exact .null
    case some => exact Json.made_ofString _
  refine (Json.made_ofMembers ?_).sorted.all_isPrintable_print
  simp [Json.Made.str, highlight.made_toJson, message]

theorem all_isInLine_htmlLine (h : settings.highlight text = .ok highlight)
    (hl : text.all isInLine) (locale : Locale) : (htmlLine locale text highlight).all isInLine := by
  have ⟨elements, found, inLine⟩ := exists_elements_in_line h hl
  have page := Element.all_isInLine_renderAll inLine
  unfold htmlLine
  rw [Highlight.html?, found, Option.map_some, Option.getD_some]
  simp only [List.all_append, Bool.and_eq_true]
  refine ⟨⟨⟨all_toList (by decide), page⟩, all_toList (by decide)⟩, ?_⟩
  split
  case h_1 => rfl
  case h_2 message e =>
    simp only [List.all_append, Bool.and_eq_true]
    exact ⟨⟨all_toList (by decide), Highlight.all_isInLine_message e⟩, all_toList (by decide)⟩

theorem all_isInLine_formatLine (h : settings.highlight text = .ok highlight)
    (hl : text.all isInLine) (format : Format) (locale : Locale) :
    (formatLine format locale text highlight).all isInLine := by
  cases format
  case plain => exact all_isInLine_plainLine h hl locale
  case json  => exact all_isInLine_of_all_isPrintable (all_isPrintable_jsonLine locale text _)
  case html  => exact all_isInLine_htmlLine h hl locale

end Command

end Shown

end BoolSearch
