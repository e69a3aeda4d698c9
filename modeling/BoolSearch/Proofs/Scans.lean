import BoolSearch.Proofs.Lookahead

namespace BoolSearch

open Grammar

namespace Grammar

def BeginsQuoted (text : List Char) : Prop :=
  ∃ value rest, IsQuoted value ∧ value ++ rest = text

theorem quoted?_eq_none_iff {text : List Char} : quoted? text = none ↔ ¬BeginsQuoted text := by
  rw [Option.eq_none_iff_forall_ne_some]
  constructor
  case mp =>
    rintro h ⟨value, rest, hq, e⟩
    exact h (value, rest) (quoted?_eq_some_iff.mpr ⟨hq, e⟩)
  case mpr =>
    intro h ⟨value, rest⟩ hq
    exact h ⟨value, rest, quoted?_eq_some_iff.mp hq⟩

theorem isQuote_of_beginsQuoted {text : List Char} (h : BeginsQuoted text) :
    ∀ c ∈ text.head?, isQuote c := by
  obtain ⟨_, _, ⟨quote, _⟩, rfl⟩ := h
  rintro _ ⟨⟩
  exact quote

theorem not_begins {connective : Connective} {c : Char} {text : List Char}
    (hc : isLetter c = false) : ¬Begins connective (c :: text) :=
  fun h => absurd (isLetter_of_begins h c rfl) (ne_true_of_eq_false hc)

theorem isLetter_of_beginsKeyed {text : List Char} (h : BeginsKeyed text) :
    ∀ c ∈ text.head?, isLetter c := by
  obtain ⟨name, _, _, hn, _, rfl⟩ := h
  cases name
  case nil => exact absurd hn.1 (by simp)
  case cons c name =>
    rintro _ ⟨⟩
    exact hn.2 c (by simp)

theorem not_beginsKeyed {c : Char} {text : List Char} (hc : isLetter c = false) :
    ¬BeginsKeyed (c :: text) :=
  fun h => absurd (isLetter_of_beginsKeyed h c rfl) (ne_true_of_eq_false hc)

-- The value of a key whose equals sign and blanks stand in front of the text. There may be none.
inductive KeyValue : List Char → List Lexeme → List Char → Prop
  | missing {text : List Char} (stops : ∀ c ∈ text.head?, isBare c = false) : KeyValue text [] text
  | quoted {value rest text : List Char} (hq : IsQuoted value) (e : value ++ rest = text) :
    KeyValue text [⟨.quoted, value⟩] rest
  | unclosed {c : Char} {text : List Char} (quote : isQuote c) (hn : ¬BeginsQuoted (c :: text)) :
    KeyValue (c :: text) [⟨.bare, [c]⟩] text
  | bare {value rest text : List Char} (hb : IsBare value rest) (e : value ++ rest = text) :
    KeyValue text [⟨.bare, value⟩] rest

-- One rule, with the conditions under which no other one fits.
inductive Takes (previous : Option TokenKind) : List Char → Scan → Prop
  | blank {c : Char} {text : List Char} (hb : isBlank c) :
    Takes previous (c :: text) (.one .blank [c] text)
  | connective {connective : Connective} {word rest text : List Char}
    (spells : Spells connective word) (e : word ++ rest = text) :
    Takes previous text (.one (.connective connective) word rest)
  | opening {text : List Char} : Takes previous ('(' :: text) (.one (.paren .opening) ['('] text)
  | closing {text : List Char} : Takes previous (')' :: text) (.one (.paren .closing) [')'] text)
  | key {name gap gap' tail rest text : List Char} {value : List Lexeme}
    (hn : IsKeyName name) (hg : IsBlanks gap) (hg' : IsBlanks gap')
    (stop : ∀ c ∈ tail.head?, isBlank c = false) (hv : KeyValue tail value rest)
    (unworded : ∀ connective, ¬Begins connective text)
    (e : name ++ gap ++ '=' :: (gap' ++ tail) = text) :
    Takes previous text
      ⟨⟨.key, name⟩, Scan.blanks gap ++ ⟨.equals, ['=']⟩ :: Scan.blanks gap' ++ value, rest⟩
  | quoted {value rest text : List Char} (starts : quoteStartsOperand previous)
    (hq : IsQuoted value) (e : value ++ rest = text) : Takes previous text (.one .quoted value rest)
  | bare {c : Char} {text : List Char} (hb : isBlank c = false) (hp : isParen c = false)
    (unworded : ∀ connective, ¬Begins connective (c :: text)) (unkeyed : ¬BeginsKeyed (c :: text))
    (unquoted : quoteStartsOperand previous → ¬BeginsQuoted (c :: text)) :
    Takes previous (c :: text) (.one .bare [c] text)

end Grammar

namespace Scan

variable {previous : Option TokenKind} {c : Char} {text rest : List Char} {scan : Scan}

@[simp] theorem lexemes_one (kind : TokenKind) (text rest : List Char) :
    (one kind text rest).lexemes = [⟨kind, text⟩] := rfl

@[simp] theorem lastKind_one (kind : TokenKind) (text rest : List Char) :
    (one kind text rest).lastKind = kind := rfl

theorem lastKind_concat (head : Lexeme) (more : List Lexeme) (last : Lexeme) (rest : List Char) :
    (⟨head, more ++ [last], rest⟩ : Scan).lastKind = last.kind := by
  simp [lastKind]

theorem atQuote_of_isQuoted {value : List Char} (hq : IsQuoted value)
    (e : value ++ rest = c :: text) : atQuote c text = one .quoted value rest := by
  rw [atQuote, quoted?_eq_some_iff.mpr ⟨hq, e⟩]

theorem atQuote_of_not_beginsQuoted (h : ¬BeginsQuoted (c :: text)) :
    atQuote c text = one .bare [c] text := by
  rw [atQuote, quoted?_eq_none_iff.mpr h]

theorem keyValue_eq_of_keyValue {value : List Lexeme} (h : KeyValue text value rest) :
    keyValue text = (value, rest) := by
  cases h
  case missing stops =>
    cases text
    case nil => rfl
    case cons c text =>
      have hb : isBare c = false := stops c rfl
      have hq : isQuote c = false := isQuote_of_not_isBare hb
      simp [keyValue, hb, hq]
  case quoted value hq e =>
    cases hq
    case mk opening inner quote tail =>
      subst e
      have hs : atQuote opening (inner ++ rest) = one .quoted (opening :: inner) rest :=
        atQuote_of_isQuoted (.mk quote tail) rfl
      simp [keyValue, quote, hs, one]
  case unclosed quote hn =>
    rw [keyValue, if_pos quote, atQuote_of_not_beginsQuoted hn]
    rfl
  case bare value hb e =>
    cases value
    case nil => exact absurd rfl hb.nonempty
    case cons c value =>
      cases e
      rw [List.cons_append, keyValue, hb.unquoted c rfl, ← List.cons_append,
        takeWhile_run hb.bare hb.whole, dropWhile_run hb.bare hb.whole]
      rfl

theorem keyValue_of_keyValue_eq {value : List Lexeme} (h : keyValue text = (value, rest)) :
    KeyValue text value rest := by
  cases text
  case nil =>
    cases h
    exact .missing (by simp)
  case cons c text =>
    simp only [keyValue] at h
    split at h
    case isTrue quote =>
      by_cases hq : BeginsQuoted (c :: text)
      case pos =>
        obtain ⟨value, rest, hq, e⟩ := hq
        rw [atQuote_of_isQuoted hq e] at h
        cases h
        exact .quoted hq e
      case neg =>
        rw [atQuote_of_not_beginsQuoted hq] at h
        cases h
        exact .unclosed quote hq
    case isFalse unquoted =>
      cases hb : isBare c
      case false =>
        simp only [hb, Bool.false_eq_true, not_false_eq_true, List.takeWhile_cons_of_neg] at h
        cases h
        exact .missing (by simp [hb])
      case true =>
        simp only [hb, List.takeWhile_cons_of_pos, List.dropWhile_cons_of_pos] at h
        cases h
        refine .bare ⟨by simp, ?_, by simpa using unquoted, head?_dropWhile_eq_false⟩ ?_
        · intro d hd
          cases hd
          case head    => exact hb
          case tail hd => exact of_mem_takeWhile hd
        · exact congrArg (c :: ·) List.takeWhile_append_dropWhile

theorem keyValue_eq_iff {value : List Lexeme} :
    keyValue text = (value, rest) ↔ KeyValue text value rest :=
  ⟨keyValue_of_keyValue_eq, keyValue_eq_of_keyValue⟩

theorem next_of_takes (h : Takes previous (c :: text) scan) : next previous c text = scan := by
  cases h
  case blank hb => rw [next, if_pos hb]
  case connective connective word rest spells e =>
    have hk : keyword? (c :: text) = some connective :=
      keyword?_eq_some_iff.mpr ⟨word, rest, e, spells⟩
    have hl : isLetter c := isLetter_of_begins ⟨word, rest, e, spells⟩ c rfl
    rw [next, isBlank_of_isLetter hl, hk, ← e]
    simp [take_width spells, drop_width spells]
  case opening =>
    have hk : keyword? ('(' :: text) = none :=
      keyword?_eq_none_iff.mpr fun _ => not_begins (by decide)
    simp [next, hk, isBlank, blankRanges, inRanges]
  case closing =>
    have hk : keyword? (')' :: text) = none :=
      keyword?_eq_none_iff.mpr fun _ => not_begins (by decide)
    simp [next, hk, isBlank, blankRanges, inRanges]
  case key name gap gap' tail rest value hn hg hg' stop hv unworded e =>
    have hk : key? (c :: text) = some ⟨name, gap, gap' ++ tail⟩ := key?_eq_some_iff.mpr ⟨hn, hg, e⟩
    have hl : isLetter c := isLetter_of_beginsKeyed ⟨name, gap, _, hn, hg, e⟩ c rfl
    have hp := isParen_of_isLetter hl
    simp only [isParen, Bool.or_eq_false_iff, beq_eq_false_iff_ne] at hp
    rw [next, isBlank_of_isLetter hl, keyword?_eq_none_iff.mpr unworded, hk]
    simp [hp, atKey, takeWhile_run hg' stop, skipBlanks_append hg' stop, keyValue_eq_iff.mpr hv]
  case quoted value rest starts hq e =>
    have quote : isQuote c := isQuote_of_beginsQuoted ⟨value, rest, hq, e⟩ c rfl
    have hl : isLetter c = false := by
      obtain rfl | rfl | rfl | rfl := isQuote_iff.mp quote <;> decide
    have hp : c ≠ '(' ∧ c ≠ ')' := by
      obtain rfl | rfl | rfl | rfl := isQuote_iff.mp quote <;> decide
    rw [next, isBlank_of_isQuote quote, keyword?_eq_none_iff.mpr fun _ => not_begins hl,
      key?_eq_none_iff.mpr (not_beginsKeyed hl)]
    simp [hp, quote, starts, atQuote_of_isQuoted hq e]
  case bare hb hp unworded unkeyed unquoted =>
    simp only [isParen, Bool.or_eq_false_iff, beq_eq_false_iff_ne] at hp
    rw [next, hb, keyword?_eq_none_iff.mpr unworded, key?_eq_none_iff.mpr unkeyed]
    cases starts : quoteStartsOperand previous
    case false => simp [hp]
    case true  => simp [hp, atQuote_of_not_beginsQuoted (unquoted starts)]

theorem takes_next : Takes previous (c :: text) (next previous c text) := by
  rw [next]
  split
  case isTrue hb => exact .blank hb
  case isFalse hb =>
    split
    case h_1 connective hk =>
      obtain ⟨word, rest, e, spells⟩ := keyword?_eq_some_iff.mp hk
      rw [← e, take_width spells, drop_width spells]
      exact .connective spells rfl
    case h_2 hk =>
      have unworded := keyword?_eq_none_iff.mp hk
      split
      case isTrue ho => exact ho ▸ .opening
      case isFalse ho =>
        split
        case isTrue hc => exact hc ▸ .closing
        case isFalse hc =>
          split
          case h_1 head hk =>
            obtain ⟨hn, hg, e⟩ := key?_eq_some_iff.mp hk
            rw [← takeWhile_append_skipBlanks head.rest] at e
            exact .key hn hg (isBlanks_takeWhile _) (head?_skipBlanks _) (keyValue_eq_iff.mp rfl)
              unworded e
          case h_2 hk =>
            have unkeyed := key?_eq_none_iff.mp hk
            have hp : isParen c = false := by simp [isParen, ho, hc]
            split
            case isTrue h =>
              obtain ⟨_, starts⟩ := Bool.and_eq_true_iff.mp h
              by_cases hq : BeginsQuoted (c :: text)
              case pos =>
                obtain ⟨value, rest, hq, e⟩ := hq
                rw [atQuote_of_isQuoted hq e]
                exact .quoted starts hq e
              case neg =>
                rw [atQuote_of_not_beginsQuoted hq]
                exact .bare (by simpa using hb) hp unworded unkeyed fun _ => hq
            case isFalse h =>
              refine .bare (by simpa using hb) hp unworded unkeyed fun starts hq => ?_
              exact h (by simp [isQuote_of_beginsQuoted hq c rfl, starts])

end Scan

namespace Grammar

variable {previous : Option TokenKind} {text : List Char} {scan : Scan}
  {front back : List Lexeme} {lexeme : Lexeme}

theorem Takes.ne_nil (h : Takes previous text scan) : text ≠ [] := by
  cases h
  case connective word rest spells e =>
    rw [← e]
    exact List.append_ne_nil_of_left_ne_nil (ne_nil_of_spells spells) rest
  case quoted value rest _ hq e =>
    rw [← e]
    cases hq
    exact List.cons_ne_nil _ _
  case key e =>
    rw [← e]
    simp
  all_goals exact List.cons_ne_nil _ _

theorem lexemes_of_takes (h : Takes previous text scan) :
    lexemes previous text = scan.lexemes ++ lexemes (some scan.lastKind) scan.rest := by
  cases text
  case nil         => exact absurd rfl h.ne_nil
  case cons c text => rw [lexemes, Scan.next_of_takes h]

theorem lexemes_of_takes_one {kind : TokenKind} {word rest : List Char}
    (h : Takes previous text (.one kind word rest)) :
    lexemes previous text = ⟨kind, word⟩ :: lexemes (some kind) rest :=
  lexemes_of_takes h

-- The kind of the part that a text behind these parts follows.
def lastKind (previous : Option TokenKind) (front : List Lexeme) : Option TokenKind :=
  (front.getLast?.map Lexeme.kind).or previous

theorem lastKind_append (previous : Option TokenKind) (front others : List Lexeme) :
    lastKind previous (front ++ others) = lastKind (lastKind previous front) others := by
  simp [lastKind, List.getLast?_append, Option.map_or, Option.or_assoc]

theorem lastKind_lexemes (previous : Option TokenKind) (scan : Scan) :
    lastKind previous scan.lexemes = some scan.lastKind := by
  simp [lastKind, Scan.lexemes, Scan.lastKind, List.getLast?_cons]

-- By induction on the parts. Each of them is in the scan of some rule.
theorem exists_takes (h : lexemes previous text = front ++ lexeme :: back) :
    ∃ before taken ahead later scan, before ++ taken = front ∧ ahead ++ later = back ∧
      scan.lexemes = taken ++ lexeme :: ahead ∧ scan.rest = textOf later ∧
      Takes (lastKind previous before) (textOf (scan.lexemes ++ later)) scan := by
  fun_induction lexemes previous text generalizing front
  case case1 => exact absurd h (by simp)
  case case2 previous c text scan hi =>
    obtain ⟨before, rfl, e⟩ | ⟨ahead, es, rfl⟩ := cases_of_append_eq h
    case inl =>
      obtain ⟨before', taken, ahead, later, scan', rfl, eb, es, er, ht⟩ := hi e
      rw [← lastKind_lexemes previous scan, ← lastKind_append] at ht
      exact ⟨scan.lexemes ++ before', taken, ahead, later, scan', by simp, eb, es, er, ht⟩
    case inr =>
      have er : textOf (lexemes (some scan.lastKind) scan.rest) = scan.rest :=
        flatMap_text_lexemes _ _
      have et : textOf (scan.lexemes ++ lexemes (some scan.lastKind) scan.rest) = c :: text := by
        rw [textOf_append, er]
        exact Scan.consumed_append_rest_next previous c text
      exact ⟨[], front, ahead, _, scan, rfl, rfl, es, er.symm, et ▸ Scan.takes_next⟩

theorem isBlank_of_mem_blanks {gap : List Char} (hg : IsBlanks gap) (h : lexeme ∈ Scan.blanks gap) :
    ∃ c, isBlank c ∧ lexeme = ⟨.blank, [c]⟩ := by
  have ⟨c, hc, e⟩ := List.mem_map.mp h
  exact ⟨c, hg c hc, e.symm⟩

-- Only the rule for keys takes further parts.
theorem Takes.more_cases (h : Takes previous text scan) : scan.more = [] ∨
    ∃ gap gap' tail value, IsBlanks gap ∧ IsBlanks gap' ∧ KeyValue tail value scan.rest ∧
      Scan.blanks gap ++ ⟨.equals, ['=']⟩ :: (Scan.blanks gap' ++ value) = scan.more := by
  cases h
  case key name gap gap' tail rest value hn hg hg' stop hv unworded e =>
    exact .inr ⟨gap, gap', tail, value, hg, hg', hv, by simp⟩
  all_goals exact .inl rfl

theorem KeyValue.eq_singleton {taken ahead : List Lexeme} {rest : List Char}
    (h : KeyValue text (taken ++ lexeme :: ahead) rest) :
    taken = [] ∧ ahead = [] ∧ lexeme.text ++ rest = text := by
  generalize e : taken ++ lexeme :: ahead = value at h
  have single {part : Lexeme} (e : taken ++ lexeme :: ahead = [part]) :
      taken = [] ∧ ahead = [] ∧ lexeme = part := by
    cases taken <;> simp at e
    exact ⟨rfl, e.2, e.1⟩
  cases h
  case missing => simp at e
  case quoted e' =>
    have ⟨ht, ha, hl⟩ := single e
    exact ⟨ht, ha, by rw [hl, e']⟩
  case unclosed =>
    have ⟨ht, ha, hl⟩ := single e
    exact ⟨ht, ha, by rw [hl]; rfl⟩
  case bare e' =>
    have ⟨ht, ha, hl⟩ := single e
    exact ⟨ht, ha, by rw [hl, e']⟩

-- Where a part of a text comes from: a rule starts with it, or it belongs to the key in front.
theorem cases_of_lexemes_eq (h : lexemes previous text = front ++ lexeme :: back) :
    (∃ scan, Takes (lastKind previous front) (textOf (lexeme :: back)) scan ∧
      scan.head = lexeme ∧ scan.more <+: back) ∨
    (∃ c, isBlank c ∧ lexeme = ⟨.blank, [c]⟩) ∨ lexeme = ⟨.equals, ['=']⟩ ∨
    ∃ front' gap, front' ++ ⟨.equals, ['=']⟩ :: Scan.blanks gap = front ∧ IsBlanks gap ∧
      KeyValue (textOf (lexeme :: back)) [lexeme] (textOf back) := by
  obtain ⟨before, taken, ahead, later, scan, rfl, rfl, es, er, ht⟩ := exists_takes h
  cases taken
  case nil =>
    obtain ⟨head, more⟩ := List.cons.inj es
    rw [es] at ht
    rw [List.append_nil]
    exact .inl ⟨scan, ht, head, later, by rw [more]⟩
  case cons first taken =>
    have ⟨_, em⟩ := List.cons.inj es
    obtain none | ⟨gap, gap', tail, value, hg, hg', hv, em'⟩ := ht.more_cases
    case inl => simp [none] at em
    case inr =>
      obtain ⟨taken', rfl, e'⟩ | ⟨_, e, _⟩ := cases_of_append_eq (em'.trans em)
      case inr => exact .inr (.inl (isBlank_of_mem_blanks hg (by simp [e])))
      case inl =>
        cases taken'
        case nil => exact .inr (.inr (.inl (List.cons.inj e').1.symm))
        case cons part taken' =>
          obtain ⟨rfl, e⟩ := List.cons.inj e'
          obtain ⟨taken, rfl, rfl⟩ | ⟨_, e, _⟩ := cases_of_append_eq e
          case inr => exact .inr (.inl (isBlank_of_mem_blanks hg' (by simp [e])))
          case inl =>
            obtain ⟨rfl, rfl, rfl⟩ := hv.eq_singleton
            rw [er] at hv
            refine .inr (.inr (.inr ⟨before ++ first :: Scan.blanks gap, gap', by simp, hg', ?_⟩))
            exact hv

inductive Shaped : Lexeme → Prop
  | blank {c : Char} (blank : isBlank c) : Shaped ⟨.blank, [c]⟩
  | connective {connective : Connective} {word : List Char} (spells : Spells connective word) :
    Shaped ⟨.connective connective, word⟩
  | opening : Shaped ⟨.paren .opening, ['(']⟩
  | closing : Shaped ⟨.paren .closing, [')']⟩
  | key {name : List Char} (hn : IsKeyName name) : Shaped ⟨.key, name⟩
  | equals : Shaped ⟨.equals, ['=']⟩
  | quoted {value : List Char} (hq : IsQuoted value) : Shaped ⟨.quoted, value⟩
  | bare {value : List Char} (ne : value ≠ []) : Shaped ⟨.bare, value⟩

theorem Takes.shaped (h : Takes previous text scan) : Shaped scan.head := by
  cases h
  case blank hb              => exact .blank hb
  case connective spells _   => exact .connective spells
  case opening               => exact .opening
  case closing               => exact .closing
  case key hn _ _ _ _ _ _    => exact .key hn
  case quoted hq _           => exact .quoted hq
  case bare                  => exact .bare (List.cons_ne_nil _ _)

theorem KeyValue.shaped {rest : List Char} (h : KeyValue text [lexeme] rest) : Shaped lexeme := by
  cases h
  case quoted hq _ => exact .quoted hq
  case unclosed    => exact .bare (List.cons_ne_nil _ _)
  case bare hb _   => exact .bare hb.nonempty

theorem shaped_of_mem_lexemes (h : lexeme ∈ lexemes previous text) : Shaped lexeme := by
  obtain ⟨front, back, e⟩ := List.append_of_mem h
  obtain ⟨scan, takes, rfl, _⟩ | ⟨c, hb, rfl⟩ | rfl | ⟨_, _, _, _, hv⟩ := cases_of_lexemes_eq e
  case inl             => exact takes.shaped
  case inr.inl         => exact .blank hb
  case inr.inr.inl     => exact .equals
  case inr.inr.inr     => exact hv.shaped

namespace Shaped

variable {word : List Char}

theorem ne_nil (h : Shaped lexeme) : lexeme.text ≠ [] := by
  cases h
  case connective spells => exact ne_nil_of_spells spells
  case key hn            => exact List.ne_nil_of_length_pos (Nat.lt_of_lt_of_le Nat.two_pos hn.1)
  case quoted hq         => cases hq; exact List.cons_ne_nil _ _
  case bare ne           => exact ne
  all_goals exact List.cons_ne_nil _ _

theorem spells {connective : Connective} (h : Shaped ⟨.connective connective, word⟩) :
    Spells connective word := by
  cases h
  case connective spells => exact spells

theorem isKeyName (h : Shaped lexeme) (key : lexeme.kind = .key) : IsKeyName lexeme.text := by
  cases h <;> cases key
  case key hn => exact hn

theorem isQuoted (h : Shaped lexeme) (quoted : lexeme.kind = .quoted) : IsQuoted lexeme.text := by
  cases h <;> cases quoted
  case quoted hq => exact hq

end Shaped

-- Behind an equals sign and blanks a quote can start a value.
theorem starts_behind_equals (front : List Lexeme) (gap : List Char) :
    quoteStartsOperand (lastKind previous (front ++ ⟨.equals, ['=']⟩ :: Scan.blanks gap)) := by
  obtain rfl | ⟨gap, c, rfl⟩ := List.eq_nil_or_concat gap
  case inl =>
    rw [lastKind_append]
    rfl
  case inr =>
    rw [List.concat_eq_append, Scan.blanks, List.map_append, ← List.cons_append,
      ← List.append_assoc, lastKind_append]
    rfl

theorem starts_of_lexemes_eq (h : lexemes previous text = front ++ lexeme :: back)
    (quoted : lexeme.kind = .quoted) : quoteStartsOperand (lastKind previous front) := by
  obtain ⟨scan, takes, rfl, _⟩ | ⟨_, _, rfl⟩ | rfl | ⟨front', gap, rfl, _, _⟩ :=
    cases_of_lexemes_eq h
  case inl =>
    generalize textOf (scan.head :: back) = text at takes
    cases takes <;> first | assumption | cases quoted
  case inr.inl     => cases quoted
  case inr.inr.inl => cases quoted
  case inr.inr.inr => exact starts_behind_equals front' gap

theorem kind_of_lexemes_eq_key {name : List Char}
    (h : lexemes previous text = front ++ ⟨.key, name⟩ :: lexeme :: back) :
    lexeme.kind = .blank ∨ lexeme.kind = .equals := by
  obtain ⟨scan, takes, head, ahead⟩ | ⟨_, _, e⟩ | e | ⟨_, _, _, _, hv⟩ := cases_of_lexemes_eq h
  case inl =>
    generalize textOf (⟨.key, name⟩ :: lexeme :: back) = text at takes
    cases takes <;> cases head
    case key gap _ _ _ _ _ _ _ _ _ _ _ =>
      obtain ⟨later, e⟩ := ahead
      cases gap
      case nil  => exact .inr (congrArg Lexeme.kind (List.cons.inj e).1.symm)
      case cons => exact .inl (congrArg Lexeme.kind (List.cons.inj e).1.symm)
  case inr.inl     => cases e
  case inr.inr.inl => cases e
  case inr.inr.inr =>
    generalize textOf (⟨.key, name⟩ :: lexeme :: back) = text at hv
    cases hv

end Grammar

end BoolSearch
