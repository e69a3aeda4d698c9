import BoolSearch.Proofs.Lockstep

namespace BoolSearch

open Grammar

def TokenKind.IsJoining (kind : TokenKind) : Prop :=
  kind = .connective .and ∨ kind = .connective .or

theorem TokenKind.isJoining_iff {kind : TokenKind} :
    kind.IsJoining ↔ ∃ connective, connective ≠ .not ∧ kind = .connective connective := by
  constructor
  case mp =>
    rintro (rfl | rfl)
    · exact ⟨.and, by simp, rfl⟩
    · exact ⟨.or, by simp, rfl⟩
  case mpr =>
    rintro ⟨connective, joins, rfl⟩
    cases connective
    case and => exact .inl rfl
    case or  => exact .inr rfl
    case not => contradiction

def TokenKind.IsValue (kind : TokenKind) : Prop :=
  kind = .quoted ∨ kind = .bare

namespace Grammar

variable {form : Form} {stage : Stage} {before after : List Lexeme} {connective : Connective}
  {word : List Char}

theorem Row.fits_joining (h : Row form stage (before ++ ⟨.connective connective, word⟩ :: after))
    (joins : connective ≠ .not) :
    Spells connective word ∧ ∀ c ∈ (textOf after).head?, endsWord c := by
  obtain ⟨_, fits, _⟩ := h.fits_of_append
  cases fits
  case negation               => contradiction
  case joining spells whole   => exact ⟨spells, whole⟩
  case keyValue hv            => cases hv
  case plainValue hv          => cases hv

theorem Row.stage_eq_closed (h : Row form stage (⟨.connective connective, word⟩ :: after))
    (joins : connective ≠ .not) : stage = .closed := by
  cases h
  case cons fits _ =>
    cases fits
    case negation      => contradiction
    case joining       => rfl
    case keyValue hv   => cases hv
    case plainValue hv => cases hv

-- What stands directly in front of a letter and completes a block does not end in a letter.
theorem Fits.isLetter_last {part : Lexeme} {rest front : List Char} {c d : Char}
    (h : Fits form stage part (c :: rest)) (closed : stage.next part.kind = .closed)
    (hc : isLetter c) (e : front ++ [d] = part.text) : isLetter d = false := by
  have value (hv : IsValue part (c :: rest)) : isLetter d = false := by
    cases hv
    case quoted hq =>
      obtain ⟨_, _, d', rfl, _, quote⟩ := hq.exists_concat
      obtain ⟨_, rfl⟩ := List.append_singleton_inj.mp e
      exact isLetter_of_isQuote quote
    case bare hb => exact absurd (isBare_of_isLetter hc) (ne_true_of_eq_false (hb.whole c rfl))
  cases h
  case blank b hb =>
    obtain ⟨_, rfl⟩ := List.append_singleton_inj.mp (e.trans (List.nil_append [b]).symm)
    exact isLetter_of_isBlank hb
  case closing =>
    obtain ⟨_, rfl⟩ := List.append_singleton_inj.mp (e.trans (List.nil_append [')']).symm)
    decide
  case keyValue hv   => exact value hv
  case plainValue hv => exact value hv
  all_goals cases closed

theorem Row.isLetter_before {front : List Char} {c : Char}
    (h : Row form stage (before ++ ⟨.connective connective, word⟩ :: after))
    (joins : connective ≠ .not) (e : front ++ [c] = textOf before) : isLetter c = false := by
  have ⟨spells, _⟩ := h.fits_joining joins
  obtain rfl | ⟨init, last, rfl⟩ := List.eq_nil_or_concat before
  case inl => simp at e
  case inr =>
    rw [List.concat_eq_append, List.append_assoc] at h
    obtain ⟨stage, fits, tail⟩ := h.fits_of_append
    have closed := tail.stage_eq_closed joins
    have ⟨text, d, et⟩ : ∃ text d, text ++ [d] = last.text := by
      obtain ⟨b, _, rfl⟩ | ⟨b, text, et, _⟩ := fits.blank_or
      case inl => exact ⟨[], b, rfl⟩
      case inr => exact ⟨_, _, (List.dropLast_concat_getLast (by simp [et]))⟩
    rw [List.concat_eq_append, textOf_append, textOf_cons, ← et, textOf_nil, List.append_nil,
      ← List.append_assoc] at e
    obtain ⟨_, rfl⟩ := List.append_singleton_inj.mp e
    have ⟨b, tail', ew⟩ := List.exists_cons_of_ne_nil (ne_nil_of_spells spells)
    subst ew
    exact fits.isLetter_last closed (isLetter_of_spells spells b (by simp)) et

theorem Row.exists_value_of_quote {others : List Lexeme} {text text' : List Char} {c : Char}
    (h : Row form stage (before ++ others)) (e : textOf before = text ++ c :: text')
    (quote : isQuote c) : ∃ front value back inner inner', front ++ value :: back = before ∧
      IsValue value (textOf (back ++ others)) ∧ inner ++ c :: inner' = value.text ∧
      textOf front ++ inner = text ∧ inner' ++ textOf back = text' := by
  obtain ⟨front, value, back, inner, inner', rfl, ev, ef, eb⟩ := exists_part_of_textOf_eq e
  rw [List.append_assoc] at h
  have ⟨_, fits, _⟩ := h.fits_of_append
  exact ⟨front, value, back, inner, inner', rfl,
    fits.isValue_of_isQuote (by simp [← ev]) quote, ev, ef, eb⟩

-- An equals sign in a quoted value has something other than blanks behind it in the value.
theorem IsQuoted.split_equals {inner inner' : List Char} (h : IsQuoted (inner ++ '=' :: inner')) :
    inner ≠ [] ∧ ¬IsBlanks inner' := by
  obtain ⟨opening, text, c, e, quote, quote'⟩ := h.exists_concat
  constructor
  case left =>
    rintro rfl
    cases e
    exact absurd quote (by decide)
  case right =>
    intro hb
    obtain rfl | ⟨init, last, rfl⟩ := List.eq_nil_or_concat inner'
    case inl =>
      obtain ⟨_, rfl⟩ := List.append_singleton_inj.mp e
      exact absurd quote' (by decide)
    case inr =>
      rw [List.concat_eq_append, ← List.cons_append, ← List.append_assoc] at e
      obtain ⟨_, rfl⟩ := List.append_singleton_inj.mp e
      have hc : isBlank c := hb c (by simp)
      exact absurd hc (ne_true_of_eq_false (isBlank_of_isQuote quote'))

theorem Row.exists_value_of_valued
    (h : Row form .valued (before ++ ⟨.connective connective, word⟩ :: after)) :
    ∃ gap value back, IsBlanks gap ∧ Scan.blanks gap ++ value :: back = before ∧
      IsValue value (textOf (back ++ ⟨.connective connective, word⟩ :: after)) := by
  obtain ⟨gap, value, others, hg, hv, _, e⟩ := h.exists_of_valued
  rw [← List.singleton_append, ← List.append_assoc] at e
  obtain ⟨back, rfl, rfl⟩ | ⟨_, e, _⟩ := cases_of_append_eq e
  case inl => exact ⟨gap, value, back, hg, by simp, hv⟩
  case inr =>
    have hm : ⟨.connective connective, word⟩ ∈ Scan.blanks gap ++ [value] := by simp [e]
    cases List.mem_append.mp hm
    case inl hm =>
      obtain ⟨_, _, e⟩ := isBlank_of_mem_blanks hg hm
      cases e
    case inr hm =>
      cases List.mem_singleton.mp hm
      cases hv

-- An equals sign in front of a connective lies in a quoted value, or a key's value follows it.
theorem Row.exists_value_of_equals {text text' : List Char}
    (h : Row form stage (before ++ ⟨.connective connective, word⟩ :: after))
    (e : textOf before = text ++ '=' :: text') :
    ∃ front value back, front ++ value :: back = before ∧
      IsValue value (textOf (back ++ ⟨.connective connective, word⟩ :: after)) ∧
      ((∃ inner inner', inner ++ '=' :: inner' = value.text ∧ textOf front ++ inner = text ∧
        inner' ++ textOf back = text' ∧ inner ≠ [] ∧ ¬IsBlanks inner') ∨
      ∃ gap, IsBlanks gap ∧ textOf front = text ++ '=' :: gap ∧
        gap ++ (value.text ++ textOf back) = text') := by
  obtain ⟨front, part, back, inner, inner', rfl, ep, rfl, rfl⟩ := exists_part_of_textOf_eq e
  rw [List.append_assoc] at h
  have ⟨stage, fits, tail⟩ := h.fits_of_append
  cases fits.isQuoted_of_equals (by simp [← ep])
  case inl hp =>
    subst hp
    obtain ⟨rfl, rfl⟩ : inner = [] ∧ inner' = [] := by cases inner <;> simp_all
    obtain ⟨gap, value, back, hg, rfl, hv⟩ := Row.exists_value_of_valued tail
    refine ⟨front ++ ⟨.equals, ['=']⟩ :: Scan.blanks gap, value, back, by simp, hv, .inr ?_⟩
    exact ⟨gap, hg, by simp, by simp⟩
  case inr hp =>
    obtain ⟨opening, _, _, eq, quote, _⟩ := hp.2.exists_concat
    have hv := fits.isValue_of_isQuote (by simp [← eq]) quote
    have ⟨ne, hb⟩ := IsQuoted.split_equals (ep ▸ hp.2)
    exact ⟨front, part, back, rfl, hv, .inl ⟨inner, inner', ep, rfl, rfl, ne, hb⟩⟩

section Overlap

variable {token : Lexeme} {rest inner inner' : List Char} {c : Char}

theorem IsQuoted.unique {value value' rest' : List Char} (h : IsQuoted value)
    (h' : IsQuoted value') (e : value ++ rest = value' ++ rest') : value = value' := by
  have hq := quoted?_eq_some_iff.mpr ⟨h, e⟩
  rw [quoted?_eq_some_iff.mpr ⟨h', rfl⟩] at hq
  exact (congrArg Prod.fst (Option.some.inj hq)).symm

-- A value that reaches into a word of letters takes the whole word.
theorem IsValue.exists_append_of_letters {tail : List Char} (hv : IsValue token rest)
    (e : inner ++ c :: inner' = token.text) (hl : ∀ d ∈ word, isLetter d)
    (e' : c :: inner' ++ rest = word ++ tail) : ∃ back, word ++ back = c :: inner' := by
  obtain ⟨back, ew, er⟩ | ⟨back, ec, _⟩ := List.append_eq_append_iff.mp e'
  case inr => exact ⟨back, ec.symm⟩
  case inl =>
    cases hv
    case quoted text hq =>
      obtain ⟨opening, text', quote, rfl, _, hquote⟩ := hq.exists_concat
      have el : (c :: inner').dropLast ++ [(c :: inner').getLast (by simp)] = c :: inner' :=
        List.dropLast_concat_getLast _
      rw [← el, ← List.append_assoc] at e
      obtain ⟨_, last⟩ := List.append_singleton_inj.mp e
      have hm : quote ∈ word := by
        rw [ew, ← last]
        exact List.mem_append_left back (List.getLast_mem _)
      exact absurd hquote (ne_true_of_eq_false (isQuote_of_isLetter (hl quote hm)))
    case bare text hb =>
      cases back
      case nil => exact ⟨[], by simpa using ew⟩
      case cons d back =>
        have hd := hl d (by simp [ew])
        exact absurd (isBare_of_isLetter hd) (ne_true_of_eq_false (hb.whole d (by simp [er])))

theorem KeyValue.not_blank {text : List Char} (h : KeyValue text [token] rest) :
    ∀ c ∈ text.head?, isBlank c = false := by
  cases h
  case quoted hq e =>
    have quote := isQuote_of_beginsQuoted ⟨_, _, hq, e⟩
    exact fun c hc => isBlank_of_isQuote (quote c hc)
  case unclosed quote _ =>
    rintro _ ⟨⟩
    exact isBlank_of_isQuote quote
  case bare value hb e =>
    subst e
    intro c hc
    rw [head?_append_of_ne_nil hb.nonempty] at hc
    exact isBlank_of_isBare (hb.bare c (List.mem_of_mem_head? hc))

theorem KeyValue.isValue {text : List Char} (h : KeyValue text [token] rest)
    (e : inner ++ c :: inner' = token.text) (hc : isLetter c) : IsValue token rest := by
  cases h
  case quoted hq _ => exact .quoted hq
  case bare hb _   => exact .bare hb
  case unclosed quote _ =>
    cases inner
    case nil =>
      cases e
      exact absurd quote (ne_true_of_eq_false (isQuote_of_isLetter hc))
    case cons => simp at e

end Overlap

def EndsInValue (text : List Char) (parts : List Lexeme) : Prop :=
  ∃ front value back lead trail, front ++ value :: back = parts ∧
    value.kind.IsValue ∧ lead ≠ [] ∧ trail ≠ [] ∧ textOf front ++ lead = text ∧
    lead ++ trail = value.text

theorem IsValue.kind {value : Lexeme} {rest : List Char} (hv : IsValue value rest) :
    value.kind.IsValue := by
  cases hv
  case quoted => exact .inl rfl
  case bare   => exact .inr rfl

variable {token : Lexeme} {front rest inner inner' : List Char} {c : Char}

-- A quoted token that reaches behind some parts does not start where one of their values does.
theorem Row.endsInValue_of_isQuoted {others : List Lexeme} (h : Row form stage (before ++ others))
    (hq : IsQuoted token.text) (et : inner ++ c :: inner' = token.text) (ne : inner ≠ [])
    (ef : front ++ inner = textOf before) (er : c :: inner' ++ rest = textOf others) :
    EndsInValue front before := by
  cases inner
  case nil => contradiction
  case cons quote inner =>
    have hquote : isQuote quote :=
      isQuote_of_beginsQuoted ⟨token.text, rest, hq, rfl⟩ quote (by simp [← et])
    obtain ⟨front', value, back, lead, trail, rfl, hv, ev, rfl, rfl⟩ :=
      h.exists_value_of_quote ef.symm hquote
    refine ⟨front', value, back, lead, quote :: trail, rfl, hv.kind, ?_, by simp, rfl, ev⟩
    rintro rfl
    have hq' : IsQuoted value.text := by
      cases hv
      case quoted hq'   => exact hq'
      case bare text hb =>
        cases (ev : quote :: trail = text)
        exact absurd hquote (ne_true_of_eq_false (hb.unquoted quote rfl))
    have same : value.text = token.text := by
      have e : value.text ++ (textOf back ++ textOf others) = token.text ++ rest := by
        rw [← ev, ← et, ← er]
        simp
      exact hq'.unique hq e
    have := congrArg List.length (ev.trans (same.trans et.symm))
    simp only [List.length_append, List.length_cons, List.length_nil] at this
    omega

theorem Row.endsInValue_of_keyValue {text gap : List Char}
    (h : Row form stage (before ++ ⟨.connective connective, word⟩ :: after))
    (hg : IsBlanks gap) (hv : KeyValue (token.text ++ rest) [token] rest)
    (et : inner ++ c :: inner' = token.text) (ef : text ++ '=' :: gap = front)
    (eb : front ++ inner = textOf before) (er : c :: inner' ++ rest = word ++ textOf after) :
    EndsInValue front before := by
  subst ef
  rw [List.append_assoc, List.cons_append] at eb
  obtain ⟨front', value, back, rfl, hv', ⟨lead, trail, ev, rfl, e, _, hb⟩ | ⟨gap', hg', ef, e⟩⟩ :=
    h.exists_value_of_equals eb.symm
  case inl =>
    obtain ⟨trail', eg, _⟩ | ⟨trail', et', _⟩ := List.append_eq_append_iff.mp e
    case inl => exact absurd (fun d hd => hg d (by simp [eg, hd])) hb
    case inr =>
      refine ⟨front', value, back, lead ++ '=' :: gap, trail', rfl, hv'.kind, by simp, ?_, by simp,
        ?_⟩
      · rintro rfl
        exact hb (by simpa [et'] using hg)
      · rw [← ev, et']
        simp
  case inr =>
    let later := textOf (back ++ ⟨.connective connective, word⟩ :: after)
    have all : gap ++ (token.text ++ rest) = gap' ++ (value.text ++ later) := by
      rw [← et, List.append_assoc, er, ← List.append_assoc, ← e]
      simp [later]
    have ⟨d, text', ev, hd⟩ := hv'.opens
    have stop : ∀ b ∈ (value.text ++ later).head?, isBlank b = false := by
      rw [ev]
      rintro _ ⟨⟩
      exact isBlank_of_isBare hd
    have same := congrArg skipBlanks all
    rw [skipBlanks_append hg hv.not_blank, skipBlanks_append hg' stop] at same
    rw [same] at hv
    have found := (Scan.keyValue_eq_iff.mpr hv).symm.trans (Scan.keyValue_eq_iff.mpr hv'.keyValue)
    cases found
    rw [same] at all
    cases List.append_cancel_right all
    have := congrArg List.length (List.append_cancel_left e)
    rw [← et] at this
    simp only [List.length_append, List.length_cons] at this
    omega

theorem Row.eq_nil_of_letters
    (h : Row form stage (before ++ ⟨.connective connective, word⟩ :: after))
    (joins : connective ≠ .not) (eb : front ++ inner = textOf before)
    (hl : ∀ d ∈ inner, isLetter d) : inner = [] := by
  obtain rfl | ⟨init, last, rfl⟩ := List.eq_nil_or_concat inner
  case inl => rfl
  case inr =>
    rw [List.concat_eq_append, ← List.append_assoc] at eb
    have hn := h.isLetter_before joins eb
    exact absurd (hl last (by simp)) (ne_true_of_eq_false hn)

-- The token at the start of the connective is the connective, or it is a value token that starts
-- inside a value in front of the connective.
theorem Row.eq_or_endsInValue {previous : Option TokenKind} {front back : List Lexeme}
    (h : Row form stage (before ++ ⟨.connective connective, word⟩ :: after))
    (joins : connective ≠ .not)
    (tokens : lexemes previous (textOf (before ++ ⟨.connective connective, word⟩ :: after)) =
      front ++ token :: back)
    (et : inner ++ c :: inner' = token.text) (eb : textOf front ++ inner = textOf before)
    (er : c :: inner' ++ textOf back = word ++ textOf after) :
    inner = [] ∧ token = ⟨.connective connective, word⟩ ∨
      IsValue token (textOf back) ∧ EndsInValue (textOf front) before := by
  have ⟨spells, _⟩ := h.fits_joining joins
  have hc : isLetter c := by
    have hm : c ∈ (word ++ textOf after).head? := by simp [← er]
    rw [head?_append_of_ne_nil (ne_nil_of_spells spells)] at hm
    exact isLetter_of_spells spells c (List.mem_of_mem_head? hm)
  have single {d : Char} (e : token.text = [d]) : inner = [] ∧ c = d := by
    rw [e] at et
    cases inner <;> simp_all
  have mem {d : Char} (hd : d ∈ inner) : d ∈ token.text := et ▸ List.mem_append_left _ hd
  have begins (e : inner = []) : Begins connective (textOf (token :: back)) := by
    refine ⟨word, textOf after, ?_, spells⟩
    rw [textOf_cons, ← et, e, ← er]
    rfl
  obtain ⟨scan, takes, head, -⟩ | ⟨d, hb, rfl⟩ | rfl | ⟨front', gap, ef, hg, hv⟩ :=
    cases_of_lexemes_eq tokens
  case inr.inl =>
    obtain ⟨_, rfl⟩ := single rfl
    exact absurd hb (ne_true_of_eq_false (isBlank_of_isLetter hc))
  case inr.inr.inl =>
    obtain ⟨_, rfl⟩ := single rfl
    exact absurd hc (by decide)
  case inr.inr.inr =>
    have ef : textOf front' ++ '=' :: gap = textOf front := by simp [← ef]
    exact .inr ⟨hv.isValue et hc, h.endsInValue_of_keyValue hg hv et ef eb er⟩
  case inl =>
    generalize e : textOf (token :: back) = text at takes begins
    cases takes
    case blank d text hb =>
      cases head
      obtain ⟨_, rfl⟩ := single rfl
      exact absurd hb (ne_true_of_eq_false (isBlank_of_isLetter hc))
    case opening =>
      cases head
      obtain ⟨_, rfl⟩ := single rfl
      exact absurd hc (by decide)
    case closing =>
      cases head
      obtain ⟨_, rfl⟩ := single rfl
      exact absurd hc (by decide)
    case bare d text _ _ unworded _ _ =>
      cases head
      exact absurd (begins (single rfl).1) (unworded connective)
    case key hn _ _ _ _ unworded _ =>
      cases head
      have hi := h.eq_nil_of_letters joins eb fun d hd => hn.2 d (mem hd)
      exact absurd (begins hi) (unworded connective)
    case connective other word' rest' spells' e' =>
      cases head
      have hi := h.eq_nil_of_letters joins eb fun d hd => isLetter_of_spells spells' d (mem hd)
      cases Begins.unique (begins hi) ⟨word', rest', e', spells'⟩
      subst hi
      have el : word'.length = word.length :=
        (length_of_spells spells').trans (length_of_spells spells).symm
      cases (et : c :: inner' = word')
      cases List.append_inj_left er el
      exact .inl ⟨rfl, rfl⟩
    case quoted value rest' _ hq e' =>
      cases head
      have hi : inner ≠ [] := by
        rintro rfl
        cases (et : c :: inner' = value)
        have quote := isQuote_of_beginsQuoted ⟨_, rest', hq, rfl⟩ c rfl
        exact absurd quote (ne_true_of_eq_false (isQuote_of_isLetter hc))
      exact .inr ⟨.quoted hq, h.endsInValue_of_isQuoted hq et hi eb er⟩

end Grammar

end BoolSearch
