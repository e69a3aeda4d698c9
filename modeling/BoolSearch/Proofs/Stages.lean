import BoolSearch.Proofs.Recognition

namespace BoolSearch.Grammar

-- Where a text stands between two of its parts: in front of an operand, behind a key, behind the
-- equals sign of a key, or behind a block.
inductive Stage
  | operand
  | named
  | valued
  | closed
  deriving DecidableEq

namespace Stage

def next (stage : Stage) : TokenKind → Stage
  | .blank                            => stage
  | .connective _ | .paren .opening   => operand
  | .key                              => named
  | .equals                           => valued
  | .paren .closing | .quoted | .bare => closed

-- May an operand with this text follow? Directly behind a block its first character has to tell
-- it apart from what could belong to the block.
def Awaits (stage : Stage) (text : List Char) : Prop :=
  stage = operand ∨ stage = closed ∧ ∀ c ∈ text.head?, isOperandStart c = false

end Stage

inductive Fits (form : Form) : Stage → Lexeme → List Char → Prop
  | blank {stage : Stage} {c : Char} {rest : List Char} (blank : isBlank c) :
    Fits form stage ⟨.blank, [c]⟩ rest
  | negation {word rest : List Char} (spells : Spells .not word) :
    Fits form .operand ⟨.connective .not, word⟩ rest
  | joining {connective : Connective} {word rest : List Char} (joins : connective ≠ .not)
    (spells : Spells connective word) (whole : ∀ c ∈ rest.head?, endsWord c) :
    Fits form .closed ⟨.connective connective, word⟩ rest
  | opening {stage : Stage} {rest : List Char} (awaits : stage.Awaits ['(']) :
    Fits form stage ⟨.paren .opening, ['(']⟩ rest
  | closing {rest : List Char} : Fits form .closed ⟨.paren .closing, [')']⟩ rest
  | key {name rest : List Char} (keyed : form = .keyed) (hn : IsKeyName name) :
    Fits form .operand ⟨.key, name⟩ rest
  | equals {rest : List Char} : Fits form .named ⟨.equals, ['=']⟩ rest
  | keyValue {value : Lexeme} {rest : List Char} (keyed : form = .keyed) (hv : IsValue value rest) :
    Fits form .valued value rest
  | plainValue {stage : Stage} {value : Lexeme} {rest : List Char} (plain : form = .plain)
    (awaits : stage.Awaits value.text) (hv : IsValue value rest) : Fits form stage value rest

-- The parts of the rest of a text, from a stage on to the end.
inductive Row (form : Form) : Stage → List Lexeme → Prop
  | nil : Row form .closed []
  | cons {stage : Stage} {part : Lexeme} {parts : List Lexeme}
    (fits : Fits form stage part (textOf parts)) (tail : Row form (stage.next part.kind) parts) :
    Row form stage (part :: parts)

variable {form : Form} {stage : Stage} {parts others : List Lexeme} {rest : List Char}

namespace Row

theorem blanks {gap : List Char} (hg : IsBlanks gap) (h : Row form stage parts) :
    Row form stage (Scan.blanks gap ++ parts) := by
  induction gap
  case nil => exact h
  case cons c gap hi =>
    exact .cons (.blank (hg c (by simp))) (hi fun d hd => hg d (List.mem_cons_of_mem _ hd))

end Row

theorem Stage.next_of_isValue {value : Lexeme} (hv : IsValue value rest) :
    stage.next value.kind = closed := by
  cases hv <;> rfl

theorem Stage.eq_operand_of_awaits {c : Char} {text : List Char} (h : stage.Awaits (c :: text))
    (hc : isLetter c) : stage = operand := by
  cases h
  case inl h => exact h
  case inr h => exact absurd (isOperandStart_of_isLetter hc) (ne_true_of_eq_false (h.2 c rfl))

theorem Stage.Awaits.of_head? {text text' : List Char} (h : stage.Awaits text)
    (e : text.head? = text'.head?) : stage.Awaits text' :=
  h.imp_right fun h => ⟨h.1, e ▸ h.2⟩

theorem IsLeaf.row (hl : IsLeaf form parts rest) (tail : Row form .closed others)
    (e : textOf others = rest) (awaits : stage.Awaits (textOf parts)) :
    Row form stage (parts ++ others) := by
  cases hl
  case keyed name gap gap' value hn hg hg' hv =>
    subst e
    cases name
    case nil => exact absurd hn.1 (by simp)
    case cons c name =>
      cases Stage.eq_operand_of_awaits awaits (hn.2 c (by simp))
      have values : Row .keyed .valued (value :: others) :=
        .cons (.keyValue rfl hv) (Stage.next_of_isValue hv ▸ tail)
      have row : Row .keyed .named
          (Scan.blanks gap ++ ⟨.equals, ['=']⟩ :: (Scan.blanks gap' ++ value :: others)) :=
        .blanks hg (.cons .equals (.blanks hg' values))
      simpa using Row.cons (.key rfl hn) row
  case plain value hv _ =>
    subst e
    have awaits : stage.Awaits value.text := by simpa using awaits
    exact .cons (.plainValue rfl awaits hv) (Stage.next_of_isValue hv ▸ tail)

-- By induction on the phrase. What follows it is in a row already.
theorem Derives.row {phrase : Phrase} {room : Nat} (hd : Derives form phrase room parts rest)
    (tail : Row form .closed others) (e : textOf others = rest)
    (awaits : stage.Awaits (textOf parts)) : Row form stage (parts ++ others) := by
  induction hd generalizing stage others
  case leaf leaf => exact leaf.row tail e awaits
  case group gap gap' rest inner room hg hg' _ hi =>
    have row := hi (.blanks hg' (.cons .closing tail)) (by simp [e]) (.inl rfl)
    have opening := Row.cons (.opening (awaits.of_head? rfl)) (Row.blanks hg row)
    simpa using opening
  case asserted hi => exact hi tail e awaits
  case negated word gap rest inner room spells hg _ _ hi =>
    cases word
    case nil => exact absurd rfl (ne_nil_of_spells spells)
    case cons c word =>
      cases Stage.eq_operand_of_awaits awaits (isLetter_of_spells spells c (by simp))
      simpa using Row.cons (.negation spells) (.blanks hg (hi tail e (.inl rfl)))
  case single hi => exact hi tail e awaits
  case joined connective word gap gap' rest first later room grouped block hg joins spells whole hg'
      _ hb hi =>
    subst e
    have joined : Row form .closed
        (⟨.connective connective, word⟩ :: (Scan.blanks gap' ++ (later ++ others))) :=
      .cons (.joining joins spells (by simpa using whole)) (.blanks hg' (hi tail rfl (.inl rfl)))
    have ⟨_, _, eb, _⟩ := block.opens
    have awaits : stage.Awaits (textOf first) := awaits.of_head? (by simp [eb])
    simpa using hb (.blanks hg joined) (by simp) awaits
  case adjoined gap rest first later room block hg apart _ hb hi =>
    subst e
    have ⟨_, _, eb, _⟩ := block.opens
    have awaits : stage.Awaits (textOf first) := awaits.of_head? (by simp [eb])
    simpa using hb (.blanks hg (hi tail rfl (.inr ⟨rfl, apart⟩))) (by simp) awaits

theorem Sentence.row {room : Nat} (h : Sentence form room parts) : Row form .operand parts := by
  cases h
  case mk gap gap' inner hg hg' hd =>
    have trailing : Row form .closed (Scan.blanks gap' ++ []) := .blanks hg' .nil
    rw [List.append_nil] at trailing
    exact .blanks hg (hd.row trailing (by simp) (.inl rfl))

theorem Stage.not_awaits_named {text : List Char} : ¬named.Awaits text := by
  simp [Awaits]

theorem Stage.not_awaits_valued {text : List Char} : ¬valued.Awaits text := by
  simp [Awaits]

theorem Fits.blank_or {part : Lexeme} (h : Fits form stage part rest) :
    (∃ c, isBlank c ∧ part = ⟨.blank, [c]⟩) ∨
      ∃ c text, part.text = c :: text ∧ isBlank c = false := by
  have value {value : Lexeme} (hv : IsValue value rest) :
      ∃ c text, value.text = c :: text ∧ isBlank c = false := by
    have ⟨c, text, e, hc⟩ := hv.opens
    exact ⟨c, text, e, Opens.not_blank (.inr hc)⟩
  have letters {text : List Char} (ne : text ≠ []) (hl : ∀ c ∈ text, isLetter c) :
      ∃ c tail, text = c :: tail ∧ isBlank c = false := by
    have ⟨c, tail, e⟩ := List.exists_cons_of_ne_nil ne
    exact ⟨c, tail, e, isBlank_of_isLetter (hl c (by simp [e]))⟩
  cases h
  case blank c hb    => exact .inl ⟨c, hb, rfl⟩
  case opening       => exact .inr ⟨_, _, rfl, by decide⟩
  case closing       => exact .inr ⟨_, _, rfl, by decide⟩
  case equals        => exact .inr ⟨_, _, rfl, by decide⟩
  case keyValue hv   => exact .inr (value hv)
  case plainValue hv => exact .inr (value hv)
  case key hn        => exact .inr (letters (by rintro rfl; simp [IsKeyName] at hn) hn.2)
  case negation spells =>
    exact .inr (letters (ne_nil_of_spells spells) (isLetter_of_spells spells))
  case joining _ _ spells _ =>
    exact .inr (letters (ne_nil_of_spells spells) (isLetter_of_spells spells))

namespace Row

-- Behind a key there are its equals sign and its value.
theorem exists_of_named (h : Row form .named parts) : ∃ gap others, IsBlanks gap ∧
    Row form .valued others ∧ Scan.blanks gap ++ ⟨.equals, ['=']⟩ :: others = parts := by
  induction parts
  case nil => cases h
  case cons part parts hi =>
    cases h
    case cons fits tail =>
      cases fits
      case blank c hb =>
        obtain ⟨gap, others, hg, row, rfl⟩ := hi tail
        exact ⟨c :: gap, others, List.forall_mem_cons.mpr ⟨hb, hg⟩, row, rfl⟩
      case equals                 => exact ⟨[], parts, isBlanks_nil, tail, rfl⟩
      case opening awaits         => exact absurd awaits Stage.not_awaits_named
      case plainValue _ awaits _ => exact absurd awaits Stage.not_awaits_named

theorem exists_of_valued (h : Row form .valued parts) : ∃ gap value others, IsBlanks gap ∧
    IsValue value (textOf others) ∧ Row form .closed others ∧
    Scan.blanks gap ++ value :: others = parts := by
  induction parts
  case nil => cases h
  case cons part parts hi =>
    cases h
    case cons fits tail =>
      cases fits
      case blank c hb =>
        obtain ⟨gap, value, others, hg, hv, row, rfl⟩ := hi tail
        exact ⟨c :: gap, value, others, List.forall_mem_cons.mpr ⟨hb, hg⟩, hv, row, rfl⟩
      case keyValue _ hv =>
        exact ⟨[], part, parts, isBlanks_nil, hv, Stage.next_of_isValue hv ▸ tail, rfl⟩
      case opening awaits         => exact absurd awaits Stage.not_awaits_valued
      case plainValue _ awaits _ => exact absurd awaits Stage.not_awaits_valued

-- What could still belong to a value does not follow a block.
theorem head?_of_closed (h : Row form .closed parts) :
    ∀ c ∈ (textOf parts).head?, isQuote c = false ∧ c ≠ '=' := by
  cases h
  case nil => simp
  case cons part parts fits tail =>
    cases fits
    case blank c hb =>
      rintro _ ⟨⟩
      constructor
      · exact isQuote_of_isBlank hb
      · rintro rfl
        exact absurd hb (by decide)
    case joining connective word joins spells whole =>
      intro c hc
      rw [textOf_cons, head?_append_of_ne_nil (ne_nil_of_spells spells)] at hc
      have hl := isLetter_of_spells spells c (List.mem_of_mem_head? hc)
      refine ⟨isQuote_of_isLetter hl, ?_⟩
      rintro rfl
      exact absurd hl (by decide)
    case opening => simp [isQuote, quotePairs]
    case closing => simp [isQuote, quotePairs]
    case plainValue _ awaits hv =>
      obtain ⟨c, text, e, hb⟩ := hv.opens
      have apart : isOperandStart c = false := by
        cases awaits
        case inl h => cases h
        case inr h => exact h.2 c (by simp [e])
      intro d hd
      rw [textOf_cons, e] at hd
      cases hd
      refine ⟨(Bool.or_eq_false_iff.mp apart).2, ?_⟩
      rintro rfl
      exact absurd hb (by decide)

theorem ne_equals_of_closed {gap : List Char} (h : Row form .closed parts) (hg : IsBlanks gap) :
    gap ++ '=' :: rest ≠ textOf parts := by
  induction parts generalizing gap
  case nil => simp
  case cons part parts hi =>
    intro e
    cases gap
    case nil => exact (h.head?_of_closed '=' (by simp [← e])).2 rfl
    case cons d gap =>
      cases h
      case cons fits tail =>
        obtain ⟨c, _, rfl⟩ | ⟨c, text, et, hc⟩ := fits.blank_or
        case inl =>
          simp only [textOf_cons, List.cons_append, List.nil_append, List.cons.injEq] at e
          exact hi tail (fun c hc => hg c (by simp [hc])) e.2
        case inr =>
          simp only [textOf_cons, et, List.cons_append, List.cons.injEq] at e
          cases e.1
          exact absurd (hg d (by simp)) (ne_true_of_eq_false hc)

end Row

theorem Row.fits_of_append {front back : List Lexeme} {part : Lexeme}
    (h : Row form stage (front ++ part :: back)) : ∃ stage, Fits form stage part (textOf back) ∧
      Row form (stage.next part.kind) back := by
  induction front generalizing stage
  case nil =>
    cases h
    case cons fits tail => exact ⟨stage, fits, tail⟩
  case cons hi =>
    cases h
    case cons tail => exact hi tail

theorem Enclosed.exists_concat {opening : Char} {text : List Char} (h : Enclosed opening text) :
    ∃ front c, front ++ [c] = text ∧ isQuote c := by
  induction h
  case close c closing => exact ⟨[], c, rfl, isQuote_of_closes closing⟩
  case escape c _ _ hi =>
    obtain ⟨front, d, rfl, quote⟩ := hi
    exact ⟨_ :: c :: front, d, rfl, quote⟩
  case inner c _ _ _ _ hi =>
    obtain ⟨front, d, rfl, quote⟩ := hi
    exact ⟨c :: front, d, rfl, quote⟩

theorem IsQuoted.exists_concat {text : List Char} (h : IsQuoted text) :
    ∃ opening inner c, opening :: inner ++ [c] = text ∧ isQuote opening ∧ isQuote c := by
  cases h
  case mk opening _ quote tail =>
    obtain ⟨inner, c, rfl, quote'⟩ := tail.exists_concat
    exact ⟨opening, inner, c, rfl, quote, quote'⟩

section Characters

variable {part : Lexeme} {c : Char}

-- Only values have quotes in them.
theorem Fits.isValue_of_isQuote (h : Fits form stage part rest) (hc : c ∈ part.text)
    (quote : isQuote c) : IsValue part rest := by
  have ordinary (hn : isQuote c = false) : IsValue part rest :=
    absurd quote (ne_true_of_eq_false hn)
  cases h
  case blank hb =>
    cases List.mem_singleton.mp hc
    exact ordinary (isQuote_of_isBlank hb)
  case negation spells      => exact ordinary (isQuote_of_isLetter (isLetter_of_spells spells c hc))
  case joining _ spells _   => exact ordinary (isQuote_of_isLetter (isLetter_of_spells spells c hc))
  case opening              => exact ordinary (by cases List.mem_singleton.mp hc; decide)
  case closing              => exact ordinary (by cases List.mem_singleton.mp hc; decide)
  case key _ hn             => exact ordinary (isQuote_of_isLetter (hn.2 c hc))
  case equals               => exact ordinary (by cases List.mem_singleton.mp hc; decide)
  case keyValue _ hv        => exact hv
  case plainValue _ _ hv    => exact hv

-- Only the equals sign of a key and quoted values have an equals sign in them.
theorem Fits.isQuoted_of_equals (h : Fits form stage part rest) (he : '=' ∈ part.text) :
    part = ⟨.equals, ['=']⟩ ∨ part.kind = .quoted ∧ IsQuoted part.text := by
  have value (hv : IsValue part rest) : part.kind = .quoted ∧ IsQuoted part.text := by
    cases hv
    case quoted hq => exact ⟨rfl, hq⟩
    case bare hb   => exact absurd (hb.bare _ he) (by decide)
  have letters (hl : ∀ c ∈ part.text, isLetter c) : part = ⟨.equals, ['=']⟩ :=
    absurd (hl _ he) (by decide)
  cases h
  case blank hb =>
    cases List.mem_singleton.mp he
    exact absurd hb (by decide)
  case negation spells      => exact .inl (letters (isLetter_of_spells spells))
  case joining _ spells _   => exact .inl (letters (isLetter_of_spells spells))
  case opening              => simp at he
  case closing              => simp at he
  case key _ hn             => exact .inl (letters hn.2)
  case equals               => exact .inl rfl
  case keyValue _ hv        => exact .inr (value hv)
  case plainValue _ _ hv    => exact .inr (value hv)

end Characters

end BoolSearch.Grammar
