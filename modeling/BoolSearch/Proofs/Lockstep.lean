import Mathlib
import BoolSearch.Proofs.Scans
import BoolSearch.Proofs.Stages

namespace BoolSearch

open Grammar

namespace Grammar

instance decidableForallConnective (p : Connective → Prop) [DecidablePred p] :
    Decidable (∀ connective, p connective) :=
  decidable_of_iff (p .and ∧ p .or ∧ p .not)
    ⟨fun ⟨ha, ho, hn⟩ connective => by cases connective <;> assumption, fun h => ⟨h _, h _, h _⟩⟩

instance decidableBegins (connective : Connective) (text : List Char) :
    Decidable (Begins connective text) :=
  decidable_of_iff _ startsWith_iff

def Contains (connective : Connective) (text : List Char) : Prop :=
  ∃ front back, front ++ back = text ∧ Begins connective back

instance decidableContains (connective : Connective) (text : List Char) :
    Decidable (Contains connective text) :=
  decidable_of_iff (∃ n < text.length + 1, Begins connective (text.drop n)) <| by
    constructor
    case mp =>
      rintro ⟨n, _, h⟩
      exact ⟨text.take n, text.drop n, List.take_append_drop n text, h⟩
    case mpr =>
      rintro ⟨front, back, rfl, h⟩
      exact ⟨front.length, by rw [List.length_append]; omega, by simpa using h⟩

-- The rules for texts know nothing of what is expected where, so they see connectives inside keys
-- and values too. For them a quote directly behind one starts a value.
def QuotesBehind (text : List Char) : Prop :=
  ∃ front connective word c back, Spells connective word ∧ isQuote c ∧
    front ++ (word ++ c :: back) = text

theorem QuotesBehind.append {text : List Char} (front : List Char) (h : QuotesBehind text) :
    QuotesBehind (front ++ text) := by
  obtain ⟨front', connective, word, c, back, spells, quote, rfl⟩ := h
  exact ⟨front ++ front', connective, word, c, back, spells, quote, by simp⟩

theorem Begins.append {connective : Connective} {text : List Char} (h : Begins connective text)
    (rest : List Char) : Begins connective (text ++ rest) := by
  obtain ⟨word, back, rfl, spells⟩ := h
  exact ⟨word, back ++ rest, (List.append_assoc ..).symm, spells⟩

theorem Contains.append {connective : Connective} {text : List Char} (front : List Char)
    (h : Contains connective text) : Contains connective (front ++ text) := by
  obtain ⟨front', back, rfl, hb⟩ := h
  exact ⟨front ++ front', back, by simp, hb⟩

theorem QuotesBehind.exists_contains {text : List Char} (h : QuotesBehind text) :
    ∃ connective, Contains connective text := by
  obtain ⟨front, connective, word, c, back, spells, _, rfl⟩ := h
  exact ⟨connective, front, _, rfl, word, _, rfl, spells⟩

end Grammar

theorem exists_append_of_run {p : Char → Bool} {word rest run rest' : List Char}
    (hw : ∀ c ∈ word, p c) (hr : ∀ c ∈ rest'.head?, p c = false)
    (h : word ++ rest = run ++ rest') : ∃ back, word ++ back = run := by
  obtain ⟨back, e, _⟩ | ⟨front, e, e'⟩ := List.append_eq_append_iff.mp h
  case inl => exact ⟨back, e.symm⟩
  case inr =>
    cases front
    case nil => exact ⟨[], by simpa using e⟩
    case cons c front =>
      exact absurd (hw c (by simp [e])) (ne_true_of_eq_false (hr c (by simp [e'])))

variable {text rest : List Char} {previous : Option TokenKind} {form : Form}

theorem begins_of_begins_append {connective : Connective}
    (hl : ∀ c ∈ rest.head?, isLetter c = false) (h : Begins connective (text ++ rest)) :
    Begins connective text := by
  obtain ⟨word, back, e, spells⟩ := h
  have ⟨back, e⟩ := exists_append_of_run (isLetter_of_spells spells) hl e
  exact ⟨word, back, e, spells⟩

-- No key starts in a bare value, since no equals sign follows it.
theorem not_beginsKeyed_of_bare (ht : ∀ c ∈ text, isBare c)
    (hb : ∀ c ∈ rest.head?, isBare c = false)
    (hk : ∀ gap tail, IsBlanks gap → gap ++ '=' :: tail ≠ rest) : ¬BeginsKeyed (text ++ rest) := by
  rintro ⟨name, gap, tail, hn, hg, e⟩
  rw [List.append_assoc] at e
  have ⟨back, e'⟩ := exists_append_of_run (fun c hc => isBare_of_isLetter (hn.2 c hc)) hb e
  subst e'
  rw [List.append_assoc, List.append_cancel_left_eq] at e
  cases back
  case nil => exact hk gap tail hg e
  case cons c back =>
    have hc : isBare c := ht c (by simp)
    cases gap
    case nil =>
      cases e
      exact absurd hc (by decide)
    case cons d gap =>
      have hd : isBlank c := hg c (by simp [(List.cons.inj e).1])
      simp [isBare, hd] at hc

theorem isParen_of_isBare {c : Char} (h : isBare c) : isParen c = false := by
  simp only [isParen, Bool.or_eq_false_iff, beq_eq_false_iff_ne]
  constructor <;> rintro rfl <;> exact absurd h (by decide)

theorem isBlank_of_isBare {c : Char} (h : isBare c) : isBlank c = false :=
  Opens.not_blank (.inr h)

theorem Grammar.Takes.cases_of_bare {c : Char} {scan : Scan} (h : Takes previous (c :: text) scan)
    (ht : ∀ d ∈ c :: text, isBare d) (hn : ¬QuotesBehind (c :: text))
    (hq : isQuote c → quoteStartsOperand previous = false) :
    (∃ connective word back, Spells connective word ∧ word ++ back = c :: text ∧
      (∀ d ∈ back.head?, isQuote d = false) ∧ scan = .one (.connective connective) word back) ∨
    (∀ connective, ¬Begins connective (c :: text)) ∧ scan = .one .bare [c] text := by
  have hc : isBare c := ht c (by simp)
  cases h
  case blank hb => simp [isBare, hb] at hc
  case opening  => exact absurd hc (by decide)
  case closing  => exact absurd hc (by decide)
  case key e =>
    have : '=' ∈ c :: text := by simp [← e]
    exact absurd (ht _ this) (by decide)
  case quoted starts hv e =>
    have quote := isQuote_of_beginsQuoted ⟨_, _, hv, e⟩ c rfl
    exact absurd starts (ne_true_of_eq_false (hq quote))
  case connective connective word back spells e =>
    refine .inl ⟨connective, word, back, spells, e, fun d hd => ?_, rfl⟩
    obtain ⟨tail, rfl⟩ := List.head?_eq_some_iff.mp hd
    exact eq_false_of_ne_true fun quote => hn ⟨[], connective, word, d, tail, spells, quote, e⟩
  case bare unworded _ _ => exact .inr ⟨unworded, rfl⟩

-- By induction on the parts of the run. A quote in it is an ordinary character.
theorem lexemes_append_of_bare (ht : ∀ c ∈ text, isBare c)
    (hb : ∀ c ∈ rest.head?, isBare c = false)
    (hk : ∀ gap tail, IsBlanks gap → gap ++ '=' :: tail ≠ rest) (hn : ¬QuotesBehind text)
    (hq : ∀ c ∈ text.head?, isQuote c → quoteStartsOperand previous = false) :
    ∃ previous',
      lexemes previous (text ++ rest) = lexemes previous text ++ lexemes previous' rest := by
  fun_induction lexemes previous text
  case case1 previous => exact ⟨previous, rfl⟩
  case case2 previous c text scan hi =>
    have takes : Takes previous (c :: text) scan := Scan.takes_next
    clear_value scan
    obtain ⟨connective, word, back, spells, e, unquoted, rfl⟩ | ⟨unworded, rfl⟩ :=
      takes.cases_of_bare ht hn (hq c rfl)
    case inl =>
      have long : Takes previous (c :: text ++ rest)
          (.one (.connective connective) word (back ++ rest)) :=
        .connective spells (by rw [← e, List.append_assoc])
      have bare : ∀ d ∈ back, isBare d := fun d hd => ht d (e ▸ List.mem_append_right word hd)
      obtain ⟨previous', hl⟩ := hi bare (fun h => hn (e ▸ h.append word))
        fun d hd quote => absurd quote (ne_true_of_eq_false (unquoted d hd))
      rw [Scan.lastKind_one, Scan.rest_one] at hl
      exact ⟨previous', by rw [lexemes_of_takes_one long, hl]; rfl⟩
    case inr =>
      have hc : isBare c := ht c (by simp)
      have letters : ∀ d ∈ rest.head?, isLetter d = false :=
        fun d hd => isLetter_of_not_isBare (hb d hd)
      have long : Takes previous (c :: text ++ rest) (.one .bare [c] (text ++ rest)) := by
        refine .bare (isBlank_of_isBare hc) (isParen_of_isBare hc)
          (fun _ h => unworded _ (begins_of_begins_append letters h))
          (not_beginsKeyed_of_bare ht hb hk) fun starts h => ?_
        have quote := isQuote_of_beginsQuoted h c rfl
        exact absurd starts (ne_true_of_eq_false (hq c rfl quote))
      have bare : ∀ d ∈ text, isBare d := fun d hd => ht d (List.mem_cons_of_mem c hd)
      obtain ⟨previous', hl⟩ := hi bare (fun h => hn (h.append [c])) fun _ _ _ => rfl
      rw [Scan.lastKind_one, Scan.rest_one] at hl
      exact ⟨previous', by rw [lexemes_of_takes_one long, hl]; rfl⟩

theorem length_drop_width_lt {connective : Connective} (h : keyword? text = some connective) :
    (text.drop connective.width).length < text.length := by
  have : connective.width ≤ text.length := startsWith_length (startsWith_of_keyword? h)
  have := width_pos connective
  rw [List.length_drop]
  omega

-- The parts of a key: the connectives that it starts with, one by one, and what is left of it.
def splitKey (name : List Char) : List Lexeme :=
  match _ : keyword? name with
  | some connective =>
    ⟨.connective connective, name.take connective.width⟩ :: splitKey (name.drop connective.width)
  | none => [⟨.key, name⟩]
termination_by name.length
decreasing_by exact length_drop_width_lt ‹_›

theorem splitKey_of_unworded (h : ∀ connective, ¬Begins connective text) :
    splitKey text = [⟨.key, text⟩] := by
  rw [splitKey]
  split
  case h_1 hk => exact absurd (keyword?_eq_some_iff.mp hk) (h _)
  case h_2    => rfl

-- The parts that tokenizing makes of a part. A bare value without a key falls apart.
def Lexeme.pieces (form : Form) (part : Lexeme) : List Lexeme :=
  if form = .plain ∧ part.kind = .bare then lexemes none part.text else [part]

theorem Lexeme.pieces_of_ne_bare {part : Lexeme} (h : part.kind ≠ .bare) :
    part.pieces form = [part] := by
  simp [pieces, h]

-- The parts that tokenizing makes of a part. A key loses the connectives that it starts with.
def Lexeme.fragments (form : Form) (part : Lexeme) : List Lexeme :=
  if part.kind = .key then splitKey part.text else part.pieces form

theorem Lexeme.fragments_of_ne_key {part : Lexeme} (h : part.kind ≠ .key) :
    part.fragments form = part.pieces form :=
  if_neg h

theorem Lexeme.fragments_eq_singleton {part : Lexeme} (hk : part.kind ≠ .key)
    (hb : form = .keyed ∨ part.kind ≠ .bare) : part.fragments form = [part] := by
  obtain rfl | hb := hb <;> simp_all [fragments, pieces]

theorem flatMap_fragments_blanks (gap : List Char) :
    (Scan.blanks gap).flatMap (Lexeme.fragments form) = Scan.blanks gap := by
  conv_rhs => rw [← List.flatMap_singleton' (Scan.blanks gap)]
  refine List.flatMap_congr fun part hm => ?_
  obtain ⟨_, _, rfl⟩ := List.mem_map.mp hm
  exact Lexeme.fragments_eq_singleton (by simp) (.inr (by simp))

theorem lexemes_eq_of_unquoted (h : ∀ c ∈ text.head?, isQuote c = false)
    (previous previous' : Option TokenKind) : lexemes previous text = lexemes previous' text := by
  cases text
  case nil => simp
  case cons c text =>
    have hq : isQuote c = false := h c rfl
    have e : Scan.next previous c text = Scan.next previous' c text := by
      simp only [Scan.next, hq, Bool.false_and]
    rw [lexemes, lexemes, e]

namespace Grammar

-- No key starts with a connective, and in a bare value without a key no quote stands behind one.
structure Untangled (form : Form) (parts : List Lexeme) : Prop where
  keys : ∀ part ∈ parts, part.kind = .key → ∀ connective, ¬Begins connective part.text
  values : form = .plain → ∀ part ∈ parts, part.kind = .bare → ¬QuotesBehind part.text

-- Behind the connectives that a key starts with there is still a key, and in a bare value without
-- a key no quote stands behind a connective.
structure Recoverable (form : Form) (parts : List Lexeme) : Prop where
  keys : ∀ part ∈ parts, part.kind = .key →
    ∀ piece ∈ splitKey part.text, piece.kind = .key → IsKeyName piece.text
  values : form = .plain → ∀ part ∈ parts, part.kind = .bare → ¬QuotesBehind part.text

variable {stage : Stage} {parts others : List Lexeme}

theorem Recoverable.of_subset (h : Recoverable form parts) (hm : others ⊆ parts) :
    Recoverable form others where
  keys part hp      := h.keys part (hm hp)
  values hf part hp := h.values hf part (hm hp)

theorem IsValue.keyValue {value : Lexeme} (hv : IsValue value rest) :
    KeyValue (value.text ++ rest) [value] rest := by
  cases hv
  case quoted hq => exact .quoted hq rfl
  case bare hb   => exact .bare hb rfl

theorem Stage.Awaits.ne_closed_of_isQuoted (h : stage.Awaits text) (hq : IsQuoted text) :
    stage ≠ .closed := by
  cases hq
  case mk opening inner quote _ =>
    rintro rfl
    cases h
    case inl h => cases h
    case inr h =>
      have apart : isOperandStart opening = false := h.2 opening rfl
      simp [isOperandStart, quote] at apart

theorem takes_key {name gap gap' : List Char} {value : Lexeme} (hn : IsKeyName name)
    (hw : ∀ connective, ¬Begins connective name) (hg : IsBlanks gap) (hg' : IsBlanks gap')
    (hv : IsValue value rest) :
    Takes previous (name ++ (gap ++ '=' :: (gap' ++ (value.text ++ rest))))
      ⟨⟨.key, name⟩, Scan.blanks gap ++ ⟨.equals, ['=']⟩ :: Scan.blanks gap' ++ [value], rest⟩ := by
  refine .key hn hg hg' ?_ hv.keyValue ?_ (by simp)
  · have ⟨c, tail, e, hb⟩ := hv.opens
    rw [e]
    rintro _ ⟨⟩
    exact Opens.not_blank (.inr hb)
  · intro connective h
    exact hw connective (begins_of_begins_append (isLetter_head?_of_isBlanks hg) h)

-- By induction on the key. The rule for connectives takes one after the other off its front, and
-- the rule for keys takes what is left and its value.
theorem lexemes_of_key {name gap gap' : List Char} {value : Lexeme}
    (hn : ∀ piece ∈ splitKey name, piece.kind = .key → IsKeyName piece.text)
    (hg : IsBlanks gap) (hg' : IsBlanks gap') (hv : IsValue value rest) :
    lexemes previous (name ++ (gap ++ '=' :: (gap' ++ (value.text ++ rest)))) =
      splitKey name ++ (Scan.blanks gap ++ ⟨.equals, ['=']⟩ :: (Scan.blanks gap' ++
        value :: lexemes (some value.kind) rest)) := by
  fun_induction splitKey name generalizing previous
  case case1 name connective hk hi =>
    obtain ⟨word, back, rfl, spells⟩ := keyword?_eq_some_iff.mp hk
    simp only [take_width spells, drop_width spells] at hi hn ⊢
    have takes : Takes previous (word ++ back ++ (gap ++ '=' :: (gap' ++ (value.text ++ rest))))
        (.one (.connective connective) word _) := .connective spells (List.append_assoc ..).symm
    rw [lexemes_of_takes_one takes, hi fun piece hm => hn piece (.tail _ hm)]
    rfl
  case case2 name hk =>
    have hn : IsKeyName name := hn ⟨.key, name⟩ (by simp) rfl
    have takes : Takes previous _ _ := takes_key hn (keyword?_eq_none_iff.mp hk) hg hg' hv
    rw [lexemes_of_takes takes, Scan.lastKind_concat]
    simp [Scan.lexemes]

theorem lexemes_cons_of_takes {part : Lexeme} (whole : part.fragments form = [part])
    (h : Takes previous (textOf (part :: parts)) (.one part.kind part.text (textOf parts)))
    (hi : lexemes (some part.kind) (textOf parts) = parts.flatMap (Lexeme.fragments form)) :
    lexemes previous (textOf (part :: parts)) =
      (part :: parts).flatMap (Lexeme.fragments form) := by
  rw [lexemes_of_takes_one h, hi, List.flatMap_cons, whole]
  rfl

-- By induction on the number of parts. A rule takes one part, apart from the rule for keys, which
-- takes a key and its value at once.
theorem Row.lexemes_eq_fragments (h : Row form stage parts) (hr : Recoverable form parts)
    (hs : stage = .closed ∨ stage = .operand ∧ quoteStartsOperand previous) :
    lexemes previous (textOf parts) = parts.flatMap (Lexeme.fragments form) := by
  induction hl : parts.length using Nat.strongRecOn generalizing parts stage previous
  case ind n hi =>
    cases h
    case nil => simp
    case cons part parts fits tail =>
      have lt : parts.length < n := by simp [← hl]
      have hr' : Recoverable form parts := hr.of_subset (List.subset_cons_self part parts)
      have whole (hk : part.kind ≠ .key) (hb : part.kind ≠ .bare) : part.fragments form = [part] :=
        Lexeme.fragments_eq_singleton hk (.inr hb)
      cases fits
      case blank c hb =>
        have hs : stage = .closed ∨ stage = .operand ∧ quoteStartsOperand (some .blank) :=
          hs.imp_right fun h => ⟨h.1, rfl⟩
        exact lexemes_cons_of_takes (whole (by simp) (by simp)) (.blank hb)
          (hi _ lt tail hr' hs rfl)
      case negation spells =>
        exact lexemes_cons_of_takes (whole (by simp) (by simp)) (.connective spells rfl)
          (hi _ lt tail hr' (.inr ⟨rfl, rfl⟩) rfl)
      case joining spells _ =>
        exact lexemes_cons_of_takes (whole (by simp) (by simp)) (.connective spells rfl)
          (hi _ lt tail hr' (.inr ⟨rfl, rfl⟩) rfl)
      case opening =>
        exact lexemes_cons_of_takes (whole (by simp) (by simp)) .opening
          (hi _ lt tail hr' (.inr ⟨rfl, rfl⟩) rfl)
      case closing =>
        exact lexemes_cons_of_takes (whole (by simp) (by simp)) .closing
          (hi _ lt tail hr' (.inl rfl) rfl)
      case key name keyed hn =>
        subst keyed
        obtain ⟨gap, others, hg, row, rfl⟩ := tail.exists_of_named
        obtain ⟨gap', value, others, hg', hv, row', rfl⟩ := row.exists_of_valued
        have lt : others.length < n := by
          simp only [List.length_append, List.length_cons] at lt
          omega
        have hr' : Recoverable .keyed others := hr'.of_subset fun _ hm => by simp [hm]
        have he : lexemes (some value.kind) (textOf others) = _ := hi _ lt row' hr' (.inl rfl) rfl
        have hk : value.kind ≠ .key := by cases hv <;> simp
        have key : Lexeme.fragments .keyed ⟨.key, name⟩ = splitKey name := rfl
        have equals : Lexeme.fragments .keyed ⟨.equals, ['=']⟩ = [⟨.equals, ['=']⟩] := rfl
        simp only [textOf_cons, textOf_append, textOf_blanks, List.cons_append, List.nil_append]
        rw [lexemes_of_key (hr.keys ⟨.key, name⟩ (by simp) rfl) hg hg' hv, he]
        simp [flatMap_fragments_blanks, key, equals, Lexeme.fragments_eq_singleton hk]
      case equals => simp at hs
      case keyValue => simp at hs
      case plainValue plain awaits hv =>
        subst plain
        cases hv
        case quoted value hq =>
          have starts := hs.resolve_left (awaits.ne_closed_of_isQuoted hq) |>.2
          exact lexemes_cons_of_takes (whole (by simp) (by simp)) (.quoted starts hq rfl)
            (hi _ lt tail hr' (.inl rfl) rfl)
        case bare value hb =>
          have ordinary : ∀ c ∈ value.head?, isQuote c → quoteStartsOperand previous = false :=
            fun c hc quote => absurd quote (ne_true_of_eq_false (hb.unquoted c hc))
          have hn : ¬QuotesBehind value := hr.values rfl ⟨.bare, value⟩ (by simp) rfl
          obtain ⟨previous', e⟩ := lexemes_append_of_bare hb.bare hb.whole
            (fun _ _ hg => tail.ne_equals_of_closed hg) hn ordinary
          rw [textOf_cons, e, hi _ lt tail hr' (.inl rfl) rfl,
            lexemes_eq_of_unquoted hb.unquoted previous none]
          simp [Lexeme.fragments, Lexeme.pieces]

theorem Row.exists_fits {part : Lexeme} (h : Row form stage parts) (hm : part ∈ parts) :
    ∃ stage rest, Fits form stage part rest := by
  induction h
  case nil => cases hm
  case cons stage _ others fits _ hi =>
    cases hm
    case head    => exact ⟨stage, textOf others, fits⟩
    case tail hm => exact hi hm

theorem Fits.shaped {part : Lexeme} (h : Fits form stage part rest) : Shaped part := by
  have value (hv : IsValue part rest) : Shaped part := by
    cases hv
    case quoted hq => exact .quoted hq
    case bare hb   => exact .bare hb.nonempty
  cases h
  case blank hb           => exact .blank hb
  case negation spells    => exact .connective spells
  case joining spells _   => exact .connective spells
  case opening            => exact .opening
  case closing            => exact .closing
  case key hn             => exact .key hn
  case equals             => exact .equals
  case keyValue hv        => exact value hv
  case plainValue hv      => exact value hv

theorem Row.recoverable (h : Row form stage parts) (hu : Untangled form parts) :
    Recoverable form parts where
  keys part hm hk piece hp _ := by
    obtain ⟨_, _, fits⟩ := h.exists_fits hm
    rw [splitKey_of_unworded (hu.keys part hm hk)] at hp
    cases List.mem_singleton.mp hp
    exact fits.shaped.isKeyName hk
  values := hu.values

theorem Row.lexemes_eq (h : Row form stage parts) (hu : Untangled form parts)
    (hs : stage = .closed ∨ stage = .operand ∧ quoteStartsOperand previous) :
    lexemes previous (textOf parts) = parts.flatMap (Lexeme.pieces form) := by
  rw [h.lexemes_eq_fragments (h.recoverable hu) hs]
  refine List.flatMap_congr fun part hm => ?_
  by_cases hk : part.kind = .key
  case pos =>
    obtain ⟨kind, text⟩ := part
    cases hk
    exact (splitKey_of_unworded (hu.keys _ hm rfl)).trans
      (Lexeme.pieces_of_ne_bare (by simp)).symm
  case neg => exact Lexeme.fragments_of_ne_key hk

end Grammar

def Lexeme.scattered (form : Option Form) (part : Lexeme) : List Lexeme :=
  if form = some .plain ∧ part.kind = .bare then part.text.map fun c => ⟨.bare, [c]⟩ else [part]

-- Without a connective in it, each character of a bare value is taken alone.
theorem lexemes_of_not_contains (ht : ∀ c ∈ text, isBare c)
    (hn : ∀ connective, ¬Contains connective text)
    (hq : ∀ c ∈ text.head?, isQuote c → quoteStartsOperand previous = false) :
    lexemes previous text = text.map fun c => ⟨.bare, [c]⟩ := by
  induction text generalizing previous
  case nil => simp
  case cons c text hi =>
    have hc : isBare c := ht c (by simp)
    have unkeyed : ¬BeginsKeyed (c :: text ++ []) := not_beginsKeyed_of_bare ht (by simp) (by simp)
    rw [List.append_nil] at unkeyed
    have takes : Takes previous (c :: text) (.one .bare [c] text) := by
      refine .bare (isBlank_of_isBare hc) (isParen_of_isBare hc) ?_ unkeyed fun starts h => ?_
      · exact fun connective h => hn connective ⟨[], _, rfl, h⟩
      · have quote := isQuote_of_beginsQuoted h c rfl
        exact absurd starts (ne_true_of_eq_false (hq c rfl quote))
    have tail : lexemes (some .bare) text = _ := hi (fun d hd => ht d (List.mem_cons_of_mem c hd))
      (fun connective h => hn connective (h.append [c])) fun _ _ _ => rfl
    rw [lexemes_of_takes_one takes, tail]
    rfl

namespace Grammar

variable {stage : Stage} {parts : List Lexeme}

theorem Fits.isBare {part : Lexeme} (h : Fits form stage part rest) (hk : part.kind = .bare) :
    IsBare part.text rest := by
  have value (hv : IsValue part rest) : IsBare part.text rest := by
    cases hv
    case quoted  => cases hk
    case bare hb => exact hb
  cases h
  case keyValue hv   => exact value hv
  case plainValue hv => exact value hv
  all_goals cases hk

theorem Row.flatMap_pieces (h : Row form stage parts)
    (hn : form = .plain → ∀ part ∈ parts, part.kind = .bare →
      ∀ connective, ¬Contains connective part.text) :
    parts.flatMap (Lexeme.pieces form) = parts.flatMap (Lexeme.scattered (some form)) := by
  rw [List.flatMap_def, List.flatMap_def]
  refine congrArg List.flatten (List.map_congr_left fun part hm => ?_)
  by_cases hp : form = .plain ∧ part.kind = .bare
  case neg => simp [Lexeme.pieces, Lexeme.scattered, hp]
  case pos =>
    have ⟨_, _, fits⟩ := h.exists_fits hm
    have hb := fits.isBare hp.2
    have e : lexemes none part.text = _ := lexemes_of_not_contains hb.bare (hn hp.1 part hm hp.2)
      fun c hc quote => absurd quote (ne_true_of_eq_false (hb.unquoted c hc))
    simp [Lexeme.pieces, Lexeme.scattered, hp, e]

end Grammar

@[simp] theorem Reading.lexemes_finished (form : Form) (parts : List Lexeme) :
    (finished form parts).lexemes = parts := by
  simp [finished, past, start, lexemes]

@[simp] theorem Reading.form_finished (form : Form) (parts : List Lexeme) :
    (finished form parts).progress.form = some form := rfl

-- Where no key starts with a connective and no bare value without a key contains one, the tokens
-- are the parts that have been read. Of such a value each character is a token.
theorem tokenize_follows_reading {maxDepth : Nat} {r : Reading}
    (h : Reading.ofText maxDepth text = .ok r)
    (keys : ∀ part ∈ r.lexemes, part.kind = .key → ∀ connective, ¬Begins connective part.text)
    (values : r.progress.form = some .plain → ∀ part ∈ r.lexemes, part.kind = .bare →
      ∀ connective, ¬Contains connective part.text) :
    tokenize text = Token.layout 0 (r.lexemes.flatMap (Lexeme.scattered r.progress.form)) := by
  obtain ⟨form, parts, hs, rfl, rfl⟩ := Reading.ofText_eq_ok_iff.mp h
  simp only [Reading.lexemes_finished, Reading.form_finished, Option.some.injEq] at keys values ⊢
  have untangled : Untangled form parts :=
    ⟨keys, fun plain part hp hk hq =>
      have ⟨connective, hc⟩ := hq.exists_contains
      values plain part hp hk connective hc⟩
  rw [tokenize, hs.row.lexemes_eq untangled (.inr ⟨rfl, rfl⟩), hs.row.flatMap_pieces values]

theorem tokenize_follows_reading_of_group :
    ∃ r, Reading.ofText 1 "not (ab or 'c d')".toList = .ok r ∧ tokenize "not (ab or 'c d')".toList =
      Token.layout 0 (r.lexemes.flatMap (Lexeme.scattered r.progress.form)) := by
  refine ⟨_, by cbv, tokenize_follows_reading (show Reading.ofText 1 _ = .ok _ by cbv) ?_ ?_⟩
  · decide
  · intro _
    decide

end BoolSearch
