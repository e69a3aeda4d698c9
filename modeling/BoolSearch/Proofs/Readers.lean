import BoolSearch.Proofs.Lookahead
import BoolSearch.Query.Advance

namespace BoolSearch

open Grammar

namespace Grammar

theorem not_standsAlone_of_begins_not {text : List Char} (h : Begins .not text) :
    ¬StandsAlone text := by
  rintro ⟨connective, word, rest, hn, hs, e, _⟩
  exact hn (Begins.unique ⟨word, rest, e, hs⟩ h)

def Opens (c : Char) : Prop :=
  c = '(' ∨ isBare c

theorem Opens.not_blank {c : Char} (h : Opens c) : isBlank c = false := by
  cases h
  case inl h => subst h; decide
  case inr h => exact (Bool.not_eq_true' _).mp (Bool.and_eq_true_iff.mp h).1

theorem Opens.ne {c d : Char} (h : Opens c) (hd : d ∈ [')', '=', '\\']) : c ≠ d := by
  rintro rfl
  cases h
  case inl h => subst h; simp at hd
  case inr h =>
    have hs : c ∉ bareStops := by simpa [isBare] using (Bool.and_eq_true_iff.mp h).2
    simp only [List.mem_cons, List.not_mem_nil, or_false] at hd
    exact hs (by simp only [bareStops, List.mem_cons]; grind)

theorem IsValue.opens {value : Lexeme} {rest : List Char} (h : IsValue value rest) :
    ∃ c text, value.text = c :: text ∧ isBare c := by
  cases h
  case quoted h =>
    cases h
    case mk opening text quote _ => exact ⟨opening, text, rfl, isBare_of_isQuote quote⟩
  case bare text h =>
    cases text
    case nil => exact absurd rfl h.nonempty
    case cons c text => exact ⟨c, text, rfl, h.bare c (by simp)⟩

theorem IsLeaf.opens {form : Form} {parts : List Lexeme} {rest : List Char}
    (h : IsLeaf form parts rest) : ∃ c text, textOf parts = c :: text ∧ isBare c := by
  cases h
  case keyed name _ _ _ hn _ _ _ =>
    cases name
    case nil => exact absurd hn.1 (by simp)
    case cons c name => exact ⟨c, _, rfl, isBare_of_isLetter (hn.2 c (by simp))⟩
  case plain value hv _ =>
    have ⟨c, text, e, hc⟩ := hv.opens
    exact ⟨c, text, by simp [e], hc⟩

theorem IsLeaf.head?_ne {form : Form} {parts : List Lexeme} {rest : List Char}
    (h : IsLeaf form parts rest) : ∀ c ∈ (textOf parts ++ rest).head?, c ≠ '(' := by
  have ⟨c, text, e, hc⟩ := h.opens
  intro d hd
  rw [e] at hd
  cases hd
  rintro rfl
  exact absurd hc (by decide)

theorem Derives.opens {form : Form} {phrase : Phrase} {room : Nat} {parts : List Lexeme}
    {rest : List Char} (h : Derives form phrase room parts rest) :
    ∃ c text, textOf parts = c :: text ∧ Opens c := by
  induction h
  case leaf leaf =>
    have ⟨c, text, e, hc⟩ := leaf.opens
    exact ⟨c, text, e, .inr hc⟩
  case group => exact ⟨'(', _, rfl, .inl rfl⟩
  case asserted hi => exact hi
  case negated word _ _ _ _ spells _ _ _ _ =>
    cases word
    case nil => exact absurd rfl (ne_nil_of_spells spells)
    case cons c word =>
      exact ⟨c, _, rfl, .inr (isBare_of_isLetter (isLetter_of_spells spells c (by simp)))⟩
  case single hi => exact hi
  case joined hi _ =>
    have ⟨c, text, e, hc⟩ := hi
    exact ⟨c, _, by rw [textOf_append, e]; rfl, hc⟩
  case adjoined hi _ =>
    have ⟨c, text, e, hc⟩ := hi
    exact ⟨c, _, by rw [textOf_append, e]; rfl, hc⟩

theorem Derives.exists_opens {form : Form} {phrase : Phrase} {room : Nat} {parts : List Lexeme}
    {rest tail : List Char} (h : Derives form phrase room parts rest) :
    ∃ c text, textOf parts ++ tail = c :: text ∧ Opens c := by
  have ⟨c, text, e, hc⟩ := h.opens
  exact ⟨c, text ++ tail, by rw [e]; rfl, hc⟩

theorem Derives.head?_opens {form : Form} {phrase : Phrase} {room : Nat} {parts : List Lexeme}
    {rest tail : List Char} (h : Derives form phrase room parts rest) :
    ∀ c ∈ (textOf parts ++ tail).head?, Opens c := by
  have ⟨c, text, e, hc⟩ := h.opens
  intro d hd
  rw [e] at hd
  cases hd
  exact hc

end Grammar

namespace Reading

theorem bind_eq_ok_iff {outcome : Outcome} {f : Reading → Outcome} {r' : Reading} :
    outcome >>= f = .ok r' ↔ ∃ r, outcome = .ok r ∧ f r = .ok r' := by
  constructor
  case mp => exact exists_of_bind_eq_ok
  case mpr =>
    rintro ⟨r, rfl, h⟩
    exact h

-- The reading when it has gone on along these parts.
def along (r : Reading) (parts : List Lexeme) (rest : List Char) : Reading :=
  { r with parts := parts.reverse ++ r.parts, rest }

-- The reading when it has gone on along blocks with values of this form.
def past (r : Reading) (form : Form) (parts : List Lexeme) (rest : List Char) : Reading where
  parts := parts.reverse ++ r.parts
  rest := rest
  progress := { depth := r.progress.depth, form := some form, latest := .block }

def Admits (r : Reading) (form : Form) : Prop :=
  ∀ f ∈ r.progress.form, f = form

def isGrouped (r : Reading) : Bool :=
  r.progress.depth ≠ 0

variable {r r' : Reading} {form : Form} {parts others : List Lexeme} {rest rest' : List Char}

@[simp] theorem rest_start (text : List Char) : (start text).rest = text := rfl

theorem admits_start (text : List Char) : (start text).Admits form :=
  fun _ hf => nomatch hf

@[simp] theorem rest_along : (r.along parts rest).rest = rest := rfl

@[simp] theorem along_along :
    (r.along parts rest).along others rest' = r.along (parts ++ others) rest' := by
  simp [along]

@[simp] theorem past_along :
    (r.along parts rest).past form others rest' = r.past form (parts ++ others) rest' := by
  simp [along, past]

@[simp] theorem past_setLatest {latest : Latest} :
    (r.setLatest latest).past form parts rest = r.past form parts rest := rfl

@[simp] theorem past_past {form' : Form} :
    (r.past form parts rest).past form' others rest' = r.past form' (parts ++ others) rest' := by
  simp [past]

@[simp] theorem along_past :
    (r.past form parts rest).along others rest' = r.past form (parts ++ others) rest' := by
  simp [along, past]

@[simp] theorem rest_past : (r.past form parts rest).rest = rest := rfl

@[simp] theorem isGrouped_past : (r.past form parts rest).isGrouped = r.isGrouped := rfl

@[simp] theorem isGrouped_along : (r.along parts rest).isGrouped = r.isGrouped := rfl

@[simp] theorem isGrouped_setLatest {latest : Latest} :
    (r.setLatest latest).isGrouped = r.isGrouped := rfl

@[simp] theorem admits_along : (r.along parts rest).Admits form ↔ r.Admits form := .rfl

@[simp] theorem admits_setLatest {latest : Latest} :
    (r.setLatest latest).Admits form ↔ r.Admits form := .rfl

@[simp] theorem admits_past {form' : Form} :
    (r.past form' parts rest).Admits form ↔ form' = form := by
  simp [Admits, past]

theorem push_eq_along (r : Reading) (kind : TokenKind) (text rest : List Char) :
    r.push kind text rest = r.along [⟨kind, text⟩] rest := rfl

theorem pushBlanks_eq_along (r : Reading) (gap rest : List Char) :
    r.pushBlanks gap rest = r.along (Scan.blanks gap) rest := rfl

theorem skipBlanks_eq_along {gap : List Char} (hg : IsBlanks gap)
    (hr : ∀ c ∈ rest.head?, isBlank c = false) (e : gap ++ rest = r.rest) :
    r.skipBlanks = r.along (Scan.blanks gap) rest := by
  rw [skipBlanks, ← e, takeWhile_run hg hr, skipBlanks_append hg hr]
  rfl

theorem skipBlanks_of_head? (h : ∀ c ∈ r.rest.head?, isBlank c = false) : r.skipBlanks = r :=
  skipBlanks_eq_along isBlanks_nil h rfl

theorem exists_skipBlanks_eq_along (r : Reading) :
    ∃ gap rest, IsBlanks gap ∧ (∀ c ∈ rest.head?, isBlank c = false) ∧ gap ++ rest = r.rest ∧
      r.skipBlanks = r.along (Scan.blanks gap) rest :=
  ⟨_, _, isBlanks_takeWhile _, head?_skipBlanks _, takeWhile_append_skipBlanks _, rfl⟩

-- Does `read` go through exactly where there is a phrase, and read its parts?
def Reads (read : Reading → Outcome)
    (phrase : Bool → Form → List Lexeme → List Char → Prop) : Prop :=
  ∀ r r', read r = .ok r' ↔ ∃ form parts rest, r.Admits form ∧ phrase r.isGrouped form parts rest ∧
    textOf parts ++ rest = r.rest ∧ r' = r.past form parts rest

theorem refuseConnective_eq_ok_iff :
    r.refuseConnective = .ok r' ↔ ¬StandsAlone r.rest ∧ r' = r := by
  rw [← standalone?_eq_none_iff, refuseConnective]
  split
  case h_1 h => simp [h, eq_comm]
  case h_2 h => simp [h, reject]

theorem exists_isValue_of_value (h : r.value = .ok r') :
    ∃ value rest, IsValue value rest ∧ value.text ++ rest = r.rest ∧ r' = r.along [value] rest := by
  simp only [value] at h
  split at h
  case h_1 => cases h
  case h_2 c text e =>
    split at h
    case isTrue =>
      split at h
      case h_1 value rest hv =>
        obtain ⟨quoted, all⟩ := quoted?_eq_some_iff.mp hv
        exact ⟨⟨.quoted, value⟩, rest, .quoted quoted, all, (Except.ok.inj h).symm⟩
      case h_2 => cases h
    case isFalse hq =>
      split at h
      case h_1 => cases h
      case h_2 run ne =>
        have unquoted : ∀ d ∈ (r.rest.takeWhile isBare).head?, isQuote d = false := by
          intro d hd
          rw [List.head?_takeWhile, e] at hd
          cases (Option.filter_eq_some_iff.mp hd).1
          exact (Bool.not_eq_true _).mp hq
        exact ⟨⟨.bare, _⟩, _,
          .bare ⟨ne, fun _ => of_mem_takeWhile, unquoted, head?_dropWhile_eq_false⟩,
          List.takeWhile_append_dropWhile, (Except.ok.inj h).symm⟩

theorem value_of_isQuoted {text : List Char} (hv : IsQuoted text) (e : text ++ rest = r.rest) :
    r.value = .ok (r.along [⟨.quoted, text⟩] rest) := by
  have hq : quoted? r.rest = some (text, rest) := quoted?_eq_some_iff.mpr ⟨hv, e⟩
  cases hv
  case mk opening text quote tail =>
    rw [List.cons_append] at e
    rw [← e] at hq
    simp only [value, ← e, quote, hq]
    rfl

theorem value_of_isBare {text : List Char} (hv : IsBare text rest) (e : text ++ rest = r.rest) :
    r.value = .ok (r.along [⟨.bare, text⟩] rest) := by
  have ht := takeWhile_run hv.bare hv.whole
  have hd := dropWhile_run hv.bare hv.whole
  cases text
  case nil => exact absurd rfl hv.nonempty
  case cons c text =>
    simp only [value, ← e, List.cons_append, hv.unquoted c rfl] at ht hd ⊢
    rw [ht, hd]
    rfl

theorem value_of_isValue {value : Lexeme} (hv : IsValue value rest)
    (e : value.text ++ rest = r.rest) : r.value = .ok (r.along [value] rest) := by
  cases hv
  case quoted hv => exact value_of_isQuoted hv e
  case bare hv   => exact value_of_isBare hv e

theorem pushKey_eq_along (name gap : List Char) {gap' : List Char} (hg : IsBlanks gap')
    (hr : ∀ c ∈ rest.head?, isBlank c = false) :
    r.pushKey ⟨name, gap, gap' ++ rest⟩ =
      r.along (⟨.key, name⟩ :: Scan.blanks gap ++ ⟨.equals, ['=']⟩ :: Scan.blanks gap') rest := by
  rw [pushKey, skipBlanks_eq_along hg hr rfl]
  simp [push_eq_along, pushBlanks_eq_along]

theorem admits_keyed_iff : r.Admits .keyed ↔ r.progress.form ≠ some .plain := by
  simp only [Admits]
  match r.progress.form with
  | none | some .plain | some .keyed => simp

theorem admits_plain_iff : r.Admits .plain ↔ r.progress.form ≠ some .keyed := by
  simp only [Admits]
  match r.progress.form with
  | none | some .plain | some .keyed => simp

theorem exists_isLeaf_of_leaf (h : r.leaf = .ok r') :
    ∃ form parts rest, r.Admits form ∧ IsLeaf form parts rest ∧ textOf parts ++ rest = r.rest ∧
      r' = r.past form parts rest := by
  rw [leaf] at h
  cases hf : r.formed
  case error => rw [hf] at h; cases h
  case ok s =>
    rw [hf] at h
    cases h
    simp only [formed] at hf
    split at hf
    case h_1 head hk =>
      split at hf
      case isTrue => cases hf
      case isFalse hp =>
        have ⟨hn, hg, all⟩ := key?_eq_some_iff.mp hk
        have hpush := pushKey_eq_along (r := r.setForm .keyed) head.name head.blanks
          (isBlanks_takeWhile head.rest) (head?_skipBlanks head.rest)
        rw [takeWhile_append_skipBlanks] at hpush
        rw [hpush] at hf
        have ⟨value, rest, hv, e, hs⟩ := exists_isValue_of_value hf
        refine ⟨.keyed, _, rest, admits_keyed_iff.mpr hp,
          .keyed hn hg (isBlanks_takeWhile head.rest) hv, ?_, ?_⟩
        · simp only [rest_along] at e
          simp [← all, e, takeWhile_append_skipBlanks]
        · rw [hs, along_along]
          rfl
    case h_2 hk =>
      split at hf
      case isTrue => cases hf
      case isFalse hp =>
        have ⟨value, rest, hv, e, hs⟩ := exists_isValue_of_value hf
        rw [rest_setForm] at e
        have unkeyed := key?_eq_none_iff.mp hk
        rw [← e] at unkeyed
        refine ⟨.plain, [value], rest, admits_plain_iff.mpr hp, .plain hv unkeyed, ?_, ?_⟩
        · simpa using e
        · rw [hs]
          rfl

theorem leaf_of_isLeaf (ha : r.Admits form) (h : IsLeaf form parts rest)
    (e : textOf parts ++ rest = r.rest) : r.leaf = .ok (r.past form parts rest) := by
  cases h
  case keyed name gap gap' value hn hg hg' hv =>
    have hk : key? r.rest = some ⟨name, gap, gap' ++ (value.text ++ rest)⟩ :=
      key?_eq_some_iff.mpr ⟨hn, hg, by simpa using e⟩
    have stop : ∀ c ∈ (value.text ++ rest).head?, isBlank c = false := by
      have ⟨c, text, e, hc⟩ := hv.opens
      intro d hd
      rw [e] at hd
      cases hd
      exact Opens.not_blank (.inr hc)
    have hpush := pushKey_eq_along (r := r.setForm .keyed) name gap hg' stop
    rw [leaf, formed, hk]
    simp only [if_neg (admits_keyed_iff.mp ha), hpush]
    rw [value_of_isValue hv rfl, along_along]
    rfl
  case plain value hv unkeyed =>
    have hk : key? r.rest = none := by
      rw [key?_eq_none_iff, ← e]
      simpa using unkeyed
    have hvalue := value_of_isValue (r := r.setForm .plain) hv (by simpa using e)
    rw [leaf, formed, hk]
    simp only [if_neg (admits_plain_iff.mp ha), hvalue]
    rfl

-- The end of an expression: the end of the text, the end of the group or, outside of groups, what
-- cannot start an operand.
def Stops (grouped : Bool) (rest : List Char) : Prop :=
  ∀ c ∈ rest.head?, isBlank c = false ∧ (c = ')' ∨ grouped = false ∧ isOperandStart c = false)

def SpacedBlock (room : Nat) (form : Form) (parts : List Lexeme) (rest : List Char) : Prop :=
  ∃ gap body, IsBlanks gap ∧ Scan.blanks gap ++ body = parts ∧ Derives form .block room body rest

def SpacedExpression (room : Nat) (grouped : Bool) (form : Form) (parts : List Lexeme)
    (rest : List Char) : Prop :=
  ∃ gap body gap', IsBlanks gap ∧ IsBlanks gap' ∧
    Scan.blanks gap ++ (body ++ Scan.blanks gap') = parts ∧
    Derives form (.expression grouped) room body (gap' ++ rest) ∧ Stops grouped rest

theorem groupEnd_eq_ok_iff (h : ∀ c ∈ r.rest.head?, isBlank c = false) :
    r.groupEnd = .ok r' ↔ ∃ rest, ')' :: rest = r.rest ∧ r' = r.closeGroup rest := by
  rw [groupEnd, skipBlanks_of_head? h]
  constructor
  case mp =>
    intro hg
    split at hg
    case h_1 rest e => exact ⟨rest, e.symm, (Except.ok.inj hg).symm⟩
    case h_2        => cases hg
  case mpr =>
    rintro ⟨rest, e, rfl⟩
    rw [← e]
    rfl

theorem isGrouped_openGroup : (r.openGroup rest).isGrouped = true := by
  simp [isGrouped, openGroup, push]

theorem admits_openGroup : (r.openGroup rest).Admits form ↔ r.Admits form := .rfl

theorem rest_openGroup : (r.openGroup rest).rest = rest := rfl

-- A group is left at the depth at which it was entered.
theorem closeGroup_past_openGroup {inside : List Char} :
    ((r.openGroup inside).past form parts rest').closeGroup rest =
      r.past form (⟨.paren .opening, ['(']⟩ :: (parts ++ [⟨.paren .closing, [')']⟩])) rest := by
  simp [openGroup, closeGroup, past, push]

theorem exists_derives_of_group {read : Reading → Outcome} {room : Nat} {inside : List Char}
    (hi : Reads read (SpacedExpression room)) (h : r.group (some read) inside = .ok r') :
    ∃ form parts rest, r.Admits form ∧ Derives form .operand (room + 1) parts rest ∧
      textOf parts ++ rest = '(' :: inside ∧ r' = r.past form parts rest := by
  obtain ⟨s, hs, hend⟩ := bind_eq_ok_iff.mp h
  obtain ⟨gap₀, rest₀, hg₀, _, e₀, hskip⟩ := exists_skipBlanks_eq_along (r.openGroup inside)
  rw [hskip] at hs
  obtain ⟨form, _, rest₁, ha, ⟨gap, body, gap', hg, hg', rfl, hd, stop⟩, e, rfl⟩ := (hi _ _).mp hs
  obtain ⟨rest, rfl, rfl⟩ := (groupEnd_eq_ok_iff fun c hc => (stop c hc).1).mp hend
  rw [isGrouped_along, isGrouped_openGroup] at hd
  refine ⟨form, _, rest, ha, .group (hg₀.append hg) hg' hd, ?_, ?_⟩
  · rw [rest_openGroup] at e₀
    rw [rest_along] at e
    simp [← e₀, ← e]
  · rw [past_along, closeGroup_past_openGroup]
    simp [Scan.blanks]

theorem group_of_derives {read : Reading → Outcome} {room : Nat} {gap gap' : List Char}
    (hi : Reads read (SpacedExpression room)) (ha : r.Admits form) (hg : IsBlanks gap)
    (hg' : IsBlanks gap') (hd : Derives form (.expression true) room parts (gap' ++ ')' :: rest)) :
    r.group (some read) (gap ++ (textOf parts ++ (gap' ++ ')' :: rest))) =
      .ok (r.past form (⟨.paren .opening, ['(']⟩ :: (Scan.blanks gap ++
        (parts ++ (Scan.blanks gap' ++ [⟨.paren .closing, [')']⟩])))) rest) := by
  have stop : Stops true (')' :: rest) := by
    intro c hc
    cases hc
    exact ⟨by decide, .inl rfl⟩
  generalize hin : gap ++ (textOf parts ++ (gap' ++ ')' :: rest)) = inside
  have hskip := skipBlanks_eq_along (r := r.openGroup inside) hg
    (fun c hc => (hd.head?_opens c hc).not_blank) hin
  have spaced : SpacedExpression room true form (parts ++ Scan.blanks gap') (')' :: rest) :=
    ⟨[], parts, gap', isBlanks_nil, hg', rfl, hd, stop⟩
  have hread := (hi (r.openGroup inside).skipBlanks _).mpr
    ⟨form, parts ++ Scan.blanks gap', ')' :: rest, by rwa [hskip, admits_along, admits_openGroup],
      by rwa [hskip, isGrouped_along, isGrouped_openGroup], by simp [hskip], rfl⟩
  rw [hskip, past_along] at hread
  refine bind_eq_ok_iff.mpr ⟨_, hskip ▸ hread, ?_⟩
  refine (groupEnd_eq_ok_iff fun c hc => (stop c hc).1).mpr ⟨rest, rfl, ?_⟩
  rw [closeGroup_past_openGroup]
  simp

def insideOf : Nat → Option (Reading → Outcome)
  | 0        => none
  | room + 1 => some (expression room)

theorem expression_eq_sequence (room : Nat) :
    expression room = sequence (block (insideOf room)) := by
  funext r
  cases room <;> rfl

theorem operand_eq_leaf {inside : Option (Reading → Outcome)} (h : ∀ c ∈ r.rest.head?, c ≠ '(') :
    r.operand inside = r.leaf := by
  rw [operand]
  split
  case h_1 e => exact absurd rfl (h '(' (by simp [e]))
  case h_2   => rfl

theorem operand_eq_group {inside : Option (Reading → Outcome)} {text : List Char}
    (h : '(' :: text = r.rest) : r.operand inside = r.group inside text := by
  rw [operand, ← h]
  rfl

theorem reads_operand {room : Nat}
    (hi : ∀ n, room = n + 1 → Reads (expression n) (SpacedExpression n)) :
    Reads (operand (insideOf room)) fun _ form => Derives form .operand room := by
  intro r r'
  constructor
  case mp =>
    intro h
    by_cases hp : ∃ text, '(' :: text = r.rest
    case pos =>
      have ⟨text, e⟩ := hp
      rw [operand_eq_group e] at h
      cases room
      case zero => cases h
      case succ n =>
        rw [← e]
        exact exists_derives_of_group (hi n rfl) h
    case neg =>
      have head : ∀ c ∈ r.rest.head?, c ≠ '(' := by
        rintro _ hc rfl
        have ⟨text, e⟩ := List.head?_eq_some_iff.mp hc
        exact hp ⟨text, e.symm⟩
      rw [operand_eq_leaf head] at h
      have ⟨form, parts, rest, ha, hl, e, hr⟩ := exists_isLeaf_of_leaf h
      exact ⟨form, parts, rest, ha, .leaf hl, e, hr⟩
  case mpr =>
    rintro ⟨form, parts, rest, ha, hd, e, rfl⟩
    cases hd
    case leaf hl =>
      rw [operand_eq_leaf (e ▸ hl.head?_ne)]
      exact leaf_of_isLeaf ha hl e
    case group gap gap' parts n hg hg' hd =>
      have e : '(' :: (gap ++ (textOf parts ++ (gap' ++ ')' :: rest))) = r.rest := by
        rw [← e]
        simp
      rw [operand_eq_group e]
      exact group_of_derives (hi n rfl) ha hg hg' hd

theorem pushNot_eq_along {word gap : List Char} (hs : Spells .not word) (hg : IsBlanks gap)
    (hr : ∀ c ∈ rest.head?, isBlank c = false) (e : word ++ (gap ++ rest) = r.rest) :
    ∃ latest, r.pushNot =
      (r.along (⟨.connective .not, word⟩ :: Scan.blanks gap) rest).setLatest latest := by
  have hpush : r.pushConnective .not = r.along [⟨.connective .not, word⟩] (gap ++ rest) := by
    rw [pushConnective, ← e, take_width hs, drop_width hs]
    rfl
  rw [pushNot, hpush, skipBlanks_eq_along hg hr rfl, along_along]
  exact ⟨_, rfl⟩

theorem negation_of_not_begins (h : ¬Begins .not r.rest) : r.negation = .ok r :=
  if_neg (mt keyword?_eq_some_iff.mp h)

theorem negation_of_begins (h : Begins .not r.rest) (hr : r.pushNot.rest ≠ []) :
    r.negation = r.pushNot.refuseConnective := by
  rw [negation, if_pos (keyword?_eq_some_iff.mpr h), if_neg (by simpa using hr)]

-- A negation is read if it is there; what it negates starts with no connective.
theorem negation_cases (h : r.negation = .ok r') :
    (¬Begins .not r.rest ∧ r' = r) ∨ ∃ word gap rest latest, Spells .not word ∧ IsBlanks gap ∧
      word ++ (gap ++ rest) = r.rest ∧ ¬StandsAlone rest ∧
      r' = (r.along (⟨.connective .not, word⟩ :: Scan.blanks gap) rest).setLatest latest := by
  by_cases begins : Begins .not r.rest
  case neg =>
    rw [negation_of_not_begins begins] at h
    exact .inl ⟨begins, (Except.ok.inj h).symm⟩
  case pos =>
    right
    by_cases hn : r.pushNot.rest = []
    case pos =>
      rw [negation, if_pos (keyword?_eq_some_iff.mpr begins), if_pos (by simp [hn])] at h
      cases h
    case neg =>
      rw [negation_of_begins begins hn] at h
      obtain ⟨word, tail, e, hs⟩ := begins
      rw [← takeWhile_append_skipBlanks tail] at e
      have ⟨latest, hp⟩ := pushNot_eq_along hs (isBlanks_takeWhile tail) (head?_skipBlanks tail) e
      rw [hp] at h
      have ⟨unjoined, hr⟩ := refuseConnective_eq_ok_iff.mp h
      exact ⟨word, _, _, latest, hs, isBlanks_takeWhile tail, e, unjoined, hr⟩

theorem negation_of_spells {word gap : List Char} (hs : Spells .not word) (hg : IsBlanks gap)
    (hr : ∃ c text, rest = c :: text ∧ isBlank c = false) (unjoined : ¬StandsAlone rest)
    (e : word ++ (gap ++ rest) = r.rest) :
    ∃ latest, r.negation =
      .ok ((r.along (⟨.connective .not, word⟩ :: Scan.blanks gap) rest).setLatest latest) := by
  obtain ⟨c, text, rfl, hc⟩ := hr
  have ⟨latest, hp⟩ := pushNot_eq_along hs hg (by simpa using hc) e
  rw [negation_of_begins ⟨word, _, e, hs⟩ (by simp [hp]), hp]
  exact ⟨latest, refuseConnective_eq_ok_iff.mpr ⟨unjoined, rfl⟩⟩

theorem block_eq {inside : Option (Reading → Outcome)} (h : r.skipBlanks.rest ≠ []) :
    r.block inside = r.skipBlanks.refuseConnective >>= negation >>= operand inside := by
  rw [block, if_neg (by simpa using h)]

theorem reads_block {inside : Option (Reading → Outcome)} {room : Nat}
    (ho : Reads (operand inside) fun _ form => Derives form .operand room) :
    Reads (block inside) fun _ => SpacedBlock room := by
  intro r r'
  constructor
  case mp =>
    intro h
    by_cases hn : r.skipBlanks.rest = []
    case pos =>
      rw [block, if_pos (List.isEmpty_iff.mpr hn)] at h
      cases h
    case neg =>
      rw [block_eq hn] at h
      obtain ⟨gap, text, hg, hb, e, hskip⟩ := exists_skipBlanks_eq_along r
      obtain ⟨s, h, hs⟩ := bind_eq_ok_iff.mp h
      obtain ⟨t, h, ht⟩ := bind_eq_ok_iff.mp h
      obtain ⟨unjoined, rfl⟩ := refuseConnective_eq_ok_iff.mp h
      obtain ⟨form, parts, rest, ha, hd, et, rfl⟩ := (ho _ _).mp hs
      rw [hskip] at ht unjoined
      rw [rest_along] at unjoined
      obtain ⟨begins, rfl⟩ | ⟨word, gap', text', latest, spells, hg', e', unjoined', rfl⟩ :=
        negation_cases ht
      case inl =>
        rw [rest_along] at et begins
        subst et
        refine ⟨form, Scan.blanks gap ++ parts, rest, ha,
          ⟨gap, parts, hg, rfl, .asserted unjoined begins hd⟩, ?_, by simp⟩
        simpa using e
      case inr =>
        simp only [rest_setLatest, rest_along] at et e'
        subst et
        refine ⟨form, Scan.blanks gap ++ (⟨.connective .not, word⟩ :: (Scan.blanks gap' ++ parts)),
          rest, ha, ⟨gap, _, hg, rfl, .negated spells hg' unjoined' hd⟩, ?_, by simp⟩
        rw [← e, ← e']
        simp
  case mpr =>
    rintro ⟨form, _, rest, ha, ⟨gap, body, hg, rfl, hd⟩, e, rfl⟩
    have hskip : r.skipBlanks = r.along (Scan.blanks gap) (textOf body ++ rest) :=
      skipBlanks_eq_along hg (fun c hc => (hd.head?_opens c hc).not_blank) (by simpa using e)
    have hne : textOf body ++ rest ≠ [] := by
      have ⟨c, text, e, _⟩ := hd.opens
      simp [e]
    rw [block_eq (by rw [hskip]; exact hne), hskip]
    cases hd
    case asserted unjoined begins hd =>
      refine bind_eq_ok_iff.mpr ⟨_, bind_eq_ok_iff.mpr ⟨_,
        refuseConnective_eq_ok_iff.mpr ⟨unjoined, rfl⟩, negation_of_not_begins begins⟩, ?_⟩
      exact (ho _ _).mpr ⟨form, body, rest, ha, hd, rfl, by simp⟩
    case negated word gap' parts spells hg' unjoined hd =>
      have opens : ∃ c text, textOf parts ++ rest = c :: text ∧ isBlank c = false := by
        have ⟨c, text, e, hc⟩ := hd.opens
        exact ⟨c, text ++ rest, by rw [e]; rfl, hc.not_blank⟩
      have e' : word ++ (gap' ++ (textOf parts ++ rest)) =
          textOf (⟨.connective .not, word⟩ :: (Scan.blanks gap' ++ parts)) ++ rest := by simp
      have ⟨latest, hn⟩ := negation_of_spells (r := r.along (Scan.blanks gap) _) spells hg' opens
        unjoined e'
      refine bind_eq_ok_iff.mpr ⟨_, bind_eq_ok_iff.mpr ⟨_,
        refuseConnective_eq_ok_iff.mpr ⟨?_, rfl⟩, hn⟩, ?_⟩
      · exact not_standsAlone_of_begins_not ⟨word, gap' ++ (textOf parts ++ rest), e', spells⟩
      · exact (ho _ _).mpr ⟨form, parts, rest, ha, hd, rfl, by simp⟩

theorem pushJoining_eq_along {connective : Connective} {word gap : List Char}
    (hs : Spells connective word) (hg : IsBlanks gap) (hr : ∀ c ∈ rest.head?, isBlank c = false)
    (e : word ++ (gap ++ rest) = r.rest) :
    r.pushJoining connective =
      (r.along (⟨.connective connective, word⟩ :: Scan.blanks gap) rest).setLatest .connective := by
  rw [pushJoining, pushConnective, ← e, take_width hs, drop_width hs,
    skipBlanks_eq_along hg hr rfl]
  simp [push_eq_along, along, setLatest]

-- How an expression goes on behind a block: it stops, or a connective follows, or another block
-- does at once.
theorem proceed_cases {next : Next} (hl : r.progress.latest = .block)
    (hb : ∀ c ∈ r.rest.head?, isBlank c = false) (h : r.proceed = .ok next) :
    (next = .done r ∧ Stops r.isGrouped r.rest) ∨
    (∃ connective word gap rest, connective ≠ .not ∧ Spells connective word ∧ IsBlanks gap ∧
      word ++ (gap ++ rest) = r.rest ∧ (∀ c ∈ (gap ++ rest).head?, endsWord c) ∧
      next = .more ((r.along (⟨.connective connective, word⟩ :: Scan.blanks gap) rest).setLatest
        .connective)) ∨
    (r.isGrouped ∧ (∀ c ∈ r.rest.head?, isOperandStart c = false) ∧ next = .more r) := by
  rw [proceed] at h
  split at h
  case h_1 e => exact .inl ⟨(Except.ok.inj h).symm, by simp [Stops, e]⟩
  case h_2 c text e =>
    have head : ∀ d ∈ r.rest.head?, d = c := by
      intro d hd
      rw [e] at hd
      exact (Option.some.inj hd).symm
    split at h
    case isTrue => cases h
    case isFalse missing =>
      simp only [hl, decide_true, Bool.true_and, Bool.and_eq_true, Bool.not_eq_true', not_and,
        Bool.not_eq_false] at missing
      split at h
      case h_1 connective hj =>
        right
        left
        obtain ⟨hn, hbegins⟩ := joining?_eq_some_iff.mp hj
        have letter := isLetter_of_begins hbegins c (by simp [e])
        have next := missing (isOperandStart_of_isLetter letter)
        obtain ⟨other, word, tail, _, hs, et, whole⟩ := nextJoins_iff.mp next
        cases Begins.unique ⟨word, tail, et, hs⟩ hbegins
        rw [← takeWhile_append_skipBlanks tail] at et whole
        have hp := pushJoining_eq_along hs (isBlanks_takeWhile tail) (head?_skipBlanks tail) et
        rw [join] at h
        split at h
        case h_1 => cases h
        case h_2 => cases h
        case h_3 =>
          refine ⟨connective, word, _, _, hn, hs, isBlanks_takeWhile tail, et, whole, ?_⟩
          rw [← hp]
          exact (Except.ok.inj h).symm
      case h_2 hj =>
        have apart : isOperandStart c = false := by
          rw [← Bool.not_eq_true]
          intro hc
          obtain ⟨other, word, tail, hn, hs, et, _⟩ := nextJoins_iff.mp (missing hc)
          exact joining?_eq_none_iff.mp hj other hn ⟨word, tail, et, hs⟩
        cases h
        simp only [Bool.or_eq_true, decide_eq_true_eq]
        split
        case isTrue hend =>
          refine .inl ⟨rfl, fun d hd => ?_⟩
          cases head d hd
          exact ⟨hb c hd, hend.imp_right fun hd => ⟨by simp [isGrouped, hd], apart⟩⟩
        case isFalse hend =>
          refine .inr (.inr ⟨?_, fun d hd => head d hd ▸ apart, rfl⟩)
          rw [not_or] at hend
          simpa [isGrouped] using hend.2

theorem proceed_of_stops (h : Stops r.isGrouped r.rest) : r.proceed = .ok (.done r) := by
  rw [proceed]
  split
  case h_1 => rfl
  case h_2 c text e =>
    obtain ⟨_, hc⟩ := h c (by simp [e])
    have apart : isOperandStart c = false := by
      obtain rfl | ⟨_, hc⟩ := hc
      · decide
      · exact hc
    have hj : joining? r.rest = none := joining?_of_apart (by simp [e, apart])
    have hend : c = ')' ∨ r.progress.depth = 0 :=
      hc.imp_right fun hc => by simpa [isGrouped] using hc.1
    simp [apart, hj, hend]

theorem proceed_of_joining {connective : Connective} {word gap : List Char} (hn : connective ≠ .not)
    (hs : Spells connective word) (hg : IsBlanks gap) (hr : ∃ c text, rest = c :: text ∧ Opens c)
    (whole : ∀ c ∈ (gap ++ rest).head?, endsWord c) (e : word ++ (gap ++ rest) = r.rest) :
    r.proceed = .ok (.more
      ((r.along (⟨.connective connective, word⟩ :: Scan.blanks gap) rest).setLatest
        .connective)) := by
  obtain ⟨d, text, rfl, hd⟩ := hr
  have hb : ∀ c ∈ (d :: text).head?, isBlank c = false := by
    intro c hc
    cases hc
    exact hd.not_blank
  have hp := pushJoining_eq_along hs hg hb e
  have hj : joining? r.rest = some connective :=
    joining?_eq_some_iff.mpr ⟨hn, word, _, e, hs⟩
  have hnext : nextJoins r.rest := nextJoins_iff.mpr ⟨connective, word, _, hn, hs, e, whole⟩
  have ⟨c, tail, hc⟩ := List.exists_cons_of_ne_nil (ne_nil_of_spells hs)
  have head : r.rest = c :: (tail ++ (gap ++ d :: text)) := by rw [← e, hc, List.cons_append]
  have hne : d ≠ ')' := hd.ne (by simp)
  rw [proceed, head]
  simp only [← head, hnext, hj, Bool.not_true, Bool.and_false, Bool.false_eq_true, if_false]
  rw [join, hp]
  split
  case h_1 e => cases e
  case h_2 e => cases e; contradiction
  case h_3   => rfl

theorem proceed_of_apart (hg : r.isGrouped) (hr : ∃ c text, r.rest = c :: text ∧ Opens c)
    (apart : ∀ c ∈ r.rest.head?, isOperandStart c = false) : r.proceed = .ok (.more r) := by
  have hj : joining? r.rest = none := joining?_of_apart apart
  obtain ⟨c, text, e, hc⟩ := hr
  have apart : isOperandStart c = false := apart c (by simp [e])
  have hne : c ≠ ')' := hc.ne (by simp)
  have hd : r.progress.depth ≠ 0 := by simpa [isGrouped] using hg
  rw [proceed, e]
  simp [← e, hj, apart, hne, hd]

theorem next_of_stops {gap : List Char} (hg : IsBlanks gap) (stop : Stops r.isGrouped rest)
    (e : gap ++ rest = r.rest) : r.next = .ok (.done (r.along (Scan.blanks gap) rest)) := by
  rw [Reading.next, skipBlanks_eq_along hg (fun c hc => (stop c hc).1) e]
  exact proceed_of_stops stop

theorem next_of_joining {connective : Connective} {word gap gap' : List Char} (hg : IsBlanks gap)
    (hn : connective ≠ .not) (hs : Spells connective word) (hg' : IsBlanks gap')
    (hr : ∃ c text, rest = c :: text ∧ Opens c) (whole : ∀ c ∈ (gap' ++ rest).head?, endsWord c)
    (e : gap ++ (word ++ (gap' ++ rest)) = r.rest) :
    r.next = .ok (.more
      ((r.along (Scan.blanks gap ++ ⟨.connective connective, word⟩ :: Scan.blanks gap')
        rest).setLatest .connective)) := by
  have head : ∀ c ∈ (word ++ (gap' ++ rest)).head?, isBlank c = false := by
    rw [head?_append_of_ne_nil (ne_nil_of_spells hs)]
    exact fun c hc => isBlank_of_isLetter (isLetter_of_spells hs c (List.mem_of_mem_head? hc))
  rw [Reading.next, skipBlanks_eq_along hg head e, proceed_of_joining hn hs hg' hr whole rfl,
    along_along]

theorem next_of_apart {gap : List Char} (hg : IsBlanks gap) (grouped : r.isGrouped)
    (hr : ∃ c text, rest = c :: text ∧ Opens c) (apart : ∀ c ∈ rest.head?, isOperandStart c = false)
    (e : gap ++ rest = r.rest) : r.next = .ok (.more (r.along (Scan.blanks gap) rest)) := by
  have head : ∀ c ∈ rest.head?, isBlank c = false := by
    obtain ⟨d, text, rfl, hd⟩ := hr
    intro c hc
    cases hc
    exact hd.not_blank
  rw [Reading.next, skipBlanks_eq_along hg head e]
  exact proceed_of_apart grouped hr apart

end Reading

end BoolSearch
