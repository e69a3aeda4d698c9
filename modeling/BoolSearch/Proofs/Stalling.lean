import BoolSearch.Proofs.Composition

namespace BoolSearch

open Grammar

def IsJoiningWord (word : List Char) : Prop :=
  ∃ connective, connective ≠ .not ∧ Spells connective word

theorem IsJoiningWord.exists_cons {word : List Char} (h : IsJoiningWord word) :
    ∃ c letters, word = c :: letters ∧ isLetter c := by
  obtain ⟨connective, _, spells⟩ := h
  obtain ⟨c, letters, ew⟩ := List.exists_cons_of_ne_nil (ne_nil_of_spells spells)
  exact ⟨c, letters, ew, isLetter_of_spells spells c (by simp [ew])⟩

namespace Grammar

variable {form : Form} {phrase : Phrase} {room : Nat} {front back parts others : List Lexeme}
  {gap name text rest : List Char}

theorem exists_of_blanks_append
    (e : Scan.blanks gap ++ others = front ++ ⟨.key, name⟩ :: back) :
    ∃ front', front = Scan.blanks gap ++ front' ∧ others = front' ++ ⟨.key, name⟩ :: back := by
  obtain ⟨before, rfl, eo⟩ | ⟨ahead, eg, _⟩ := cases_of_append_eq e
  case inl => exact ⟨before, rfl, eo⟩
  case inr =>
    have hm : ⟨.key, name⟩ ∈ Scan.blanks gap := by simp [eg]
    obtain ⟨_, _, blank⟩ := List.mem_map.mp hm
    cases blank

theorem exists_of_append_eq (e : parts ++ others = front ++ ⟨.key, name⟩ :: back)
    (unkeyed : ⟨.key, name⟩ ∉ others) :
    ∃ ahead, parts = front ++ ⟨.key, name⟩ :: ahead := by
  obtain ⟨before, _, eo⟩ | ⟨ahead, ep, _⟩ := cases_of_append_eq e
  case inl => exact absurd (by simp [eo]) unkeyed
  case inr => exact ⟨ahead, ep⟩

theorem IsLeaf.front_eq_nil (h : IsLeaf form parts rest)
    (e : parts = front ++ ⟨.key, name⟩ :: back) : front = [] := by
  cases front
  case nil => rfl
  case cons first front =>
    cases h
    case plain => simp at e
    case keyed hn hg hg' hv =>
      simp only [List.cons_append, List.append_assoc, List.cons.injEq] at e
      obtain ⟨front₁, _, e₁⟩ := exists_of_blanks_append e.2
      cases front₁
      case nil => cases e₁
      case cons =>
        obtain ⟨front₂, _, e₂⟩ := exists_of_blanks_append (List.cons.inj e₁).2
        cases front₂
        case nil  => cases e₂; cases hv
        case cons => simp at e₂

-- The part in front of another key in an operand starts with the parenthesis of a group.
theorem Derives.front_eq_cons (h : Derives form .operand room parts rest)
    (e : parts = front ++ ⟨.key, name⟩ :: back) (hf : front ≠ []) :
    ∃ letters, textOf front = '(' :: letters := by
  cases h
  case leaf hl => exact absurd (hl.front_eq_nil e) hf
  case group =>
    cases front
    case nil => contradiction
    case cons first front =>
      obtain ⟨rfl, _⟩ := List.cons.inj e
      exact ⟨textOf front, rfl⟩

theorem Derives.front_append_opens (h : Derives form phrase room parts rest)
    (e : parts = front ++ back) (alone : StandsAlone text) :
    ∃ c letters, textOf front ++ text = c :: letters ∧ Opens c := by
  by_cases hf : front = []
  case neg =>
    have ⟨c, letters, et, hc⟩ := h.front_opens hf e
    exact ⟨c, letters ++ text, by simp [et], hc⟩
  case pos =>
    have ⟨c, head, letter⟩ := head?_of_standsAlone alone
    have ⟨letters, et⟩ := List.head?_eq_some_iff.mp head
    exact ⟨c, letters, by simp [hf, et], .inr (isBare_of_isLetter letter)⟩

theorem Derives.head?_front_append (h : Derives form phrase room parts rest)
    (e : parts = front ++ back) (alone : StandsAlone text) :
    ∀ c ∈ (textOf front ++ text).head?, isBlank c = false := by
  have ⟨c, letters, et, hc⟩ := h.front_append_opens e alone
  rw [et]
  rintro _ ⟨⟩
  exact hc.not_blank

end Grammar

namespace Reading

variable {form : Form} {phrase : Phrase} {room : Nat} {front back parts others : List Lexeme}
  {gap name text rest : List Char} {r : Reading} {outcome : Outcome}

-- Does the reading stop in front of this text, as it does at a connective that stands alone?
inductive Stalls (text : List Char) : Outcome → Prop
  | missing {s : Reading} (h : s.rest = text) : Stalls text (.error ⟨.valueExpected, s⟩)
  | doubled {s : Reading} (h : s.rest = text) : Stalls text (.error ⟨.duplicateConnective, s⟩)

theorem Stalls.bind (h : Stalls text outcome) (f : Reading → Outcome) :
    Stalls text (outcome >>= f) := by
  cases h
  case missing h => exact .missing h
  case doubled h => exact .doubled h

theorem stalls_refuseConnective (alone : StandsAlone text) (e : text = r.rest) :
    Stalls text r.refuseConnective := by
  subst e
  cases hs : standalone? r.rest
  case none => exact absurd alone (standalone?_eq_none_iff.mp hs)
  case some =>
    simp only [refuseConnective, hs, reject]
    split
    case isTrue  => exact .doubled rfl
    case isFalse => exact .missing rfl

-- Does `read` stop where such a key of a phrase should start, if a connective that stands alone
-- starts there?
def StallsIn (read : Reading → Outcome)
    (phrase : Bool → Form → List Lexeme → List Char → Prop) : Prop :=
  ∀ r form front name back rest text, r.Admits form → IsJoiningWord name →
    phrase r.isGrouped form (front ++ ⟨.key, name⟩ :: back) rest → StandsAlone text →
    textOf front ++ text = r.rest → Stalls text (read r)

theorem stalls_group {read : Reading → Outcome} {gap' : List Char}
    (hi : StallsIn read (SpacedExpression room)) (ha : r.Admits form) (joining : IsJoiningWord name)
    (hg : IsBlanks gap) (hg' : IsBlanks gap') (alone : StandsAlone text)
    (hd : Derives form (.expression true) room (front ++ ⟨.key, name⟩ :: back)
      (gap' ++ ')' :: rest)) :
    Stalls text (r.group (some read) (gap ++ (textOf front ++ text))) := by
  refine Stalls.bind ?_ groupEnd
  generalize hin : gap ++ (textOf front ++ text) = inside
  have hskip : (r.openGroup inside).skipBlanks =
      (r.openGroup inside).along (Scan.blanks gap) (textOf front ++ text) :=
    skipBlanks_eq_along hg (hd.head?_front_append rfl alone) hin
  have stop : Stops true (')' :: rest) := by
    rintro _ ⟨⟩
    exact ⟨by decide, .inl rfl⟩
  have spaced : SpacedExpression room true form
      (front ++ ⟨.key, name⟩ :: (back ++ Scan.blanks gap')) (')' :: rest) :=
    ⟨[], _, gap', isBlanks_nil, hg', by simp [Scan.blanks], hd, stop⟩
  refine hi _ form front name (back ++ Scan.blanks gap') (')' :: rest) text ?_ joining ?_ alone ?_
  · rwa [hskip, admits_along, admits_openGroup]
  · rwa [hskip, isGrouped_along, isGrouped_openGroup]
  · rw [hskip, rest_along]

theorem stalls_operand (hi : ∀ n, room = n + 1 → StallsIn (expression n) (SpacedExpression n))
    (ha : r.Admits form) (joining : IsJoiningWord name)
    (hd : Derives form .operand room parts rest) (e : parts = front ++ ⟨.key, name⟩ :: back)
    (hf : front ≠ []) (alone : StandsAlone text) (er : textOf front ++ text = r.rest) :
    Stalls text (r.operand (insideOf room)) := by
  cases hd
  case leaf hl => exact absurd (hl.front_eq_nil e) hf
  case group gap gap' parts n hg hg' inside =>
    cases front
    case nil => contradiction
    case cons first front =>
      obtain ⟨rfl, e₁⟩ := List.cons.inj e
      obtain ⟨front, rfl, e₂⟩ := exists_of_blanks_append e₁
      obtain ⟨ahead, rfl⟩ := exists_of_append_eq e₂ (by simp [Scan.blanks])
      have er : '(' :: (gap ++ (textOf front ++ text)) = r.rest := by simpa using er
      rw [operand_eq_group er]
      exact stalls_group (hi n rfl) ha joining hg hg' alone inside

-- Behind a `NOT`, and at the start of a block without one, a connective is refused before anything
-- else is read.
theorem stalls_of_refuseConnective
    (hi : ∀ n, room = n + 1 → StallsIn (expression n) (SpacedExpression n))
    (ha : r.Admits form) (joining : IsJoiningWord name)
    (hd : Derives form .operand room parts rest) (e : parts = front ++ ⟨.key, name⟩ :: back)
    (alone : StandsAlone text) (er : textOf front ++ text = r.rest) :
    Stalls text (r.refuseConnective >>= Reading.operand (insideOf room)) ∧
    Stalls text (r.refuseConnective >>= negation >>= Reading.operand (insideOf room)) := by
  by_cases hf : front = []
  case pos =>
    have refused : Stalls text r.refuseConnective :=
      stalls_refuseConnective alone (by simp [← er, hf])
    exact ⟨refused.bind _, (refused.bind _).bind _⟩
  case neg =>
    have ⟨letters, ef⟩ := hd.front_eq_cons e hf
    have opening : '(' :: (letters ++ text) = r.rest := by simp [← er, ef]
    have passes : r.refuseConnective = .ok r := by
      refine refuseConnective_eq_ok_iff.mpr ⟨?_, rfl⟩
      rw [← opening]
      exact not_standsAlone_of_head (by decide)
    have asserted : r.negation = .ok r := by
      refine negation_of_not_begins ?_
      rw [← opening]
      exact not_begins (by decide)
    have stalls := stalls_operand hi ha joining hd e hf alone er
    rw [passes]
    refine ⟨stalls, ?_⟩
    show Stalls text (r.negation >>= Reading.operand (insideOf room))
    rwa [asserted]

theorem stallsIn_block (hi : ∀ n, room = n + 1 → StallsIn (expression n) (SpacedExpression n)) :
    StallsIn (block (insideOf room)) fun _ => SpacedBlock room := by
  rintro r form front name back rest text ha joining ⟨gap, body, hg, eb, hd⟩ alone er
  obtain ⟨front, rfl, e⟩ := exists_of_blanks_append eb
  have ⟨c, letters, et, _⟩ := hd.front_append_opens e alone
  have hskip : r.skipBlanks = r.along (Scan.blanks gap) (textOf front ++ text) :=
    skipBlanks_eq_along hg (hd.head?_front_append e alone) (by simpa using er)
  rw [block_eq (by simp [hskip, et]), hskip]
  cases hd
  case asserted unjoined unnegated operand =>
    have ha : (r.along (Scan.blanks gap) (textOf front ++ text)).Admits form := ha
    exact (stalls_of_refuseConnective hi ha joining operand e alone rest_along.symm).2
  case negated word gap' parts spells hg' unjoined operand =>
    cases front
    case nil => cases e
    case cons first front =>
      obtain ⟨rfl, e₁⟩ := List.cons.inj e
      obtain ⟨front, rfl, e₂⟩ := exists_of_blanks_append e₁
      generalize es : r.along (Scan.blanks gap) _ = s
      have er : word ++ (gap' ++ (textOf front ++ text)) = s.rest := by simp [← es]
      have begins : Begins .not s.rest := ⟨word, _, er, spells⟩
      have ⟨latest, pushed⟩ :=
        pushNot_eq_along spells hg' (operand.head?_front_append e₂ alone) er
      have ne : s.pushNot.rest ≠ [] := by
        have ⟨c, letters, et, _⟩ := operand.front_append_opens e₂ alone
        simp [pushed, et]
      rw [refuseConnective_eq_ok_iff.mpr ⟨not_standsAlone_of_begins_not begins, rfl⟩]
      show Stalls text (s.negation >>= Reading.operand (insideOf room))
      rw [negation_of_begins begins ne, pushed]
      refine (stalls_of_refuseConnective hi ?_ joining operand e₂ alone rfl).1
      rwa [admits_setLatest, ← es]

theorem stalls_first {read : Reading → Outcome} (hr : Reads read fun _ => SpacedBlock room)
    (hs : StallsIn read fun _ => SpacedBlock room) (ha : r.Admits form)
    (joining : IsJoiningWord name) (alone : StandsAlone text)
    (block : Derives form .block room (front ++ ⟨.key, name⟩ :: back) rest) (hg : IsBlanks gap)
    (er : gap ++ (textOf front ++ text) = r.rest) : Stalls text (sequence read r) := by
  have stalls : Stalls text (read r) := hs r form (Scan.blanks gap ++ front) name back rest text ha
    joining ⟨gap, _, hg, by simp, block⟩ alone (by simpa using er)
  rw [sequence_eq_bind hr.advances]
  exact stalls.bind _

theorem stalls_joined {read : Reading → Outcome} {connective : Connective}
    {gap₁ gap₂ word : List Char} (hr : Reads read fun _ => SpacedBlock room)
    (ha : r.Admits form) (joining : IsJoiningWord name) (alone : StandsAlone text)
    (block : Derives form .block room parts (gap₁ ++ (word ++ (gap₂ ++ (textOf others ++ rest)))))
    (hg₁ : IsBlanks gap₁) (joins : connective ≠ .not) (spells : Spells connective word)
    (whole : ∀ c ∈ (gap₂ ++ (textOf others ++ rest)).head?, endsWord c) (hg₂ : IsBlanks gap₂)
    (tail : Derives form phrase room others rest) (e : others = front ++ ⟨.key, name⟩ :: back)
    (hg : IsBlanks gap)
    (er : gap ++ (textOf parts ++ (gap₁ ++ (word ++ (gap₂ ++ (textOf front ++ text))))) = r.rest)
    (hi : ∀ s : Reading, s.isGrouped = r.isGrouped → s.Admits form →
      textOf front ++ text = s.rest → Stalls text (sequence read s)) :
    Stalls text (sequence read r) := by
  have whole : ∀ c ∈ (gap₂ ++ (textOf front ++ text)).head?, endsWord c := by
    rw [e, textOf_append, List.append_assoc, List.head?_append] at whole
    rw [List.head?_append]
    by_cases hf : front = []
    case neg => rwa [tail.head?_front hf e] at whole
    case pos =>
      subst hf
      cases gap₂
      case cons => exact whole
      case nil =>
        have ⟨c, letters, en, letter⟩ := joining.exists_cons
        have ends : endsWord c := whole c (by simp [en])
        exact absurd ends (ne_true_of_eq_false (endsWord_of_isLetter letter))
  have block : Derives form .block room parts
      (gap₁ ++ (word ++ (gap₂ ++ (textOf front ++ text)))) :=
    block.replace (replaces_of_spells hg₁ spells)
  have hblock := (hr r _).mpr
    ⟨form, _, _, ha, ⟨gap, parts, hg, rfl, block⟩, by simpa using er, rfl⟩
  rw [sequence_of_ok hr.advances hblock, continued_of_next_more (next_of_joining hg₁ joins spells
    hg₂ (tail.front_append_opens e alone) whole rest_past.symm)]
  exact hi _ (by simp) (by simp) rfl

theorem stalls_adjoined {read : Reading → Outcome} {gap₁ : List Char}
    (hr : Reads read fun _ => SpacedBlock room) (ha : r.Admits form) (joining : IsJoiningWord name)
    (alone : StandsAlone text)
    (block : Derives form .block room parts (gap₁ ++ (textOf others ++ rest))) (hg₁ : IsBlanks gap₁)
    (apart : ∀ c ∈ (textOf others).head?, isOperandStart c = false)
    (tail : Derives form phrase room others rest) (e : others = front ++ ⟨.key, name⟩ :: back)
    (hg : IsBlanks gap) (grouped : r.isGrouped)
    (er : gap ++ (textOf parts ++ (gap₁ ++ (textOf front ++ text))) = r.rest)
    (hi : ∀ s : Reading, s.isGrouped = r.isGrouped → s.Admits form →
      textOf front ++ text = s.rest → Stalls text (sequence read s)) :
    Stalls text (sequence read r) := by
  rw [e, textOf_append] at apart block
  have hf : front ≠ [] := by
    rintro rfl
    have ⟨c, letters, en, letter⟩ := joining.exists_cons
    have other : isOperandStart c = false := apart c (by simp [en])
    exact absurd (isOperandStart_of_isLetter letter) (ne_true_of_eq_false other)
  have apart : ∀ c ∈ (textOf front ++ text).head?, isOperandStart c = false := by
    rwa [tail.head?_front hf e] at apart
  have block : Derives form .block room parts (gap₁ ++ (textOf front ++ text)) := by
    rw [List.append_assoc] at block
    exact block.replace (tail.replaces_front hf e hg₁ _ _)
  have hblock := (hr r _).mpr
    ⟨form, _, _, ha, ⟨gap, parts, hg, rfl, block⟩, by simpa using er, rfl⟩
  rw [sequence_of_ok hr.advances hblock, continued_of_next_more (next_of_apart hg₁
    (by simpa using grouped) (tail.front_append_opens e alone) apart rest_past.symm)]
  exact hi _ (by simp) (by simp) rfl

-- By induction on the phrase. The blocks in front of the key are read as they are in front of it.
theorem stalls_sequence {read : Reading → Outcome} (hr : Reads read fun _ => SpacedBlock room)
    (hs : StallsIn read fun _ => SpacedBlock room)
    (hd : Derives form phrase room parts rest) (hp : phrase = .expression r.isGrouped)
    (ha : r.Admits form) (joining : IsJoiningWord name) (alone : StandsAlone text)
    (e : parts = front ++ ⟨.key, name⟩ :: back) (hg : IsBlanks gap)
    (er : gap ++ (textOf front ++ text) = r.rest) : Stalls text (sequence read r) := by
  induction hd generalizing r gap front back
  case leaf     => cases hp
  case group    => cases hp
  case asserted => cases hp
  case negated  => cases hp
  case single block _ =>
    subst e
    exact stalls_first hr hs ha joining alone block hg er
  case joined connective word gap₁ gap₂ rest parts others room grouped block hg₁ joins spells whole
      hg₂ tail _ hi =>
    obtain ⟨before, rfl, e₁⟩ | ⟨ahead, rfl, _⟩ := cases_of_append_eq e
    case inr => exact stalls_first hr hs ha joining alone block hg er
    case inl =>
      obtain ⟨before, rfl, e₂⟩ := exists_of_blanks_append e₁
      cases before
      case nil => cases e₂
      case cons first before =>
        obtain ⟨rfl, e₃⟩ := List.cons.inj e₂
        obtain ⟨before, rfl, e₄⟩ := exists_of_blanks_append e₃
        refine stalls_joined hr ha joining alone block hg₁ joins spells whole hg₂ tail e₄ hg
          (by simpa using er) fun s grouped ha er => ?_
        exact hi hr hs (by rw [hp, grouped]) ha e₄ isBlanks_nil er
  case adjoined gap₁ rest parts others room block hg₁ apart tail _ hi =>
    obtain ⟨before, rfl, e₁⟩ | ⟨ahead, rfl, _⟩ := cases_of_append_eq e
    case inr => exact stalls_first hr hs ha joining alone block hg er
    case inl =>
      obtain ⟨before, rfl, e₂⟩ := exists_of_blanks_append e₁
      have grouped : r.isGrouped := by simpa using hp.symm
      refine stalls_adjoined hr ha joining alone block hg₁ apart tail e₂ hg grouped
        (by simpa using er) fun s grouped ha er => ?_
      exact hi hr hs (by rw [hp, grouped]) ha e₂ isBlanks_nil er

-- By induction on the number of groups that may be opened inside each other.
theorem stallsIn_expression (room : Nat) :
    StallsIn (expression room) (SpacedExpression room) := by
  induction room using Nat.strongRecOn
  case ind room hi =>
    rintro r form front name back rest text ha joining ⟨gap, body, gap', hg, hg', eb, hd, _⟩ alone
      er
    obtain ⟨front, rfl, e⟩ := exists_of_blanks_append eb
    obtain ⟨ahead, e₁⟩ := exists_of_append_eq e (by simp [Scan.blanks])
    rw [expression_eq_sequence]
    exact stalls_sequence (reads_nested_block room) (stallsIn_block fun n _ => hi n (by omega)) hd
      rfl ha joining alone e₁ hg (by simpa using er)

theorem stalls_ofText {maxDepth : Nat} (h : Sentence form maxDepth parts)
    (e : parts = front ++ ⟨.key, name⟩ :: back) (joining : IsJoiningWord name)
    (alone : StandsAlone text) : Stalls text (ofText maxDepth (textOf front ++ text)) := by
  cases h
  case mk gap gap' parts hg hg' hd =>
    obtain ⟨front, rfl, e₁⟩ := exists_of_blanks_append e
    obtain ⟨ahead, rfl⟩ := exists_of_append_eq e₁ (by simp [Scan.blanks])
    have spaced : SpacedExpression maxDepth false form
        (front ++ ⟨.key, name⟩ :: (ahead ++ Scan.blanks gap')) [] :=
      ⟨[], front ++ ⟨.key, name⟩ :: ahead, gap', isBlanks_nil, hg', by simp [Scan.blanks],
        by simpa using hd, by simp [Stops]⟩
    generalize et : textOf (Scan.blanks gap ++ front) ++ text = whole
    have hskip : (start whole).skipBlanks =
        (start whole).along (Scan.blanks gap) (textOf front ++ text) :=
      skipBlanks_eq_along hg (hd.head?_front_append rfl alone) (by simpa using et)
    rw [ofText, hskip]
    refine Stalls.bind ?_ fun r => r.skipBlanks.finish
    exact stallsIn_expression maxDepth _ form front name _ [] text (admits_start whole) joining
      spaced alone rfl

end Reading

theorem validate_of_stalls {maxDepth : Nat} {front : List Lexeme} {text : List Char}
    (h : Reading.Stalls text (Reading.ofText maxDepth (textOf front ++ text))) : ∃ kind,
      (kind = .valueExpected ∨ kind = .duplicateConnective) ∧
      validate maxDepth (textOf front ++ text) = .error ⟨kind, byteLength (textOf front)⟩ := by
  rw [validate]
  generalize Reading.ofText maxDepth (textOf front ++ text) = outcome at h
  cases h
  case missing h => exact ⟨_, .inl rfl, by simp [Rejection.violation, h]⟩
  case doubled h => exact ⟨_, .inr rfl, by simp [Rejection.violation, h]⟩

end BoolSearch
