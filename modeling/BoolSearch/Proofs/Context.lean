import BoolSearch.Proofs.Lockstep

namespace BoolSearch

namespace Grammar

variable {form : Form} {phrase : Phrase} {room : Nat} {front back parts : List Lexeme}
  {value : Lexeme} {text rest rest' gap gap' : List Char}

theorem isBlanks_singleton {c : Char} (h : isBlank c) : IsBlanks [c] := by
  simpa [IsBlanks] using h

theorem IsBlanks.head? (h : IsBlanks gap) : ∀ c ∈ gap.head?, isBlank c :=
  fun c hc => h c (List.mem_of_mem_head? hc)

theorem IsBlanks.not_letter (h : IsBlanks gap) : ∀ c ∈ gap.head?, isLetter c = false :=
  fun c hc => isLetter_of_isBlank (h.head? c hc)

theorem IsBlanks.endsWord (h : IsBlanks gap) : ∀ c ∈ gap.head?, endsWord c :=
  fun c hc => by simp [BoolSearch.endsWord, h.head? c hc]

theorem IsBlanks.not_bare (h : IsBlanks gap) : ∀ c ∈ gap.head?, isBare c = false :=
  fun c hc => isBare_of_endsWord (h.endsWord c hc)

-- May `rest'` take the place of `rest` behind a phrase? Where a bare character follows, the phrase
-- does not end in a bare value.
inductive Replaces : List Char → List Char → Prop
  | glued {c : Char} {rest rest' : List Char} (bare : isBare c) : Replaces (c :: rest) rest'
  | ended {rest rest' : List Char} (ends : ∀ c ∈ rest.head?, endsWord c)
    (stops : ∀ c ∈ rest'.head?, isBare c = false)
    (unkeyed : ∀ gap tail, IsBlanks gap → gap ++ '=' :: tail ≠ rest') : Replaces rest rest'

-- An equals sign behind blanks is what follows them.
theorem gap_append_ne (hg : IsBlanks gap) (hr : ∀ c ∈ rest.head?, isBlank c = false ∧ c ≠ '=') :
    ∀ gap' tail, IsBlanks gap' → gap' ++ '=' :: tail ≠ gap ++ rest := by
  intro gap' tail hg' e
  have hs := congrArg skipBlanks e
  have blank : ∀ c ∈ ('=' :: tail).head?, isBlank c = false := by
    rintro _ ⟨⟩
    decide
  rw [skipBlanks_append hg' blank, skipBlanks_append hg fun c hc => (hr c hc).1] at hs
  exact (hr '=' (by simp [← hs])).2 rfl

-- Behind blanks it does not matter what comes next, as long as it is no equals sign.
theorem replaces_of_blanks (hg : IsBlanks gap) (hne : gap ≠ [])
    (hr : ∀ c ∈ rest'.head?, isBlank c = false ∧ c ≠ '=') :
    Replaces (gap ++ rest) (gap ++ rest') := by
  refine .ended ?_ ?_ (gap_append_ne hg hr)
  · rw [head?_append_of_ne_nil hne]
    exact hg.endsWord
  · rw [head?_append_of_ne_nil hne]
    exact hg.not_bare

-- Nor does it matter what comes behind the next part, or how many blanks there are in front of it.
theorem replaces_of_gap {c : Char} (hg : IsBlanks gap) (hg' : IsBlanks gap')
    (glued : gap' = [] → gap = []) (hb : isBlank c = false) (hc : isBare c ∨ isParen c) :
    Replaces (gap ++ c :: rest) (gap' ++ c :: rest') := by
  have ne : c ≠ '=' := by
    rintro rfl
    revert hc
    decide
  have stop : ∀ d ∈ (c :: rest').head?, isBlank d = false ∧ d ≠ '=' := by
    rintro _ ⟨⟩
    exact ⟨hb, ne⟩
  by_cases bare : gap = [] ∧ isBare c
  case pos =>
    obtain ⟨rfl, bare⟩ := bare
    exact .glued bare
  case neg =>
    have ends : gap = [] → endsWord c := by
      intro nil
      have paren : isParen c := hc.resolve_left fun hc => bare ⟨nil, hc⟩
      simp [endsWord, paren]
    refine .ended ?_ ?_ (gap_append_ne hg' stop)
    · cases gap
      case nil  => rintro _ ⟨⟩; exact ends rfl
      case cons => exact hg.endsWord
    · cases gap'
      case nil  => rintro _ ⟨⟩; exact isBare_of_endsWord (ends (glued rfl))
      case cons => exact hg'.not_bare

theorem replaces_of_head {c : Char} (hg : IsBlanks gap) (hb : isBlank c = false)
    (hc : isBare c ∨ isParen c) : Replaces (gap ++ c :: rest) (gap ++ c :: rest') :=
  replaces_of_gap hg hg id hb hc

theorem Opens.isBare_or_isParen {c : Char} (h : Opens c) : isBare c ∨ isParen c := by
  cases h
  case inl h => exact .inr (by simp [h, isParen])
  case inr h => exact .inl h

theorem replaces_of_gap_spells {connective : Connective} {word : List Char} (hg : IsBlanks gap)
    (hg' : IsBlanks gap') (glued : gap' = [] → gap = []) (spells : Spells connective word) :
    Replaces (gap ++ (word ++ rest)) (gap' ++ (word ++ rest')) := by
  have ⟨c, letters, ew⟩ := List.exists_cons_of_ne_nil (ne_nil_of_spells spells)
  have letter : isLetter c := isLetter_of_spells spells c (by simp [ew])
  rw [ew]
  exact replaces_of_gap hg hg' glued (isBlank_of_isLetter letter) (.inl (isBare_of_isLetter letter))

theorem replaces_of_spells {connective : Connective} {word : List Char} (hg : IsBlanks gap)
    (spells : Spells connective word) :
    Replaces (gap ++ (word ++ rest)) (gap ++ (word ++ rest')) :=
  replaces_of_gap_spells hg hg id spells

theorem Derives.replaces_gap (h : Derives form phrase room parts text) (hg : IsBlanks gap)
    (hg' : IsBlanks gap') (glued : gap' = [] → gap = []) :
    Replaces (gap ++ (textOf parts ++ rest)) (gap' ++ (textOf parts ++ rest')) := by
  have ⟨c, tail, e, hc⟩ := h.opens
  rw [e]
  exact replaces_of_gap hg hg' glued hc.not_blank hc.isBare_or_isParen

theorem Derives.replaces (h : Derives form phrase room parts text) (hg : IsBlanks gap) :
    Replaces (gap ++ (textOf parts ++ rest)) (gap ++ (textOf parts ++ rest')) :=
  h.replaces_gap hg hg id

theorem IsBare.replaces (h : IsBare text rest) (hr : Replaces rest rest') :
    (∀ c ∈ rest.head?, endsWord c) ∧ (∀ c ∈ rest'.head?, isBare c = false) ∧
      ∀ gap tail, IsBlanks gap → gap ++ '=' :: tail ≠ rest' := by
  cases hr
  case glued c rest bare          => exact absurd bare (ne_true_of_eq_false (h.whole c rfl))
  case ended ends stops unkeyed   => exact ⟨ends, stops, unkeyed⟩

theorem IsValue.replace (h : IsValue value rest) (hr : Replaces rest rest') :
    IsValue value rest' := by
  cases h
  case quoted hq => exact .quoted hq
  case bare hb => exact .bare ⟨hb.nonempty, hb.bare, hb.unquoted, (hb.replaces hr).2.1⟩

theorem head?_of_standsAlone (h : StandsAlone rest) : ∃ c ∈ rest.head?, isLetter c := by
  obtain ⟨connective, word, tail, _, spells, rfl, _⟩ := h
  have ⟨c, text, e⟩ := List.exists_cons_of_ne_nil (ne_nil_of_spells spells)
  exact ⟨c, by simp [e], isLetter_of_spells spells c (by simp [e])⟩

-- Is what a text starts with the same in front of `rest'` as in front of `rest`? It is if the text
-- goes on behind its first letters, or if no word goes on or ends where it did not before.
def Alike (text rest rest' : List Char) : Prop :=
  (∃ c ∈ text, isLetter c = false) ∨ (∀ c ∈ rest'.head?, isLetter c = false) ∧
    ((∀ c ∈ rest'.head?, endsWord c ∨ isQuote c) → ∀ c ∈ rest.head?, endsWord c ∨ isQuote c)

-- A word of letters at the start of such a text ends in it.
theorem Alike.exists_append {word back : List Char} (ha : Alike text rest rest')
    (hw : ∀ c ∈ word, isLetter c) (e : word ++ back = text ++ rest') :
    ∃ before, word ++ before = text ∧ before ++ rest' = back := by
  cases List.append_eq_append_iff.mp e
  case inl h =>
    have ⟨before, et, eb⟩ := h
    exact ⟨before, et.symm, eb.symm⟩
  case inr h =>
    have ⟨ahead, ew, er⟩ := h
    cases ahead
    case nil => exact ⟨[], by simpa using ew, by simpa using er⟩
    case cons c ahead =>
      subst ew
      cases ha
      case inl hl =>
        have ⟨d, hd, letter⟩ := hl
        exact absurd (hw d (by simp [hd])) (ne_true_of_eq_false letter)
      case inr hl =>
        exact absurd (hw c (by simp)) (ne_true_of_eq_false (hl.1 c (by simp [er])))

theorem Begins.replace {connective : Connective} (ha : Alike text rest rest')
    (h : Begins connective (text ++ rest')) : Begins connective (text ++ rest) := by
  have ⟨word, back, e, spells⟩ := h
  have ⟨before, et, _⟩ := ha.exists_append (isLetter_of_spells spells) e
  exact ⟨word, before ++ rest, by rw [← et, List.append_assoc], spells⟩

theorem StandsAlone.replace (ha : Alike text rest rest') (h : StandsAlone (text ++ rest')) :
    StandsAlone (text ++ rest) := by
  have ⟨connective, word, back, hn, spells, e, stop⟩ := h
  have ⟨before, et, eb⟩ := ha.exists_append (isLetter_of_spells spells) e
  refine ⟨connective, word, before ++ rest, hn, spells, by rw [← et, List.append_assoc], ?_⟩
  subst eb
  cases before
  case cons => exact stop
  case nil =>
    rw [List.append_nil] at et
    subst et
    cases ha
    case inl hl =>
      have ⟨c, hc, letter⟩ := hl
      exact absurd (isLetter_of_spells spells c hc) (ne_true_of_eq_false letter)
    case inr hl => exact hl.2 stop

theorem IsLeaf.replace (h : IsLeaf form parts rest) (hr : Replaces rest rest') :
    IsLeaf form parts rest' := by
  cases h
  case keyed hn hg hg' hv => exact .keyed hn hg hg' (hv.replace hr)
  case plain value hv unkeyed =>
    refine .plain (hv.replace hr) ?_
    cases hv
    case quoted hq =>
      cases hq
      case mk quote _ => exact not_beginsKeyed (isLetter_of_isQuote quote)
    case bare hb =>
      have ⟨_, stops, hk⟩ := hb.replaces hr
      exact not_beginsKeyed_of_bare hb.bare stops hk

theorem IsQuoted.exists_not_isLetter (h : IsQuoted text) : ∃ c ∈ text, isLetter c = false := by
  cases h
  case mk opening _ quote _ => exact ⟨opening, by simp, isLetter_of_isQuote quote⟩

theorem IsLeaf.alike (h : IsLeaf form parts rest) (hr : Replaces rest rest') :
    Alike (textOf parts) rest rest' := by
  cases h
  case keyed => exact .inl ⟨'=', by simp, by decide⟩
  case plain value hv unkeyed =>
    cases hv
    case quoted hq =>
      have ⟨c, hc, letter⟩ := hq.exists_not_isLetter
      exact .inl ⟨c, by simpa using hc, letter⟩
    case bare hb =>
      have ⟨ends, stops, _⟩ := hb.replaces hr
      exact .inr ⟨fun c hc => isLetter_of_not_isBare (stops c hc), fun _ c hc => .inl (ends c hc)⟩

theorem Derives.alike (h : Derives form .operand room parts rest) (hr : Replaces rest rest') :
    Alike (textOf parts) rest rest' := by
  cases h
  case leaf hl => exact hl.alike hr
  case group   => exact .inl ⟨'(', by simp, by decide⟩

-- What follows a phrase is not what the text starts with.
theorem Derives.head?_gap_append (h : Derives form phrase room parts text)
    (gap rest rest' : List Char) :
    (gap ++ (textOf parts ++ rest)).head? = (gap ++ (textOf parts ++ rest')).head? := by
  have ⟨c, tail, e, _⟩ := h.opens
  have ne : gap ++ textOf parts ≠ [] := by simp [e]
  rw [← List.append_assoc, ← List.append_assoc, head?_append_of_ne_nil ne,
    head?_append_of_ne_nil ne]

theorem Derives.exists_cons (h : Derives form phrase room parts rest) :
    ∃ first others, parts = first :: others ∧ first.text ≠ [] := by
  induction h
  case leaf hl =>
    cases hl
    case keyed hn _ _ _ =>
      exact ⟨_, _, rfl, List.ne_nil_of_length_pos (Nat.lt_of_lt_of_le Nat.two_pos hn.1)⟩
    case plain hv _ =>
      have ⟨c, text, e, _⟩ := hv.opens
      exact ⟨_, _, rfl, by simp [e]⟩
  case group               => exact ⟨_, _, rfl, List.cons_ne_nil _ _⟩
  case asserted hi         => exact hi
  case negated spells _ _ _ _ => exact ⟨_, _, rfl, ne_nil_of_spells spells⟩
  case single hi           => exact hi
  case joined hi _ =>
    obtain ⟨first, others, rfl, ne⟩ := hi
    exact ⟨first, _, rfl, ne⟩
  case adjoined hi _ =>
    obtain ⟨first, others, rfl, ne⟩ := hi
    exact ⟨first, _, rfl, ne⟩

-- What a phrase starts with lies in front of each boundary in it.
theorem Derives.front_opens (h : Derives form phrase room parts rest) (hf : front ≠ [])
    (e : parts = front ++ back) : ∃ c text, textOf front = c :: text ∧ Opens c := by
  have ⟨c, text, et, hc⟩ := h.opens
  obtain ⟨first, others, rfl, ne⟩ := h.exists_cons
  cases front
  case nil => contradiction
  case cons first front =>
    obtain ⟨rfl, _⟩ := List.cons.inj e
    obtain ⟨d, letters, ed⟩ := List.exists_cons_of_ne_nil ne
    rw [textOf_cons, ed] at et
    cases et
    exact ⟨c, letters ++ textOf front, by simp [ed], hc⟩

theorem Derives.head?_front (h : Derives form phrase room parts rest) (hf : front ≠ [])
    (e : parts = front ++ back) (text text' : List Char) :
    (textOf front ++ text).head? = (textOf front ++ text').head? := by
  have ⟨c, letters, et, _⟩ := h.front_opens hf e
  rw [et]
  rfl

theorem Derives.replaces_front (h : Derives form phrase room parts rest) (hf : front ≠ [])
    (e : parts = front ++ back) (hg : IsBlanks gap) (text text' : List Char) :
    Replaces (gap ++ (textOf front ++ text)) (gap ++ (textOf front ++ text')) := by
  have ⟨c, letters, et, hc⟩ := h.front_opens hf e
  rw [et]
  exact replaces_of_head hg hc.not_blank hc.isBare_or_isParen

-- By induction on the phrase: what stands behind its last block stands behind that block only.
theorem Derives.replace (h : Derives form phrase room parts rest) (hr : Replaces rest rest') :
    Derives form phrase room parts rest' := by
  induction h generalizing rest'
  case leaf hl => exact .leaf (hl.replace hr)
  case group hg hg' _ hi =>
    exact .group hg hg' (hi (replaces_of_head hg' (by decide) (by decide)))
  case asserted unjoined unnegated operand hi =>
    exact .asserted (mt (.replace (operand.alike hr)) unjoined)
      (mt (.replace (operand.alike hr)) unnegated) (hi hr)
  case negated spells hg unjoined operand hi =>
    exact .negated spells hg (mt (.replace (operand.alike hr)) unjoined) (hi hr)
  case single hi => exact .single (hi hr)
  case joined connective word gap gap' rest parts others room grouped block hg joins spells whole
      hg' tail hi hi' =>
    refine .joined (hi (replaces_of_spells hg spells)) hg joins spells ?_ hg' (hi' hr)
    rwa [tail.head?_gap_append _ _ rest]
  case adjoined hg apart tail hi hi' =>
    exact .adjoined (hi (tail.replaces hg)) hg apart (hi' hr)

end Grammar

end BoolSearch
