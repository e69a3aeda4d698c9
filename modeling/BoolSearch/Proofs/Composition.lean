import BoolSearch.Proofs.Context

namespace BoolSearch

namespace Grammar

variable {form : Form} {phrase : Phrase} {room : Nat} {parts others : List Lexeme}
  {text rest rest' gap gap' word : List Char} {connective : Connective}

-- What stands at the end of a text, apart from blanks, may go on with more blanks and another part.
theorem replaces_of_end (hg : IsBlanks gap) (hg' : IsBlanks gap')
    (hr : ∀ c ∈ rest.head?, isBlank c = false ∧ c ≠ '=')
    (stops : gap' = [] → ∀ c ∈ rest.head?, isBare c = false) : Replaces gap (gap' ++ rest) := by
  refine .ended hg.endsWord ?_ (gap_append_ne hg' hr)
  cases gap'
  case nil  => exact stops rfl
  case cons => exact hg'.not_bare

theorem Derives.grouped {grouped : Bool} (h : Derives form (.expression grouped) room parts rest) :
    Derives form (.expression true) room parts rest := by
  generalize hp : Phrase.expression grouped = phrase at h
  induction h
  case leaf     => cases hp
  case group    => cases hp
  case asserted => cases hp
  case negated  => cases hp
  case single block _                                   => exact .single block
  case joined block hg joins spells whole hg' _ _ hi    =>
    exact .joined block hg joins spells whole hg' (hi hp)
  case adjoined block hg apart tail _ _                 => exact .adjoined block hg apart tail

theorem not_standsAlone_of_head {c : Char} (hc : isLetter c = false) :
    ¬StandsAlone (c :: text) := by
  intro h
  have ⟨connective, word, back, _, spells, e, _⟩ := h
  exact not_begins hc ⟨word, back, e, spells⟩

theorem head?_of_spells (spells : Spells connective word) :
    ∀ c ∈ (word ++ rest).head?, isLetter c := by
  rw [head?_append_of_ne_nil (ne_nil_of_spells spells)]
  exact fun c hc => isLetter_of_spells spells c (List.mem_of_mem_head? hc)

-- By induction on the first expression. Its blocks stay what they are in front of the second one.
theorem Derives.join {grouped : Bool} (h : Derives form (.expression grouped) room parts rest)
    (hr : Replaces rest (gap ++ (word ++ (gap' ++ (textOf others ++ rest')))))
    (hg : IsBlanks gap) (joins : connective ≠ .not) (spells : Spells connective word)
    (whole : ∀ c ∈ (gap' ++ (textOf others ++ rest')).head?, endsWord c) (hg' : IsBlanks gap')
    (h' : Derives form (.expression grouped) room others rest') :
    Derives form (.expression grouped) room (parts ++ (Scan.blanks gap ++
      (⟨.connective connective, word⟩ :: (Scan.blanks gap' ++ others)))) rest' := by
  generalize hp : Phrase.expression grouped = phrase at h
  induction h
  case leaf     => cases hp
  case group    => cases hp
  case asserted => cases hp
  case negated  => cases hp
  case single block _ =>
    cases hp
    exact .joined (block.replace hr) hg joins spells whole hg' h'
  case joined connective₁ word₁ gap₁ gap₂ rest parts others₁ room _ block hg₁ joins₁ spells₁ whole₁
      hg₂ tail _ hi =>
    have whole₁ (more : List Lexeme) :
        ∀ c ∈ (gap₂ ++ (textOf (others₁ ++ more) ++ rest')).head?, endsWord c := by
      rwa [textOf_append, List.append_assoc, tail.head?_gap_append _ _ rest]
    have block (text : List Char) : Derives form .block room parts (gap₁ ++ (word₁ ++ text)) :=
      block.replace (replaces_of_spells hg₁ spells₁)
    simpa using Derives.joined (block _) hg₁ joins₁ spells₁ (whole₁ _) hg₂ (hi hr h' hp)
  case adjoined gap₁ rest parts others₁ room block hg₁ apart tail _ hi =>
    cases hp
    have block (more : List Lexeme) :
        Derives form .block room parts (gap₁ ++ (textOf (others₁ ++ more) ++ rest')) := by
      rw [textOf_append, List.append_assoc]
      exact block.replace (tail.replaces hg₁)
    have apart (more : List Lexeme) :
        ∀ c ∈ (textOf (others₁ ++ more)).head?, isOperandStart c = false := by
      have ⟨c, text, e, _⟩ := tail.opens
      rwa [textOf_append, head?_append_of_ne_nil (by simp [e])]
    simpa using Derives.adjoined (block _) hg₁ (apart _) (hi hr h' rfl)

theorem Derives.block_of_operand {c : Char} (hc : isLetter c = false)
    (h : Derives form .operand room parts rest) (e : c :: text = textOf parts) :
    Derives form .block room parts rest := by
  refine .asserted ?_ ?_ h
  · rw [← e]
    exact not_standsAlone_of_head hc
  · rw [← e]
    exact not_begins hc

def inParens (parts : List Lexeme) : List Lexeme :=
  ⟨.paren .opening, ['(']⟩ :: (parts ++ [⟨.paren .closing, [')']⟩])

theorem Sentence.inParens (h : Sentence form room parts) :
    Derives form .operand (room + 1) (inParens parts) rest := by
  cases h
  case mk gap gap' parts hg hg' hd =>
    have follows : Replaces gap' (gap' ++ ')' :: rest) :=
      replaces_of_end hg' hg' (by rintro _ ⟨⟩; decide) (by rintro - _ ⟨⟩; decide)
    simpa [Grammar.inParens] using Derives.group hg hg' (hd.grouped.replace follows)

theorem Sentence.group (h : Sentence form room parts) :
    Sentence form (room + 1) (Grammar.inParens parts) := by
  have block : Derives form .block (room + 1) (Grammar.inParens parts) [] :=
    h.inParens.block_of_operand (by decide) rfl
  simpa [Scan.blanks] using Sentence.mk isBlanks_nil isBlanks_nil (.single block)

theorem Sentence.negation (h : Sentence form room parts) (spells : Spells .not word)
    (hg : IsBlanks gap) : Sentence form (room + 1)
      (⟨.connective .not, word⟩ :: (Scan.blanks gap ++ Grammar.inParens parts)) := by
  have block : Derives form .block (room + 1)
      (⟨.connective .not, word⟩ :: (Scan.blanks gap ++ Grammar.inParens parts)) [] :=
    .negated spells hg (not_standsAlone_of_head (by decide)) h.inParens
  simpa [Scan.blanks] using Sentence.mk isBlanks_nil isBlanks_nil (.single block)

theorem replaces_of_word (hg : IsBlanks gap) (spells : Spells connective word) :
    Replaces gap (gap ++ ' ' :: (word ++ rest)) := by
  have blank : IsBlanks (gap ++ [' ']) := hg.append (isBlanks_singleton (by decide))
  have follows : Replaces gap ((gap ++ [' ']) ++ (word ++ rest)) := by
    refine replaces_of_end hg blank (fun c hc => ?_) (by simp)
    have letter := head?_of_spells spells c hc
    refine ⟨isBlank_of_isLetter letter, ?_⟩
    rintro rfl
    exact absurd letter (by decide)
  simpa using follows

theorem Sentence.join (h : Sentence form room parts) (h' : Sentence form room others)
    (joins : connective ≠ .not) (spells : Spells connective word) :
    Sentence form room (parts ++ (Scan.blanks [' '] ++
      (⟨.connective connective, word⟩ :: (Scan.blanks [' '] ++ others)))) := by
  cases h
  case mk gap gap₁ parts hg hg₁ hd =>
    cases h'
    case mk gap₂ gap' others hg₂ hg' hd' =>
      have blank : IsBlanks [' '] := isBlanks_singleton (by decide)
      have follows : Replaces gap₁
          ((gap₁ ++ [' ']) ++ (word ++ (([' '] ++ gap₂) ++ (textOf others ++ gap')))) := by
        simpa using replaces_of_word hg₁ spells
      have joined := hd.join follows (hg₁.append blank) joins spells (by rintro _ ⟨⟩; decide)
        (blank.append hg₂) hd'
      simpa [Scan.blanks] using Sentence.mk hg hg' joined

end Grammar

open Grammar

def TokenKind.startsLeaf : TokenKind → Bool
  | .key | .quoted | .bare => true
  | _                      => false

-- The parts in front of the first leaf block. They are blanks, parentheses and `NOT`s.
def beforeLeaf (parts : List Lexeme) : List Lexeme :=
  parts.takeWhile (!·.kind.startsLeaf)

variable {form : Form} {room : Nat} {parts others : List Lexeme} {rest : List Char}

theorem beforeLeaf_append (h : ∀ part ∈ parts, part.kind.startsLeaf = false) :
    beforeLeaf (parts ++ others) = parts ++ beforeLeaf others := by
  rw [beforeLeaf, List.takeWhile_append_of_pos]
  · rfl
  · simpa using h

theorem startsLeaf_of_mem_blanks {gap : List Char} :
    ∀ part ∈ Scan.blanks gap, part.kind.startsLeaf = false := by
  intro part hp
  have ⟨_, _, e⟩ := List.mem_map.mp hp
  rw [← e]
  rfl

theorem beforeLeaf_blanks (gap : List Char) :
    beforeLeaf (Scan.blanks gap ++ others) = Scan.blanks gap ++ beforeLeaf others :=
  beforeLeaf_append startsLeaf_of_mem_blanks

theorem beforeLeaf_of_head {part : Lexeme} (hp : part.kind.startsLeaf) :
    beforeLeaf (part :: parts) = [] :=
  List.takeWhile_cons_of_neg (by simp [hp])

theorem beforeLeaf_append_of_mem {part : Lexeme} (hm : part ∈ parts) (hp : part.kind.startsLeaf) :
    beforeLeaf (parts ++ others) = beforeLeaf parts := by
  have ⟨part', h⟩ : ∃ part', parts.find? (·.kind.startsLeaf) = some part' :=
    Option.isSome_iff_exists.mp (List.find?_isSome.mpr ⟨part, hm, hp⟩)
  have ⟨hp', front, back, e, hf⟩ := List.find?_eq_some_iff_append.mp h
  have hf : ∀ part ∈ front, part.kind.startsLeaf = false := by simpa using hf
  rw [e, List.append_assoc, beforeLeaf_append hf, beforeLeaf_append hf, List.cons_append,
    beforeLeaf_of_head hp', beforeLeaf_of_head hp']

namespace Grammar

theorem IsLeaf.beforeLeaf_eq (h : IsLeaf form parts rest) : beforeLeaf parts = [] := by
  cases h
  case keyed => exact beforeLeaf_of_head rfl
  case plain value hv _ => exact beforeLeaf_of_head (by cases hv <;> rfl)

theorem IsLeaf.exists_startsLeaf (h : IsLeaf form parts rest) :
    ∃ part ∈ parts, part.kind.startsLeaf := by
  cases h
  case keyed name _ _ _ _ _ _ _ => exact ⟨⟨.key, name⟩, by simp, rfl⟩
  case plain value hv _          => exact ⟨value, by simp, by cases hv <;> rfl⟩

theorem Derives.exists_startsLeaf {phrase : Phrase} (h : Derives form phrase room parts rest) :
    ∃ part ∈ parts, part.kind.startsLeaf := by
  induction h
  case leaf hl     => exact hl.exists_startsLeaf
  case asserted hi => exact hi
  case single hi   => exact hi
  case group hi =>
    have ⟨part, hm, hp⟩ := hi
    exact ⟨part, by simp [hm], hp⟩
  case negated hi =>
    have ⟨part, hm, hp⟩ := hi
    exact ⟨part, by simp [hm], hp⟩
  case joined hi _ =>
    have ⟨part, hm, hp⟩ := hi
    exact ⟨part, List.mem_append_left _ hm, hp⟩
  case adjoined hi _ =>
    have ⟨part, hm, hp⟩ := hi
    exact ⟨part, List.mem_append_left _ hm, hp⟩

theorem Derives.exists_block {grouped : Bool}
    (h : Derives form (.expression grouped) room parts rest) :
    ∃ first others, first ++ others = parts ∧
      Derives form .block room first (textOf others ++ rest) := by
  cases h
  case single block     => exact ⟨parts, [], List.append_nil _, block⟩
  case joined block _   => exact ⟨_, _, rfl, by simpa using block⟩
  case adjoined block _ => exact ⟨_, _, rfl, by simpa using block⟩

end Grammar

namespace Reading

variable {r s : Reading}

-- Does `read` stop at the first leaf block of a phrase, if the values so far have another form?
def Clashes (read : Reading → Outcome)
    (phrase : Bool → Form → List Lexeme → List Char → Prop) : Prop :=
  ∀ r form parts rest, ¬r.Admits form → phrase r.isGrouped form parts rest →
    textOf parts ++ rest = r.rest → ∃ s, read r = .error ⟨.mixedExpressionTypes, s⟩ ∧
      textOf (beforeLeaf parts) ++ s.rest = r.rest

theorem leaf_of_not_admits (ha : ¬r.Admits form) (h : IsLeaf form parts rest)
    (e : textOf parts ++ rest = r.rest) : r.leaf = .error ⟨.mixedExpressionTypes, r⟩ := by
  cases h
  case keyed name gap gap' value hn hg hg' hv =>
    have hk : key? r.rest = some ⟨name, gap, gap' ++ (value.text ++ rest)⟩ :=
      key?_eq_some_iff.mpr ⟨hn, hg, by simpa using e⟩
    rw [admits_keyed_iff, not_not] at ha
    rw [leaf, formed, hk]
    simp only [if_pos ha]
    rfl
  case plain value hv unkeyed =>
    have hk : key? r.rest = none := by
      rw [key?_eq_none_iff, ← e]
      simpa using unkeyed
    rw [admits_plain_iff, not_not] at ha
    rw [leaf, formed, hk]
    simp only [if_pos ha]
    rfl

-- The clash is in what the group holds.
theorem clashes_group {read : Reading → Outcome} {gap gap' : List Char}
    (hi : Clashes read (SpacedExpression room)) (ha : ¬r.Admits form) (hg : IsBlanks gap)
    (hg' : IsBlanks gap') (hd : Derives form (.expression true) room parts (gap' ++ ')' :: rest)) :
    ∃ s, r.group (some read) (gap ++ (textOf parts ++ (gap' ++ ')' :: rest))) =
        .error ⟨.mixedExpressionTypes, s⟩ ∧
      textOf (beforeLeaf parts) ++ s.rest = textOf parts ++ (gap' ++ ')' :: rest) := by
  generalize hin : gap ++ (textOf parts ++ (gap' ++ ')' :: rest)) = inside
  have stop : Stops true (')' :: rest) := by
    intro c hc
    cases hc
    exact ⟨by decide, .inl rfl⟩
  have hskip := skipBlanks_eq_along (r := r.openGroup inside) hg
    (fun c hc => (hd.head?_opens c hc).not_blank) hin
  have ⟨s, hs, e⟩ := hi (r.openGroup inside).skipBlanks form (parts ++ Scan.blanks gap')
    (')' :: rest) (by rwa [hskip, admits_along, admits_openGroup])
    (by rw [hskip]; exact ⟨[], parts, gap', isBlanks_nil, hg', rfl, hd, stop⟩) (by simp [hskip])
  have ⟨part, hm, hp⟩ := hd.exists_startsLeaf
  rw [beforeLeaf_append_of_mem hm hp, hskip, rest_along] at e
  exact ⟨s, by rw [group, hs]; rfl, e⟩

theorem clashes_operand (hi : ∀ n, room = n + 1 → Clashes (expression n) (SpacedExpression n)) :
    Clashes (operand (insideOf room)) fun _ form => Derives form .operand room := by
  intro r form parts rest ha hd e
  cases hd
  case leaf hl =>
    rw [operand_eq_leaf (e ▸ hl.head?_ne)]
    exact ⟨r, leaf_of_not_admits ha hl e, by rw [hl.beforeLeaf_eq]; rfl⟩
  case group gap gap' parts n hg hg' hd =>
    have e : '(' :: (gap ++ (textOf parts ++ (gap' ++ ')' :: rest))) = r.rest := by
      rw [← e]
      simp
    have ⟨s, hs, es⟩ := clashes_group (hi n rfl) ha hg hg' hd
    have ⟨part, hm, hp⟩ := hd.exists_startsLeaf
    refine ⟨s, by rw [operand_eq_group e]; exact hs, ?_⟩
    have before (others : List Lexeme) : beforeLeaf (⟨.paren .opening, ['(']⟩ ::
        (Scan.blanks gap ++ (parts ++ others))) =
          ⟨.paren .opening, ['(']⟩ :: (Scan.blanks gap ++ beforeLeaf parts) := by
      rw [← List.singleton_append, beforeLeaf_append (by simp [TokenKind.startsLeaf]),
        beforeLeaf_blanks, beforeLeaf_append_of_mem hm hp]
      rfl
    rw [before, ← e, ← es]
    simp

theorem block_eq_operand {gap : List Char} (inside : Option (Reading → Outcome))
    (hg : IsBlanks gap) (hd : Derives form .block room parts rest)
    (e : gap ++ (textOf parts ++ rest) = r.rest) :
    ∃ front back, ∃ s : Reading, front ++ back = parts ∧
      (∀ part ∈ front, part.kind.startsLeaf = false) ∧ Derives form .operand room back rest ∧
      textOf back ++ rest = s.rest ∧ s.progress.form = r.progress.form ∧
      r.block inside = s.operand inside := by
  have hskip : r.skipBlanks = r.along (Scan.blanks gap) (textOf parts ++ rest) :=
    skipBlanks_eq_along hg (fun c hc => (hd.head?_opens c hc).not_blank) e
  have hne : r.skipBlanks.rest ≠ [] := by
    have ⟨c, text, e, _⟩ := hd.opens
    simp [hskip, e]
  rw [block_eq hne, hskip]
  cases hd
  case asserted unjoined begins hd =>
    refine ⟨[], parts, r.along (Scan.blanks gap) (textOf parts ++ rest), rfl, by simp, hd,
      rest_along.symm, rfl, ?_⟩
    rw [refuseConnective_eq_ok_iff.mpr ⟨unjoined, rfl⟩]
    show Reading.negation _ >>= operand inside = _
    rw [negation_of_not_begins begins]
    rfl
  case negated word gap' parts spells hg' unjoined hd =>
    have opens : ∃ c text, textOf parts ++ rest = c :: text ∧ isBlank c = false := by
      have opens : ∃ c text, textOf parts ++ rest = c :: text ∧ Opens c := hd.exists_opens
      have ⟨c, text, e, hc⟩ := opens
      exact ⟨c, text, e, hc.not_blank⟩
    have e' : word ++ (gap' ++ (textOf parts ++ rest)) =
        textOf (⟨.connective .not, word⟩ :: (Scan.blanks gap' ++ parts)) ++ rest := by simp
    have ⟨latest, hn⟩ := negation_of_spells (r := r.along (Scan.blanks gap) _) spells hg' opens
      unjoined e'
    have begins := not_standsAlone_of_begins_not ⟨word, gap' ++ (textOf parts ++ rest), e', spells⟩
    refine ⟨⟨.connective .not, word⟩ :: Scan.blanks gap', parts, ?_, rfl, ?front, hd, ?rest, ?form,
      ?read⟩
    case read =>
      rw [refuseConnective_eq_ok_iff.mpr ⟨begins, rfl⟩]
      show Reading.negation _ >>= operand inside = _
      rw [hn]
      rfl
    case front => simpa [TokenKind.startsLeaf] using startsLeaf_of_mem_blanks
    case rest  => rfl
    case form  => rfl

theorem clashes_block {inside : Option (Reading → Outcome)}
    (ho : Clashes (operand inside) fun _ form => Derives form .operand room) :
    Clashes (block inside) fun _ => SpacedBlock room := by
  intro r form parts rest ha ⟨gap, body, hg, eb, hd⟩ e
  subst eb
  obtain ⟨front, back, s, eb, hf, hd', es, hform, hblock⟩ :=
    block_eq_operand (r := r) inside hg hd (by simpa using e)
  have ha : ¬s.Admits form := by rwa [Admits, hform]
  obtain ⟨t, ht, et⟩ := ho s form back rest ha hd' es
  refine ⟨t, by rw [hblock, ht], ?_⟩
  rw [beforeLeaf_blanks, ← eb, beforeLeaf_append hf, ← e, ← eb]
  simp [et, ← es]

theorem clashes_sequence {read : Reading → Outcome}
    (hr : Clashes read fun _ => SpacedBlock room) :
    Clashes (sequence read) (SpacedExpression room) := by
  intro r form parts rest ha ⟨gap, body, gap', hg, hg', eb, hd, _⟩ e
  subst eb
  have ⟨first, others, ef, hfirst⟩ := hd.exists_block
  have ⟨s, hs, es⟩ := hr r form (Scan.blanks gap ++ first) (textOf others ++ (gap' ++ rest)) ha
    ⟨gap, first, hg, rfl, hfirst⟩ (by simp [← e, ← ef])
  have ⟨part, hm, hp⟩ := hfirst.exists_startsLeaf
  refine ⟨s, by rw [sequence, hs], ?_⟩
  rw [← es, beforeLeaf_blanks, beforeLeaf_blanks, ← ef, List.append_assoc,
    beforeLeaf_append_of_mem hm hp]

-- By induction on the number of groups that may be opened inside each other.
theorem clashes_expression (room : Nat) : Clashes (expression room) (SpacedExpression room) := by
  induction room using Nat.strongRecOn
  case ind room hi =>
    rw [expression_eq_sequence]
    exact clashes_sequence (clashes_block (clashes_operand fun n _ => hi n (by omega)))

variable {form' : Form} {connective : Connective} {word text gap gap' : List Char}

-- An expression goes on behind a connective as if it started there.
theorem exists_expression_eq (ha : r.Admits form)
    (hd : Derives form (.expression r.isGrouped) room parts (gap ++ (word ++ (gap' ++ text))))
    (hg : IsBlanks gap) (joins : connective ≠ .not) (spells : Spells connective word)
    (hg' : IsBlanks gap') (opens : ∃ c tail, text = c :: tail ∧ Opens c)
    (whole : ∀ c ∈ (gap' ++ text).head?, endsWord c)
    (e : textOf parts ++ (gap ++ (word ++ (gap' ++ text))) = r.rest) :
    ∃ s : Reading, s.rest = text ∧ s.progress.form = some form ∧ s.isGrouped = r.isGrouped ∧
      expression room r = expression room s := by
  have hnext := next_of_joining (r := r.past form (Scan.blanks [] ++ parts) _) hg joins spells hg'
    opens whole rest_past.symm
  rw [expression_eq_sequence, sequence_eq_continued hd (reads_nested_block room) rfl ha
    isBlanks_nil e, continued_of_next_more hnext]
  refine ⟨_, ?rest, ?form, ?grouped, rfl⟩
  case rest    => rfl
  case form    => rfl
  case grouped => simp

-- The first sentence is read as it is read alone. The second one has its first leaf block where the
-- reading stops.
theorem ofText_of_clash (h : Sentence form room parts) (h' : Sentence form' room others)
    (ne : form ≠ form') (joins : connective ≠ .not) (spells : Spells connective word) :
    ∃ s, ofText room (textOf parts ++ ' ' :: (word ++ ' ' :: textOf others)) =
        .error ⟨.mixedExpressionTypes, s⟩ ∧
      textOf (beforeLeaf others) ++ s.rest = textOf others := by
  cases h
  case mk gap gap₁ parts hg hg₁ hd =>
    cases h'
    case mk gap₂ gap' others hg₂ hg' hd' =>
      have blank : IsBlanks [' '] := isBlanks_singleton (by decide)
      have hd : Derives form (.expression false) room parts
          ((gap₁ ++ [' ']) ++ (word ++ (([' '] ++ gap₂) ++ (textOf others ++ gap')))) := by
        simpa using hd.replace (replaces_of_word hg₁ spells)
      generalize ht : textOf (Scan.blanks gap ++ (parts ++ Scan.blanks gap₁)) ++
        ' ' :: (word ++ ' ' :: textOf (Scan.blanks gap₂ ++ (others ++ Scan.blanks gap'))) = text
      have e : gap ++ (textOf parts ++ ((gap₁ ++ [' ']) ++ (word ++
          (([' '] ++ gap₂) ++ (textOf others ++ gap'))))) = text := by simp [← ht]
      have hskip := skipBlanks_eq_along (r := start text) hg
        (fun c hc => (hd.head?_opens c hc).not_blank) e
      obtain ⟨s, hr, hf, hgrouped, hs⟩ := exists_expression_eq
        (r := (start text).along (Scan.blanks gap) _) (admits_start text) hd (hg₁.append blank)
        joins spells (blank.append hg₂) hd'.exists_opens (by rintro _ ⟨⟩; decide) rest_along.symm
      have outer : SpacedExpression room false form' (others ++ Scan.blanks gap') [] :=
        ⟨[], others, gap', isBlanks_nil, hg', rfl, by simpa using hd', by simp [Stops]⟩
      have spaced : SpacedExpression room s.isGrouped form' (others ++ Scan.blanks gap') [] := by
        rwa [hgrouped]
      have refused : ¬s.Admits form' := by simpa [Admits, hf] using ne
      obtain ⟨t, ht, et⟩ := clashes_expression room s form' _ [] refused spaced (by simp [hr])
      refine ⟨t, ?_, ?_⟩
      · rw [ofText, hskip, hs, ht]
        rfl
      · rw [beforeLeaf_blanks, textOf_append, List.append_assoc, et, hr]
        simp

end Reading

@[simp] theorem Reading.progress_finished :
    (Reading.finished form parts).progress = { form := some form, latest := .block } := rfl

theorem Grammar.Sentence.validate (h : Sentence form room parts) :
    validate room (textOf parts) = .ok { form := some form, latest := .block } := by
  rw [BoolSearch.validate, Reading.ofText_eq_ok_iff.mpr ⟨form, parts, h, rfl, rfl⟩]
  simp

theorem validate_of_clash {form' : Form} {connective : Connective} {word : List Char}
    (h : Sentence form room parts) (h' : Sentence form' room others) (ne : form ≠ form')
    (joins : connective ≠ .not) (spells : Spells connective word) :
    validate room (textOf parts ++ ' ' :: (word ++ ' ' :: textOf others)) =
      .error ⟨.mixedExpressionTypes, byteLength (textOf parts ++ ' ' :: (word ++ [' '])) +
        byteLength (textOf (beforeLeaf others))⟩ := by
  have ⟨s, hs, es⟩ := Reading.ofText_of_clash h h' ne joins spells
  rw [validate, hs]
  simp only [Rejection.violation, ← es, byteLength_append, byteLength_cons, byteLength_nil]
  congr 2
  omega

-- Accepted texts can be put in parentheses, negated and joined, as long as their values have the
-- same form. If they do not, the first leaf block of the second text is refused.
theorem validate_composes {maxDepth : Nat} {text text' : List Char} {r r' : Reading}
    (h : Reading.ofText maxDepth text = .ok r) (h' : Reading.ofText maxDepth text' = .ok r') :
    validate (maxDepth + 1) ('(' :: (text ++ [')'])) = .ok r.progress ∧
    (∀ word gap, Spells .not word → IsBlanks gap →
      validate (maxDepth + 1) (word ++ (gap ++ '(' :: (text ++ [')']))) = .ok r.progress) ∧
    ∀ connective word, connective ≠ .not → Spells connective word →
      (r.progress.form = r'.progress.form →
        validate maxDepth (text ++ ' ' :: (word ++ ' ' :: text')) = .ok r.progress) ∧
      (r.progress.form ≠ r'.progress.form →
        validate maxDepth (text ++ ' ' :: (word ++ ' ' :: text')) =
          .error ⟨.mixedExpressionTypes, byteLength (text ++ ' ' :: (word ++ [' '])) +
            byteLength (textOf (beforeLeaf r'.lexemes))⟩) := by
  have ⟨form, parts, hs, e, er⟩ := Reading.ofText_eq_ok_iff.mp h
  have ⟨form', others, hs', e', er'⟩ := Reading.ofText_eq_ok_iff.mp h'
  subst e er e' er'
  simp only [Reading.progress_finished, Reading.lexemes_finished]
  refine ⟨?_, ?_, ?_⟩
  · simpa [inParens] using hs.group.validate
  · intro word gap spells hg
    simpa [inParens] using (hs.negation spells hg).validate
  · intro connective word joins spells
    constructor
    · intro same
      cases same
      simpa using (hs.join hs' joins spells).validate
    · intro other
      exact validate_of_clash hs hs' (fun same => other (by rw [same])) joins spells

-- Behind a plain text, a keyed one is refused behind its `NOT`, blank and parenthesis.
theorem validate_composes_of_mixed :
    validate 1 "a or not (bc=d)".toList = .error ⟨.mixedExpressionTypes, 10⟩ := by
  have plain : Reading.ofText 1 "a".toList =
      .ok (Reading.finished .plain [⟨.bare, "a".toList⟩]) := by cbv
  have keyed : Reading.ofText 1 "not (bc=d)".toList =
      .ok (Reading.finished .keyed [⟨.connective .not, "not".toList⟩, ⟨.blank, [' ']⟩,
        ⟨.paren .opening, ['(']⟩, ⟨.key, "bc".toList⟩, ⟨.equals, ['=']⟩, ⟨.bare, ['d']⟩,
        ⟨.paren .closing, [')']⟩]) := by cbv
  obtain ⟨_, mixed⟩ := (validate_composes plain keyed).2.2 .or "or".toList (by decide) rfl
  exact mixed (by decide)

end BoolSearch
