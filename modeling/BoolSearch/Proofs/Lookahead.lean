import BoolSearch.Proofs.Grammar

namespace BoolSearch

theorem takeWhile_run {p : Char → Bool} {run rest : List Char} (h : ∀ c ∈ run, p c)
    (hr : ∀ c ∈ rest.head?, p c = false) : (run ++ rest).takeWhile p = run := by
  rw [List.takeWhile_append_of_pos h]
  cases rest
  case nil         => simp
  case cons c rest => simp [hr c rfl]

theorem dropWhile_run {p : Char → Bool} {run rest : List Char} (h : ∀ c ∈ run, p c)
    (hr : ∀ c ∈ rest.head?, p c = false) : (run ++ rest).dropWhile p = rest := by
  rw [List.dropWhile_append_of_pos h]
  cases rest
  case nil         => rfl
  case cons c rest => simp [hr c rfl]

theorem of_mem_takeWhile {p : Char → Bool} {text : List Char} (h : c ∈ text.takeWhile p) : p c :=
  List.all_eq_true.mp List.all_takeWhile c h

theorem head?_dropWhile_eq_false {p : Char → Bool} {text : List Char} :
    ∀ c ∈ (text.dropWhile p).head?, p c = false := by
  intro c hc
  have := List.head?_dropWhile_not p text
  rw [Option.mem_def.mp hc] at this
  simpa using this

theorem head?_append_of_ne_nil {text rest : List Char} (h : text ≠ []) :
    (text ++ rest).head? = text.head? := by
  cases text
  case nil  => contradiction
  case cons => rfl

theorem isLetter_iff {c : Char} :
    isLetter c ↔ (65 ≤ c.toNat ∧ c.toNat ≤ 90) ∨ (97 ≤ c.toNat ∧ c.toNat ≤ 122) := by
  simp only [isLetter, Bool.or_eq_true, Bool.and_eq_true, decide_eq_true_eq, Char.le_def,
    UInt32.le_iff_toNat_le]
  rfl

theorem isLetter_of_isLetter_toLower {c : Char} (h : isLetter c.toLower) : isLetter c := by
  by_cases hu : c.val ≥ 'A'.val ∧ c.val ≤ 'Z'.val
  case pos =>
    have ⟨hl, hu⟩ := hu
    rw [ge_iff_le, UInt32.le_iff_toNat_le] at hl
    rw [UInt32.le_iff_toNat_le] at hu
    exact isLetter_iff.mpr (.inl ⟨hl, hu⟩)
  case neg =>
    have e : c.toLower = c := dif_neg hu
    rwa [e] at h

theorem isParen_of_isLetter {c : Char} (h : isLetter c) : isParen c = false := by
  have hn := isLetter_iff.mp h
  simp only [isParen, Bool.or_eq_false_iff, beq_eq_false_iff_ne]
  constructor <;> rintro rfl <;> simp at hn

theorem isQuote_of_isLetter {c : Char} (h : isLetter c) : isQuote c = false := by
  have hn := isLetter_iff.mp h
  rw [← Bool.not_eq_true, isQuote_iff]
  rintro (rfl | rfl | rfl | rfl) <;> simp at hn

theorem endsWord_of_isLetter {c : Char} (h : isLetter c) : endsWord c = false := by
  simp [endsWord, isBlank_of_isLetter h, isParen_of_isLetter h]

theorem isBare_of_isLetter {c : Char} (h : isLetter c) : isBare c := by
  have hn := isLetter_iff.mp h
  have hs : bareStops.contains c = false := by
    simp only [bareStops, List.contains_eq_mem, decide_eq_false_iff_not, List.mem_cons]
    rintro (rfl | rfl | rfl | rfl | hm) <;> first | cases hm | simp at hn
  rw [isBare, isBlank_of_isLetter h, hs]
  rfl

theorem isLetter_of_isBlank {c : Char} (h : isBlank c) : isLetter c = false :=
  eq_false_of_ne_true fun hl => absurd h (ne_true_of_eq_false (isBlank_of_isLetter hl))

theorem isLetter_of_isQuote {c : Char} (h : isQuote c) : isLetter c = false :=
  eq_false_of_ne_true fun hl => absurd h (ne_true_of_eq_false (isQuote_of_isLetter hl))

theorem isLetter_of_not_isBare {c : Char} (h : isBare c = false) : isLetter c = false :=
  eq_false_of_ne_true fun hl => absurd (isBare_of_isLetter hl) (ne_true_of_eq_false h)

theorem isBare_of_isQuote {c : Char} (h : isQuote c) : isBare c := by
  obtain rfl | rfl | rfl | rfl := isQuote_iff.mp h <;> decide

theorem isBlank_of_isQuote {c : Char} (h : isQuote c) : isBlank c = false := by
  obtain rfl | rfl | rfl | rfl := isQuote_iff.mp h <;> decide

theorem isQuote_of_isBlank {c : Char} (h : isBlank c) : isQuote c = false :=
  eq_false_of_ne_true fun hq => absurd h (ne_true_of_eq_false (isBlank_of_isQuote hq))

theorem isQuote_of_not_isBare {c : Char} (h : isBare c = false) : isQuote c = false :=
  eq_false_of_ne_true fun hq => absurd (isBare_of_isQuote hq) (ne_true_of_eq_false h)

theorem isBare_of_endsWord {c : Char} (h : endsWord c) : isBare c = false := by
  cases Bool.or_eq_true_iff.mp h
  case inl hb => simp [isBare, hb]
  case inr hp =>
    rw [isParen, Bool.or_eq_true, beq_iff_eq, beq_iff_eq] at hp
    obtain rfl | rfl := hp <;> decide

theorem isOperandStart_of_isLetter {c : Char} (h : isLetter c) : isOperandStart c := by
  simp [isOperandStart, h]

namespace Grammar

variable {connective other : Connective} {word text rest : List Char}

theorem isLetter_of_spells (h : Spells connective word) : ∀ c ∈ word, isLetter c := by
  intro c hc
  apply isLetter_of_isLetter_toLower
  have hm : c.toLower ∈ connective.spelling.map Char.toLower := h ▸ List.mem_map_of_mem hc
  have all : (connective.spelling.map Char.toLower).all isLetter := by
    cases connective <;> decide
  exact List.all_eq_true.mp all _ hm

theorem length_of_spells (h : Spells connective word) : word.length = connective.width := by
  simpa [Connective.width] using congrArg List.length h

theorem ne_nil_of_spells (h : Spells connective word) : word ≠ [] := by
  have := width_pos connective
  rintro rfl
  rw [← length_of_spells h] at this
  cases this

theorem take_width (h : Spells connective word) : (word ++ rest).take connective.width = word := by
  rw [← length_of_spells h, List.take_left]

theorem drop_width (h : Spells connective word) : (word ++ rest).drop connective.width = rest := by
  rw [← length_of_spells h, List.drop_left]

theorem head?_of_begins (h : Begins connective text) :
    text.head?.map Char.toLower = (connective.spelling.map Char.toLower).head? := by
  obtain ⟨word, rest, rfl, h⟩ := h
  rw [head?_append_of_ne_nil (ne_nil_of_spells h), ← List.head?_map, h]

-- No text starts with two of the connectives.
theorem Begins.unique (h : Begins connective text) (h' : Begins other text) :
    connective = other := by
  have e := (head?_of_begins h).symm.trans (head?_of_begins h')
  cases connective <;> cases other <;> first | rfl | exact absurd e (by decide)

theorem isLetter_of_begins (h : Begins connective text) : ∀ c ∈ text.head?, isLetter c := by
  obtain ⟨word, rest, rfl, h⟩ := h
  intro c hc
  rw [head?_append_of_ne_nil (ne_nil_of_spells h)] at hc
  exact isLetter_of_spells h c (List.mem_of_mem_head? hc)

theorem startsWith_iff :
    startsWith word text ↔ ∃ front rest, front ++ rest = text ∧
      front.map Char.toLower = word.map Char.toLower := by
  fun_induction startsWith word text
  case case1 text => simp
  case case2 => simp
  case case3 w word c text hi =>
    rw [Bool.and_eq_true, beq_iff_eq, hi]
    constructor
    case mp =>
      rintro ⟨hw, front, rest, rfl, h⟩
      exact ⟨c :: front, rest, rfl, by simp [hw, h]⟩
    case mpr =>
      rintro ⟨front, rest, e, h⟩
      cases front
      case nil => cases h
      case cons d front =>
        simp only [List.cons_append, List.cons.injEq, List.map_cons] at e h
        exact ⟨by rw [← e.1, h.1], front, rest, e.2, h.2⟩

theorem keyword?_eq_some_iff : keyword? text = some connective ↔ Begins connective text := by
  constructor
  case mp => exact fun h => startsWith_iff.mp (startsWith_of_keyword? h)
  case mpr =>
    intro h
    cases e : keyword? text
    case none =>
      have hn := List.find?_eq_none.mp e connective (by cases connective <;> simp)
      exact absurd (startsWith_iff.mpr h) hn
    case some other =>
      have ho : Begins other text := startsWith_iff.mp (startsWith_of_keyword? e)
      rw [ho.unique h]

theorem keyword?_eq_none_iff : keyword? text = none ↔ ∀ connective, ¬Begins connective text := by
  simp [Option.eq_none_iff_forall_ne_some, keyword?_eq_some_iff]

theorem joining?_eq_some_iff :
    joining? text = some connective ↔ connective ≠ .not ∧ Begins connective text := by
  simp [joining?, Option.filter_eq_some_iff, keyword?_eq_some_iff, and_comm]

theorem joining?_eq_none_iff :
    joining? text = none ↔ ∀ connective, connective ≠ .not → ¬Begins connective text := by
  simp [Option.eq_none_iff_forall_ne_some, joining?_eq_some_iff]

theorem Begins.isOperandStart (h : Begins connective text) :
    ∃ c ∈ text.head?, isOperandStart c := by
  obtain ⟨word, rest, rfl, hs⟩ := h
  obtain ⟨c, tail, rfl⟩ := List.exists_cons_of_ne_nil (ne_nil_of_spells hs)
  exact ⟨c, rfl, isOperandStart_of_isLetter (isLetter_of_spells hs c (by simp))⟩

theorem joining?_of_apart (apart : ∀ c ∈ text.head?, isOperandStart c = false) :
    joining? text = none := by
  rw [joining?_eq_none_iff]
  intro connective _ begins
  have ⟨c, hc, start⟩ := begins.isOperandStart
  exact absurd start (ne_true_of_eq_false (apart c hc))

theorem standalone?_eq_some_iff :
    standalone? text = some connective ↔ connective ≠ .not ∧ ∃ word rest,
      Spells connective word ∧ word ++ rest = text ∧ ∀ c ∈ rest.head?, endsWord c ∨ isQuote c := by
  simp only [standalone?, Option.filter_eq_some_iff, joining?_eq_some_iff, and_assoc]
  refine and_congr_right fun _ => ?_
  constructor
  case mp =>
    rintro ⟨⟨word, rest, rfl, h⟩, stop⟩
    rw [drop_width h, Option.all_eq_true] at stop
    exact ⟨word, rest, h, rfl, fun c hc => by simpa using stop c hc⟩
  case mpr =>
    rintro ⟨word, rest, h, rfl, stop⟩
    refine ⟨⟨word, rest, rfl, h⟩, ?_⟩
    rw [drop_width h, Option.all_eq_true]
    exact fun c hc => by simpa using stop c hc

theorem standalone?_eq_none_iff : standalone? text = none ↔ ¬StandsAlone text := by
  simp [Option.eq_none_iff_forall_ne_some, standalone?_eq_some_iff, StandsAlone]

def BeginsJoining (text : List Char) : Prop :=
  ∃ connective word rest, connective ≠ .not ∧ Spells connective word ∧ word ++ rest = text ∧
    ∀ c ∈ rest.head?, endsWord c

theorem firstWord_append (hw : word ≠ []) (h : ∀ c ∈ word, endsWord c = false)
    (hr : ∀ c ∈ rest.head?, endsWord c) : firstWord (word ++ rest) = word := by
  have run : (word ++ rest).takeWhile (!endsWord ·) = word :=
    takeWhile_run (fun c hc => by simp [h c hc]) (fun c hc => by simp [hr c hc])
  cases word
  case nil => contradiction
  case cons c word =>
    have hp : isParen c = false := (Bool.or_eq_false_iff.mp (h c (by simp))).2
    rw [List.cons_append, firstWord, hp]
    exact run

-- A parenthesis is the only word that does not end in front of a blank or a parenthesis.
theorem firstWord_cases (text : List Char) :
    (∃ c rest, isParen c ∧ firstWord text = [c] ∧ c :: rest = text) ∨
    (∃ rest, firstWord text ++ rest = text ∧ ∀ c ∈ rest.head?, endsWord c) := by
  cases text
  case nil => exact .inr ⟨[], rfl, by simp⟩
  case cons c text =>
    cases hp : isParen c
    case true => exact .inl ⟨c, text, hp, by simp [firstWord, hp], rfl⟩
    case false =>
      refine .inr ⟨(c :: text).dropWhile (!endsWord ·), by simp [firstWord, hp], ?_⟩
      intro d hd
      simpa using head?_dropWhile_eq_false d hd

theorem spells_joining_iff : (∃ connective, connective ≠ .not ∧ Spells connective word) ↔
    word.map Char.toLower = ['a', 'n', 'd'] ∨ word.map Char.toLower = ['o', 'r'] := by
  constructor
  case mp =>
    rintro ⟨connective, hn, h⟩
    cases connective
    case and => exact .inl h
    case or  => exact .inr h
    case not => contradiction
  case mpr =>
    rintro (h | h)
    · exact ⟨.and, by simp, h⟩
    · exact ⟨.or, by simp, h⟩

theorem exists_firstWord_append (text : List Char) : ∃ rest, firstWord text ++ rest = text := by
  obtain ⟨c, rest, _, hw, rfl⟩ | ⟨rest, e, _⟩ := firstWord_cases text
  case inl => exact ⟨rest, by rw [hw]; rfl⟩
  case inr => exact ⟨rest, e⟩

-- The first word is the connective where the connective ends as a word.
theorem spells_firstWord_iff : Spells connective (firstWord text) ↔
    ∃ word rest, Spells connective word ∧ word ++ rest = text ∧ ∀ c ∈ rest.head?, endsWord c := by
  constructor
  case mp =>
    intro h
    obtain ⟨c, rest, hp, hw, _⟩ | ⟨rest, e, stop⟩ := firstWord_cases text
    case inl =>
      have hl := isLetter_of_spells h c (by simp [hw])
      exact absurd hp (ne_true_of_eq_false (isParen_of_isLetter hl))
    case inr => exact ⟨_, rest, h, e, stop⟩
  case mpr =>
    rintro ⟨word, rest, h, rfl, stop⟩
    have hl := fun c hc => endsWord_of_isLetter (isLetter_of_spells h c hc)
    rwa [firstWord_append (ne_nil_of_spells h) hl stop]

theorem nextJoins_iff_spells :
    nextJoins text ↔ ∃ connective, connective ≠ .not ∧ Spells connective (firstWord text) := by
  rw [spells_joining_iff, nextJoins, Bool.or_eq_true, beq_iff_eq, beq_iff_eq]

theorem nextJoins_iff : nextJoins text ↔ BeginsJoining text := by
  simp only [nextJoins_iff_spells, spells_firstWord_iff, BeginsJoining, exists_and_left]

theorem isBlanks_nil : IsBlanks [] :=
  fun _ hc => nomatch hc

theorem IsBlanks.append {gap gap' : List Char} (h : IsBlanks gap) (h' : IsBlanks gap') :
    IsBlanks (gap ++ gap') := by
  intro c hc
  cases List.mem_append.mp hc
  case inl hc => exact h c hc
  case inr hc => exact h' c hc

theorem isBlanks_takeWhile (text : List Char) : IsBlanks (text.takeWhile isBlank) :=
  fun _ => of_mem_takeWhile

theorem IsBlanks.eq_nil {gap rest : List Char} (h : IsBlanks gap)
    (hr : ∀ c ∈ (gap ++ rest).head?, isBlank c = false) : gap = [] := by
  cases gap
  case nil => rfl
  case cons c gap => exact absurd (h c (by simp)) (ne_true_of_eq_false (hr c rfl))

theorem skipBlanks_append {gap : List Char} (hg : IsBlanks gap)
    (hr : ∀ c ∈ rest.head?, isBlank c = false) : skipBlanks (gap ++ rest) = rest :=
  dropWhile_run hg hr

theorem head?_skipBlanks (text : List Char) : ∀ c ∈ (skipBlanks text).head?, isBlank c = false :=
  head?_dropWhile_eq_false

-- Behind a key there is no further letter in front of the equals sign.
theorem isLetter_head?_of_isBlanks {gap : List Char} (hg : IsBlanks gap) :
    ∀ c ∈ (gap ++ '=' :: rest).head?, isLetter c = false := by
  cases gap
  case nil => simp [isLetter]
  case cons c gap =>
    rintro _ ⟨⟩
    exact isLetter_of_isBlank (hg c (by simp))

theorem key?_eq_some_iff {head : KeyHead} :
    key? text = some head ↔ IsKeyName head.name ∧ IsBlanks head.blanks ∧
      head.name ++ head.blanks ++ '=' :: head.rest = text := by
  constructor
  case mp =>
    intro h
    have all := append_of_key? h
    simp only [key?] at h
    split at h
    case isTrue => cases h
    case isFalse two =>
      split at h
      case h_1 rest e =>
        cases h
        exact ⟨⟨Nat.le_of_not_lt two, fun _ => of_mem_takeWhile⟩, fun _ => of_mem_takeWhile, all⟩
      case h_2 => cases h
  case mpr =>
    obtain ⟨name, blanks, rest⟩ := head
    rintro ⟨⟨two, letters⟩, hb, rfl⟩
    have stop : ∀ c ∈ (blanks ++ '=' :: rest).head?, isLetter c = false :=
      isLetter_head?_of_isBlanks hb
    have stop' : ∀ c ∈ ('=' :: rest).head?, isBlank c = false := by
      simp [isBlank, blankRanges, inRanges]
    rw [key?, List.append_assoc, takeWhile_run letters stop, dropWhile_run letters stop,
      takeWhile_run hb stop', skipBlanks_append hb stop']
    simp [Nat.not_lt.mpr two]

theorem key?_eq_none_iff : key? text = none ↔ ¬BeginsKeyed text := by
  rw [Option.eq_none_iff_forall_ne_some]
  constructor
  case mp =>
    rintro h ⟨name, gap, rest, hn, hg, e⟩
    exact h ⟨name, gap, rest⟩ (key?_eq_some_iff.mpr ⟨hn, hg, e⟩)
  case mpr =>
    intro h head hk
    have ⟨hn, hg, e⟩ := key?_eq_some_iff.mp hk
    exact h ⟨head.name, head.blanks, head.rest, hn, hg, e⟩

theorem closing?_escaped (opening c : Char) (text : List Char) :
    closing? opening true (c :: text) =
      (closing? opening false text).map fun (inner, rest) => (c :: inner, rest) := rfl

theorem closing?_backslash (opening : Char) (text : List Char) :
    closing? opening false ('\\' :: text) =
      (closing? opening true text).map fun (inner, rest) => ('\\' :: inner, rest) := by
  simp [closing?, closes_backslash]

theorem closing?_of_closes {opening c : Char} (h : closes opening c) :
    closing? opening false (c :: text) = some ([c], text) := by
  simp [closing?, h]

theorem closing?_inner {opening c : Char} (hc : c ≠ '\\') (h : closes opening c = false) :
    closing? opening false (c :: text) =
      (closing? opening false text).map fun (inner, rest) => (c :: inner, rest) := by
  have hb : (c == '\\') = false := beq_eq_false_iff_ne.mpr hc
  simp [closing?, h, hb]

theorem closing?_of_enclosed {opening : Char} (h : Enclosed opening word) :
    closing? opening false (word ++ rest) = some (word, rest) := by
  induction h
  case close hc => exact closing?_of_closes hc
  case escape hi =>
    rw [List.cons_append, List.cons_append, closing?_backslash, closing?_escaped, hi]
    rfl
  case inner hp hc _ hi =>
    rw [List.cons_append, closing?_inner hp hc, hi]
    rfl

-- By induction on the text. In front of a character that a backslash takes along, only what
-- follows that character is enclosed.
theorem enclosed_of_closing? {opening : Char} {escaped : Bool} {inner : List Char}
    (h : closing? opening escaped text = some (inner, rest)) :
    if escaped then ∃ c tail, inner = c :: tail ∧ Enclosed opening tail
    else Enclosed opening inner := by
  induction text generalizing escaped inner
  case nil => cases h
  case cons c text hi =>
    cases escaped
    case true =>
      rw [closing?_escaped] at h
      have ⟨⟨tail, _⟩, ht, e⟩ := Option.map_eq_some_iff.mp h
      cases e
      exact ⟨c, tail, rfl, hi ht⟩
    case false =>
      by_cases hb : c = '\\'
      case pos =>
        subst hb
        rw [closing?_backslash] at h
        have ⟨⟨_, _⟩, ht, e⟩ := Option.map_eq_some_iff.mp h
        cases e
        obtain ⟨d, tail, rfl, hd⟩ := hi ht
        exact .escape hd
      case neg =>
        cases hc : closes opening c
        case true =>
          rw [closing?_of_closes hc] at h
          cases h
          exact .close hc
        case false =>
          rw [closing?_inner hb hc] at h
          have ⟨_, ht, e⟩ := Option.map_eq_some_iff.mp h
          cases e
          exact .inner hb hc (hi ht)

theorem quoted?_eq_some_iff :
    quoted? text = some (word, rest) ↔ IsQuoted word ∧ word ++ rest = text := by
  constructor
  case mp =>
    intro h
    refine ⟨?_, append_of_quoted? h⟩
    cases text
    case nil => cases h
    case cons c text =>
      rw [quoted?] at h
      split at h
      case isTrue hq =>
        obtain ⟨_, hc, e⟩ := Option.map_eq_some_iff.mp h
        cases e
        exact .mk hq (enclosed_of_closing? hc)
      case isFalse => cases h
  case mpr =>
    rintro ⟨⟨hq, tail⟩, rfl⟩
    rw [List.cons_append, quoted?, if_pos hq, closing?_of_enclosed tail]
    rfl

end Grammar

end BoolSearch
