import BoolSearch.Proofs.Stalling

namespace BoolSearch

open Grammar

def EndsInWordKey (parts : List Lexeme) : Prop :=
  ∃ others name, IsJoiningWord name ∧ others ++ [⟨.key, name⟩] = parts

theorem EndsInWordKey.of_suffix {parts whole : List Lexeme} (h : EndsInWordKey parts)
    (suffix : parts <:+ whole) : EndsInWordKey whole := by
  obtain ⟨others, name, joining, rfl⟩ := h
  obtain ⟨front, rfl⟩ := suffix
  exact ⟨front ++ others, name, joining, List.append_assoc ..⟩

namespace Grammar

variable {form : Form} {phrase : Phrase} {room : Nat} {front back parts others : List Lexeme}
  {part : Lexeme} {gap gap' text rest : List Char}

-- A boundary between the parts of a gap and what follows it lies in the gap, so that more blanks
-- there make a wider one, or behind it.
theorem cases_of_gap_append (hg' : IsBlanks gap') (hg : IsBlanks gap) (ne : gap ≠ [])
    (e : Scan.blanks gap' ++ others = front ++ back) :
    (∃ wider, IsBlanks wider ∧ wider ≠ [] ∧
      Scan.blanks wider ++ others = front ++ (Scan.blanks gap ++ back)) ∨
    ∃ front', front' ≠ [] ∧ Scan.blanks gap' ++ front' = front ∧ others = front' ++ back := by
  have wider {before after : List Char} (h : IsBlanks (before ++ after)) :
      IsBlanks (before ++ (gap ++ after)) := by
    intro c hc
    simp only [List.mem_append] at hc
    obtain hc | hc | hc := hc
    case inl     => exact h c (by simp [hc])
    case inr.inl => exact hg c hc
    case inr.inr => exact h c (by simp [hc])
  obtain ⟨ahead, ef, eo⟩ | ⟨ahead, eg, eb⟩ := List.append_eq_append_iff.mp e
  case inl =>
    subst ef eo
    cases ahead
    case cons => exact .inr ⟨_, List.cons_ne_nil _ _, rfl, rfl⟩
    case nil  => exact .inl ⟨gap' ++ gap, hg'.append hg, by simp [ne], by simp [Scan.blanks]⟩
  case inr =>
    obtain ⟨before, after, rfl, rfl, rfl⟩ := List.map_eq_append_iff.mp eg
    exact .inl ⟨before ++ (gap ++ after), wider hg', by simp [ne], by simp [eb, Scan.blanks]⟩

theorem IsLeaf.insert (h : IsLeaf form parts rest) (hf : front ≠ []) (hg : IsBlanks gap)
    (ne : gap ≠ []) (e : parts = front ++ part :: back) :
    IsLeaf form (front ++ (Scan.blanks gap ++ part :: back)) rest := by
  cases front
  case nil => contradiction
  case cons first front =>
    cases h
    case plain => simp at e
    case keyed name gap₁ gap₂ value hn hg₁ hg₂ hv =>
      simp only [List.cons_append, List.append_assoc, List.cons.injEq] at e
      obtain ⟨rfl, e⟩ := e
      obtain ⟨wider, hw, _, e₁⟩ | ⟨front₁, hf₁, rfl, e₁⟩ := cases_of_gap_append hg₁ hg ne e
      case inl => simpa [← e₁] using IsLeaf.keyed hn hw hg₂ hv
      case inr =>
        cases front₁
        case nil => contradiction
        case cons second front₁ =>
          obtain ⟨rfl, e₂⟩ := List.cons.inj e₁
          obtain ⟨wider, hw, _, e₃⟩ | ⟨front₂, hf₂, rfl, e₃⟩ := cases_of_gap_append hg₂ hg ne e₂
          case inl => simpa [← e₃] using IsLeaf.keyed hn hg₁ hw hv
          case inr => cases front₂ <;> simp at hf₂ e₃

theorem Derives.front_cases (h : Derives form .operand room parts rest) (hf : front ≠ [])
    (e : parts = front ++ part :: back) :
    (∃ c ∈ textOf front, isLetter c = false) ∨ ∃ name, IsKeyName name ∧ front = [⟨.key, name⟩] := by
  cases front
  case nil => contradiction
  case cons first front =>
    cases h
    case group =>
      obtain ⟨rfl, _⟩ := List.cons.inj e
      exact .inl ⟨'(', by simp, by decide⟩
    case leaf hl =>
      cases hl
      case plain => simp at e
      case keyed name gap _ value hn hg _ _ =>
        simp only [List.cons_append, List.append_assoc, List.cons.injEq] at e
        obtain ⟨rfl, e⟩ := e
        cases front
        case nil => exact .inr ⟨name, hn, rfl⟩
        case cons second front =>
          left
          cases gap
          case nil =>
            obtain ⟨rfl, _⟩ := List.cons.inj e
            exact ⟨'=', by simp, by decide⟩
          case cons c gap =>
            obtain ⟨rfl, _⟩ := List.cons.inj e
            exact ⟨c, by simp, isLetter_of_isBlank (hg c (by simp))⟩

theorem IsBlanks.not_letter_append (hg : IsBlanks gap) (ne : gap ≠ []) (rest : List Char) :
    ∀ c ∈ (gap ++ rest).head?, isLetter c = false := by
  rw [head?_append_of_ne_nil ne]
  exact hg.not_letter

theorem textOf_insert : textOf (front ++ (Scan.blanks gap ++ back)) ++ rest =
    textOf front ++ (gap ++ (textOf back ++ rest)) := by
  simp

theorem not_begins_insert {connective : Connective} (hg : IsBlanks gap) (ne : gap ≠ [])
    (h : ¬Begins connective (textOf (front ++ back) ++ rest)) :
    ¬Begins connective (textOf (front ++ (Scan.blanks gap ++ back)) ++ rest) := by
  rw [textOf_append, List.append_assoc] at h
  rw [textOf_insert]
  exact fun begins => h (Begins.append
    (begins_of_begins_append (hg.not_letter_append ne _) begins) _)

-- A key in front of a blank stands alone if it is a connective as a whole.
theorem not_standsAlone_of_isKeyName {name : List Char} (hn : IsKeyName name) (hg : IsBlanks gap)
    (ne : gap ≠ []) (unworded : ¬IsJoiningWord name) :
    ¬StandsAlone (name ++ (gap ++ rest)) := by
  rintro ⟨connective, word, tail, joins, spells, e, stop⟩
  obtain ⟨ahead, rfl⟩ :=
    exists_append_of_run (isLetter_of_spells spells) (hg.not_letter_append ne rest) e
  rw [List.append_assoc, List.append_cancel_left_eq] at e
  cases ahead
  case nil => exact unworded ⟨connective, joins, by simpa using spells⟩
  case cons c ahead =>
    have letter : isLetter c := hn.2 c (by simp)
    cases stop c (by simp [e])
    case inl ends  => exact absurd ends (ne_true_of_eq_false (endsWord_of_isLetter letter))
    case inr quote => exact absurd letter (ne_true_of_eq_false (isLetter_of_isQuote quote))

theorem Derives.not_standsAlone_insert (h : Derives form .operand room parts rest)
    (hf : front ≠ []) (hg : IsBlanks gap) (ne : gap ≠ []) (free : ¬EndsInWordKey front)
    (e : parts = front ++ part :: back) (unjoined : ¬StandsAlone (textOf parts ++ rest)) :
    ¬StandsAlone (textOf (front ++ (Scan.blanks gap ++ part :: back)) ++ rest) := by
  rw [e, textOf_append, List.append_assoc] at unjoined
  rw [textOf_insert]
  obtain letters | ⟨name, hn, rfl⟩ := h.front_cases hf e
  case inl => exact mt (StandsAlone.replace (.inl letters)) unjoined
  case inr =>
    rw [textOf_cons, textOf_nil, List.append_nil]
    exact not_standsAlone_of_isKeyName hn hg ne fun joining => free ⟨[], name, joining, rfl⟩

-- Can the blanks stand at each boundary between parts of the phrase, but behind a key that would be
-- a connective?
def Insertable (gap : List Char) (form : Form) (phrase : Phrase) (room : Nat)
    (parts : List Lexeme) (rest : List Char) : Prop :=
  ∀ front part back, parts = front ++ part :: back → front ≠ [] → ¬EndsInWordKey front →
    Derives form phrase room (front ++ (Scan.blanks gap ++ part :: back)) rest

section

variable {gap₁ gap₂ word : List Char} {connective : Connective} {grouped : Bool}
  (hg : IsBlanks gap) (ne : gap ≠ [])

include hg ne

theorem insertable_group (hg₁ : IsBlanks gap₁) (hg₂ : IsBlanks gap₂)
    (inside : Derives form (.expression true) room parts (gap₂ ++ ')' :: rest))
    (hi : Insertable gap form (.expression true) room parts (gap₂ ++ ')' :: rest)) :
    Insertable gap form .operand (room + 1) (⟨.paren .opening, ['(']⟩ ::
      (Scan.blanks gap₁ ++ (parts ++ (Scan.blanks gap₂ ++ [⟨.paren .closing, [')']⟩])))) rest := by
  intro front part back e hf free
  cases front
  case nil => contradiction
  case cons first front =>
    obtain ⟨rfl, e₁⟩ := List.cons.inj e
    obtain ⟨wider, hw, _, e₂⟩ | ⟨front₁, hf₁, rfl, e₂⟩ := cases_of_gap_append hg₁ hg ne e₁
    case inl => simpa [← e₂] using Derives.group hw hg₂ inside
    case inr =>
      obtain ⟨front₂, rfl, e₃⟩ | ⟨ahead, rfl, rfl⟩ := cases_of_append_eq e₂
      case inr =>
        have free : ¬EndsInWordKey front₁ :=
          mt (·.of_suffix ((List.suffix_append _ _).trans (List.suffix_cons _ _))) free
        simpa using Derives.group hg₁ hg₂ (hi _ _ _ rfl hf₁ free)
      case inl =>
        obtain ⟨wider, hw, nonempty, e₄⟩ | ⟨front₃, hf₃, rfl, e₄⟩ :=
          cases_of_gap_append hg₂ hg ne e₃
        case inr => cases front₃ <;> simp at hf₃ e₄
        case inl =>
          have follows : Replaces (gap₂ ++ ')' :: rest) (wider ++ ')' :: rest) :=
            replaces_of_gap hg₂ hw (absurd · nonempty) (by decide) (by decide)
          simpa [← e₄] using Derives.group hg₁ hw (inside.replace follows)

theorem insertable_asserted (unjoined : ¬StandsAlone (textOf parts ++ rest))
    (unnegated : ¬Begins .not (textOf parts ++ rest))
    (operand : Derives form .operand room parts rest)
    (hi : Insertable gap form .operand room parts rest) :
    Insertable gap form .block room parts rest := by
  intro front part back e hf free
  exact .asserted (operand.not_standsAlone_insert hf hg ne free e unjoined)
    (not_begins_insert hg ne (e ▸ unnegated)) (hi _ _ _ e hf free)

theorem insertable_negated (spells : Spells .not word) (hg₁ : IsBlanks gap₁)
    (unjoined : ¬StandsAlone (textOf parts ++ rest))
    (operand : Derives form .operand room parts rest)
    (hi : Insertable gap form .operand room parts rest) :
    Insertable gap form .block room (⟨.connective .not, word⟩ :: (Scan.blanks gap₁ ++ parts))
      rest := by
  intro front part back e hf free
  cases front
  case nil => contradiction
  case cons first front =>
    obtain ⟨rfl, e₁⟩ := List.cons.inj e
    obtain ⟨wider, hw, _, e₂⟩ | ⟨front₁, hf₁, rfl, e₂⟩ := cases_of_gap_append hg₁ hg ne e₁
    case inl => simpa [← e₂] using Derives.negated spells hw unjoined operand
    case inr =>
      have free : ¬EndsInWordKey front₁ :=
        mt (·.of_suffix ((List.suffix_append _ _).trans (List.suffix_cons _ _))) free
      simpa using Derives.negated spells hg₁
        (operand.not_standsAlone_insert hf₁ hg ne free e₂ unjoined) (hi _ _ _ e₂ hf₁ free)

theorem insertable_joined
    (block : Derives form .block room parts (gap₁ ++ (word ++ (gap₂ ++ (textOf others ++ rest)))))
    (hg₁ : IsBlanks gap₁) (joins : connective ≠ .not) (spells : Spells connective word)
    (whole : ∀ c ∈ (gap₂ ++ (textOf others ++ rest)).head?, endsWord c) (hg₂ : IsBlanks gap₂)
    (tail : Derives form (.expression grouped) room others rest)
    (hi : Insertable gap form .block room parts
      (gap₁ ++ (word ++ (gap₂ ++ (textOf others ++ rest)))))
    (hi' : Insertable gap form (.expression grouped) room others rest) :
    Insertable gap form (.expression grouped) room (parts ++ (Scan.blanks gap₁ ++
      (⟨.connective connective, word⟩ :: (Scan.blanks gap₂ ++ others)))) rest := by
  intro front part back e hf free
  obtain ⟨front₁, rfl, e₁⟩ | ⟨ahead, rfl, rfl⟩ := cases_of_append_eq e
  case inr => simpa using Derives.joined (hi _ _ _ rfl hf free) hg₁ joins spells whole hg₂ tail
  case inl =>
    obtain ⟨wider, hw, nonempty, e₂⟩ | ⟨front₂, hf₂, rfl, e₂⟩ := cases_of_gap_append hg₁ hg ne e₁
    case inl =>
      have block : Derives form .block room parts
          (wider ++ (word ++ (gap₂ ++ (textOf others ++ rest)))) :=
        block.replace (replaces_of_gap_spells hg₁ hw (absurd · nonempty) spells)
      simpa [← e₂] using Derives.joined block hw joins spells whole hg₂ tail
    case inr =>
      have block (text : List Char) : Derives form .block room parts (gap₁ ++ (word ++ text)) :=
        block.replace (replaces_of_spells hg₁ spells)
      cases front₂
      case nil => contradiction
      case cons first front₂ =>
        obtain ⟨rfl, e₃⟩ := List.cons.inj e₂
        obtain ⟨wider, hw, nonempty, e₄⟩ | ⟨front₃, hf₃, rfl, e₄⟩ :=
          cases_of_gap_append hg₂ hg ne e₃
        case inl =>
          have whole : ∀ c ∈ (wider ++ (textOf others ++ rest)).head?, endsWord c := by
            rw [head?_append_of_ne_nil nonempty]
            exact hw.endsWord
          simpa [← e₄] using Derives.joined (block _) hg₁ joins spells whole hw tail
        case inr =>
          have suffix : front₃ <:+ parts ++ (Scan.blanks gap₁ ++
              ⟨.connective connective, word⟩ :: (Scan.blanks gap₂ ++ front₃)) :=
            ⟨parts ++ (Scan.blanks gap₁ ++ ⟨.connective connective, word⟩ :: Scan.blanks gap₂),
              by simp⟩
          have free : ¬EndsInWordKey front₃ := mt (·.of_suffix suffix) free
          have whole : ∀ c ∈ (gap₂ ++ (textOf (front₃ ++ (Scan.blanks gap ++ part :: back)) ++
              rest)).head?, endsWord c := by
            rw [e₄, textOf_append, List.append_assoc, List.head?_append, tail.head?_front hf₃ e₄,
              ← List.head?_append] at whole
            rwa [textOf_append, List.append_assoc]
          simpa using Derives.joined (block _) hg₁ joins spells whole hg₂ (hi' _ _ _ e₄ hf₃ free)

theorem insertable_adjoined
    (block : Derives form .block room parts (gap₁ ++ (textOf others ++ rest))) (hg₁ : IsBlanks gap₁)
    (apart : ∀ c ∈ (textOf others).head?, isOperandStart c = false)
    (tail : Derives form (.expression true) room others rest)
    (hi : Insertable gap form .block room parts (gap₁ ++ (textOf others ++ rest)))
    (hi' : Insertable gap form (.expression true) room others rest) :
    Insertable gap form (.expression true) room (parts ++ (Scan.blanks gap₁ ++ others)) rest := by
  intro front part back e hf free
  obtain ⟨front₁, rfl, e₁⟩ | ⟨ahead, rfl, rfl⟩ := cases_of_append_eq e
  case inr => simpa using Derives.adjoined (hi _ _ _ rfl hf free) hg₁ apart tail
  case inl =>
    obtain ⟨wider, hw, nonempty, e₂⟩ | ⟨front₂, hf₂, rfl, e₂⟩ := cases_of_gap_append hg₁ hg ne e₁
    case inl =>
      have block : Derives form .block room parts (wider ++ (textOf others ++ rest)) :=
        block.replace (tail.replaces_gap hg₁ hw (absurd · nonempty))
      simpa [← e₂] using Derives.adjoined block hw apart tail
    case inr =>
      have free : ¬EndsInWordKey front₂ :=
        mt (·.of_suffix ((List.suffix_append _ _).trans (List.suffix_append _ _))) free
      have block : Derives form .block room parts
          (gap₁ ++ (textOf (front₂ ++ (Scan.blanks gap ++ part :: back)) ++ rest)) := by
        rw [e₂, textOf_append, List.append_assoc] at block
        rw [textOf_append, List.append_assoc]
        exact block.replace (tail.replaces_front hf₂ e₂ hg₁ _ _)
      have apart : ∀ c ∈ (textOf (front₂ ++ (Scan.blanks gap ++ part :: back))).head?,
          isOperandStart c = false := by
        rw [e₂, textOf_append, tail.head?_front hf₂ e₂] at apart
        rwa [textOf_append]
      simpa using Derives.adjoined block hg₁ apart (hi' _ _ _ e₂ hf₂ free)

end

-- By induction on the phrase: a boundary lies in one of the phrases it is made of, or in a gap
-- between them.
theorem Derives.insertable (h : Derives form phrase room parts rest) (hg : IsBlanks gap)
    (ne : gap ≠ []) : Insertable gap form phrase room parts rest := by
  induction h
  case leaf hl => exact fun _ _ _ e hf _ => .leaf (hl.insert hf hg ne e)
  case group hg₁ hg₂ inside hi => exact insertable_group hg ne hg₁ hg₂ inside hi
  case asserted unjoined unnegated operand hi =>
    exact insertable_asserted hg ne unjoined unnegated operand hi
  case negated spells hg₁ unjoined operand hi =>
    exact insertable_negated hg ne spells hg₁ unjoined operand hi
  case single hi => exact fun front part back e hf free => .single (hi front part back e hf free)
  case joined block hg₁ joins spells whole hg₂ tail hi hi' =>
    exact insertable_joined hg ne block hg₁ joins spells whole hg₂ tail hi hi'
  case adjoined block hg₁ apart tail hi hi' =>
    exact insertable_adjoined hg ne block hg₁ apart tail hi hi'

theorem Sentence.insert (h : Sentence form room parts) (hg : IsBlanks gap)
    (free : EndsInWordKey front → gap = []) (e : parts = front ++ part :: back) :
    Sentence form room (front ++ (Scan.blanks gap ++ part :: back)) := by
  by_cases ne : gap = []
  case pos =>
    subst ne
    rwa [e] at h
  case neg =>
    cases h
    case mk gap₁ gap₂ parts hg₁ hg₂ expression =>
      obtain ⟨wider, hw, _, e₁⟩ | ⟨front₁, hf₁, rfl, e₁⟩ := cases_of_gap_append hg₁ hg ne e
      case inl => simpa [← e₁] using Sentence.mk hw hg₂ expression
      case inr =>
        obtain ⟨front₂, rfl, e₂⟩ | ⟨ahead, rfl, rfl⟩ := cases_of_append_eq e₁
        case inr =>
          have free : ¬EndsInWordKey front₁ :=
            fun h => ne (free (h.of_suffix (List.suffix_append _ _)))
          have expression := expression.insertable hg ne _ _ _ rfl hf₁ free
          simpa using Sentence.mk hg₁ hg₂ expression
        case inl =>
          rw [← List.append_nil (Scan.blanks gap₂)] at e₂
          obtain ⟨wider, hw, _, e₃⟩ | ⟨front₃, _, _, e₃⟩ := cases_of_gap_append hg₂ hg ne e₂
          case inr => simp at e₃
          case inl =>
            have follows : Replaces gap₂ (wider ++ []) :=
              replaces_of_end hg₂ hw (by simp) (by simp)
            rw [List.append_nil] at follows e₃
            simpa [e₃] using Sentence.mk hg₁ hw (expression.replace follows)

end Grammar

-- In front of each part of an accepted text more blanks can stand, unless the part in front of them
-- is a key that is an `AND` or `OR` then. This key is refused.
theorem blanks_insertable {maxDepth : Nat} {text gap : List Char} {r : Reading}
    {front back : List Lexeme} {part : Lexeme} (h : Reading.ofText maxDepth text = .ok r)
    (e : r.lexemes = front ++ part :: back) (hg : IsBlanks gap) :
    textOf front ++ textOf (part :: back) = text ∧
    ((EndsInWordKey front → gap = []) →
      validate maxDepth (textOf front ++ (gap ++ textOf (part :: back))) = .ok r.progress) ∧
    ∀ others name, IsJoiningWord name → others ++ [⟨.key, name⟩] = front → gap ≠ [] → ∃ kind,
      (kind = .valueExpected ∨ kind = .duplicateConnective) ∧
      validate maxDepth (textOf front ++ (gap ++ textOf (part :: back))) =
        .error ⟨kind, byteLength (textOf others)⟩ := by
  obtain ⟨form, parts, hs, rfl, rfl⟩ := Reading.ofText_eq_ok_iff.mp h
  rw [Reading.lexemes_finished] at e
  refine ⟨by rw [e, textOf_append], fun free => ?_, fun others name joining ef ne => ?_⟩
  case refine_1 => simpa using (hs.insert hg free e).validate
  case refine_2 =>
    subst ef
    have alone : StandsAlone (name ++ (gap ++ textOf (part :: back))) := by
      obtain ⟨connective, joins, spells⟩ := joining
      refine ⟨connective, name, _, joins, spells, rfl, fun c hc => ?_⟩
      rw [head?_append_of_ne_nil ne] at hc
      exact .inl (hg.endsWord c hc)
    have refused := validate_of_stalls
      (Reading.stalls_ofText hs (by simpa using e) joining alone)
    simpa using refused

-- A blank behind the equals sign is one in front of a value. Behind the key it makes the key a
-- connective in front of one.
theorem blanks_insertable_of_and :
    validate 1 "(and= x)".toList = .ok { form := some .keyed, latest := .block } ∧ ∃ kind,
      (kind = .valueExpected ∨ kind = .duplicateConnective) ∧
      validate 1 "(and =x)".toList = .error ⟨kind, 1⟩ := by
  have read : Reading.ofText 1 "(and=x)".toList = .ok (Reading.finished .keyed
      [⟨.paren .opening, ['(']⟩, ⟨.key, "and".toList⟩, ⟨.equals, ['=']⟩, ⟨.bare, ['x']⟩,
        ⟨.paren .closing, [')']⟩]) := by cbv
  have blank : IsBlanks [' '] := isBlanks_singleton (by decide)
  have joining : IsJoiningWord "and".toList := ⟨.and, by decide, rfl⟩
  obtain ⟨_, behindEquals, _⟩ := blanks_insertable read
    (show _ = [⟨.paren .opening, ['(']⟩, ⟨.key, "and".toList⟩, ⟨.equals, ['=']⟩] ++
      ⟨.bare, ['x']⟩ :: [⟨.paren .closing, [')']⟩] from rfl) blank
  obtain ⟨_, _, behindKey⟩ := blanks_insertable read
    (show _ = [⟨.paren .opening, ['(']⟩, ⟨.key, "and".toList⟩] ++
      ⟨.equals, ['=']⟩ :: [⟨.bare, ['x']⟩, ⟨.paren .closing, [')']⟩] from rfl) blank
  refine ⟨behindEquals ?_, behindKey [⟨.paren .opening, ['(']⟩] _ joining rfl (by simp)⟩
  rintro ⟨others, name, _, e⟩
  have last := congrArg (·.getLast?.map Lexeme.kind) e
  simp at last

-- So blanks do not go between all parts of what is accepted.
theorem blanks_not_insertable : ¬∀ (maxDepth : Nat) (text gap : List Char) (r : Reading)
    (front back : List Lexeme) (part : Lexeme), Reading.ofText maxDepth text = .ok r →
    r.lexemes = front ++ part :: back → front ≠ [] → IsBlanks gap →
    validate maxDepth (textOf front ++ (gap ++ textOf (part :: back))) = .ok r.progress := by
  intro insertable
  have read : Reading.ofText 1 "AND=x".toList = .ok (Reading.finished .keyed
      [⟨.key, "AND".toList⟩, ⟨.equals, ['=']⟩, ⟨.bare, ['x']⟩]) := by cbv
  have blank : IsBlanks [' '] := isBlanks_singleton (by decide)
  have accepted := insertable _ _ _ _ [⟨.key, "AND".toList⟩] _ _ read rfl (by simp) blank
  have refused : validate 1 "AND =x".toList = .error ⟨.valueExpected, 0⟩ := by cbv
  cases accepted.symm.trans refused

end BoolSearch
