import BoolSearch.Proofs.Context
import BoolSearch.Proofs.Steps

namespace BoolSearch

namespace Grammar

variable {form : Form} {phrase : Phrase} {room : Nat} {parts others : List Lexeme} {value : Lexeme}
  {text rest rest' left tail gap gap' word : List Char} {grouped : Bool}

def Ends (tail : List Char) : Prop :=
  ∀ c ∈ tail.head?, c = ')'

theorem Ends.not_isBare (h : Ends tail) : ∀ c ∈ tail.head?, isBare c = false := by
  intro c hc
  rw [h c hc]
  decide

theorem Ends.not_blank (h : Ends tail) : ∀ c ∈ tail.head?, isBlank c = false ∧ c ≠ '=' := by
  intro c hc
  rw [h c hc]
  decide

theorem endsWord_of_ends (hg : IsBlanks gap) (h : Ends tail) :
    ∀ c ∈ (gap ++ tail).head?, endsWord c := by
  intro c hc
  cases gap
  case nil =>
    rw [h c hc]
    decide
  case cons d gap =>
    cases hc
    simp [endsWord, hg c]

theorem Alike.append_left (h : Alike text rest rest') (before : List Char) :
    Alike (before ++ text) rest rest' := by
  cases h
  case inr h => exact .inr h
  case inl h =>
    have ⟨c, hc, letter⟩ := h
    exact .inl ⟨c, by simp [hc], letter⟩

-- Can the end follow such a phrase once some more text is put behind it? Nothing that the text
-- starts with may change by this.
def Sealed (form : Form) (phrase : Phrase) (room : Nat) (parts : List Lexeme) (rest : List Char) :
    Prop :=
  ∃ parts' glue, textOf parts' = textOf parts ++ glue ∧ ∀ tail, Ends tail →
    Derives form phrase room parts' tail ∧ Alike (textOf parts) rest (glue ++ tail)

-- A digit goes on with a bare value, and makes a word that is no connective out of it.
theorem IsBare.seal (h : IsBare text rest) (ends : Ends tail) : IsBare (text ++ ['0']) tail where
  nonempty := by simp
  bare c hc := by
    cases List.mem_append.mp hc
    case inl hc => exact h.bare c hc
    case inr hc =>
      rw [List.mem_singleton.mp hc]
      decide
  unquoted := by
    rw [head?_append_of_ne_nil h.nonempty]
    exact h.unquoted
  whole := ends.not_isBare

theorem alike_digit : Alike text rest ('0' :: tail) := by
  refine .inr ⟨?_, fun h => absurd (h '0' rfl) (by decide)⟩
  rintro _ ⟨⟩
  decide

theorem IsValue.seal (h : IsValue value rest) : ∃ (value' : Lexeme) (glue : List Char),
    value'.text = value.text ++ glue ∧ ∀ tail, Ends tail → IsValue value' tail := by
  cases h
  case quoted text hq => exact ⟨⟨.quoted, text⟩, [], by simp, fun _ _ => .quoted hq⟩
  case bare text hb   => exact ⟨⟨.bare, text ++ ['0']⟩, ['0'], rfl, fun _ he => .bare (hb.seal he)⟩

theorem IsLeaf.seal (h : IsLeaf form parts rest) : Sealed form .operand room parts rest := by
  cases h
  case keyed name gap gap' value hn hg hg' hv =>
    have ⟨value', glue, e, hs⟩ := hv.seal
    refine ⟨⟨.key, name⟩ :: Scan.blanks gap ++ ⟨.equals, ['=']⟩ :: Scan.blanks gap' ++ [value'],
      glue, by simp [e], fun tail ends => ⟨.leaf (.keyed hn hg hg' (hs tail ends)), ?_⟩⟩
    exact .inl ⟨'=', by simp, by decide⟩
  case plain value hv unkeyed =>
    cases hv
    case quoted text hq =>
      have ⟨c, hc, letter⟩ := hq.exists_not_isLetter
      refine ⟨[⟨.quoted, text⟩], [], by simp, fun tail _ => ⟨.leaf (.plain (.quoted hq) ?_), ?_⟩⟩
      · cases hq
        case mk quote _ => exact not_beginsKeyed (isLetter_of_isQuote quote)
      · exact .inl ⟨c, by simpa using hc, letter⟩
    case bare text hb =>
      refine ⟨[⟨.bare, text ++ ['0']⟩], ['0'], by simp, fun tail ends =>
        ⟨.leaf (.plain (.bare (hb.seal ends)) ?_), alike_digit⟩⟩
      exact not_beginsKeyed_of_bare (hb.seal ends).bare ends.not_isBare
        (gap_append_ne isBlanks_nil ends.not_blank)

-- By induction on the phrase. Only the value at its end gets longer.
theorem Derives.seal (h : Derives form phrase room parts rest) :
    Sealed form phrase room parts rest := by
  induction h
  case leaf hl => exact hl.seal
  case group gap gap' rest parts _ hg hg' inside _ =>
    refine ⟨⟨.paren .opening, ['(']⟩ :: (Scan.blanks gap ++ (parts ++ (Scan.blanks gap' ++
      [⟨.paren .closing, [')']⟩]))), [], by simp, fun tail _ => ⟨.group hg hg' ?_, ?_⟩⟩
    · exact inside.replace (replaces_of_head hg' (by decide) (by decide))
    · exact .inl ⟨'(', by simp, by decide⟩
  case asserted unjoined unnegated _ hi =>
    have ⟨parts', glue, e, hs⟩ := hi
    refine ⟨parts', glue, e, fun tail ends => ?_⟩
    have ⟨operand, alike⟩ := hs tail ends
    refine ⟨.asserted ?_ ?_ operand, alike⟩
    · rw [e, List.append_assoc]
      exact mt (.replace alike) unjoined
    · rw [e, List.append_assoc]
      exact mt (.replace alike) unnegated
  case negated word gap _ parts _ spells hg unjoined _ hi =>
    have ⟨parts', glue, e, hs⟩ := hi
    refine ⟨⟨.connective .not, word⟩ :: (Scan.blanks gap ++ parts'), glue, by simp [e],
      fun tail ends => ?_⟩
    have ⟨operand, alike⟩ := hs tail ends
    refine ⟨.negated spells hg ?_ operand, by simpa using (alike.append_left gap).append_left word⟩
    rw [e, List.append_assoc]
    exact mt (.replace alike) unjoined
  case single hi =>
    have ⟨parts', glue, e, hs⟩ := hi
    exact ⟨parts', glue, e, fun tail ends => ⟨.single (hs tail ends).1, (hs tail ends).2⟩⟩
  case joined connective word gap gap' rest parts others _ _ block hg joins spells whole hg' tail _
      hi =>
    have ⟨others', glue, e, hs⟩ := hi
    refine ⟨parts ++ (Scan.blanks gap ++ (⟨.connective connective, word⟩ ::
      (Scan.blanks gap' ++ others'))), glue, by simp [e], fun text ends => ?_⟩
    have ⟨last, alike⟩ := hs text ends
    refine ⟨.joined (block.replace (replaces_of_spells hg spells)) hg joins spells ?_ hg' last, ?_⟩
    · rw [e, List.append_assoc]
      rwa [tail.head?_gap_append _ _ rest]
    · simpa using alike.append_left (textOf parts ++ (gap ++ (word ++ gap')))
  case adjoined gap rest parts others _ block hg apart tail _ hi =>
    have ⟨others', glue, e, hs⟩ := hi
    refine ⟨parts ++ (Scan.blanks gap ++ others'), glue, by simp [e], fun text ends => ?_⟩
    have ⟨last, alike⟩ := hs text ends
    have ⟨c, before, eo, _⟩ := tail.opens
    refine ⟨.adjoined ?_ hg ?_ last, ?_⟩
    · rw [e, List.append_assoc]
      exact block.replace (tail.replaces hg)
    · rwa [e, head?_append_of_ne_nil (by simp [eo])]
    · simpa using alike.append_left (textOf parts ++ gap)

-- `text` goes on to `left`, and what is in front of that can be completed to such a phrase, with
-- blanks around it, in front of any end. If nothing is in front, then the first of what is added is
-- a blank.
inductive Completable (form : Form) (phrase : Phrase) (room : Nat) (text left : List Char) : Prop
  | mk (before suffix gap gap' : List Char) (parts : List Lexeme) (ahead : before ++ left = text)
    (completed : gap ++ (textOf parts ++ gap') = before ++ suffix) (hg : IsBlanks gap)
    (hg' : IsBlanks gap') (fresh : before = [] → gap ≠ [])
    (derives : ∀ tail, Ends tail → Derives form phrase room parts (gap' ++ tail))

def sample : Form → List Lexeme
  | .plain => [⟨.quoted, ['"', '"']⟩]
  | .keyed => [⟨.key, ['x', 'x']⟩, ⟨.equals, ['=']⟩, ⟨.quoted, ['"', '"']⟩]

theorem isQuoted_empty : IsQuoted ['"', '"'] :=
  .mk (by decide) (.close (by decide))

theorem isLeaf_sample (form : Form) (rest : List Char) : IsLeaf form (sample form) rest := by
  cases form
  case plain => exact .plain (.quoted isQuoted_empty) (not_beginsKeyed (by decide))
  case keyed =>
    have name : IsKeyName ['x', 'x'] := ⟨by decide, by simp [isLetter]⟩
    exact .keyed name isBlanks_nil isBlanks_nil (.quoted isQuoted_empty)

theorem not_begins_sample (form : Form) (connective : Connective) (rest : List Char) :
    ¬Begins connective (textOf (sample form) ++ rest) := by
  apply keyword?_eq_none_iff.mp
  cases form <;> rfl

theorem not_standsAlone_of_not_begins (h : ∀ connective, ¬Begins connective text) :
    ¬StandsAlone text := by
  intro hs
  have ⟨connective, word, rest, _, spells, e, _⟩ := hs
  exact h connective ⟨word, rest, e, spells⟩

theorem derives_sample (form : Form) (room : Nat) (rest : List Char) :
    Derives form .block room (sample form) rest :=
  .asserted (not_standsAlone_of_not_begins fun _ => not_begins_sample form _ rest)
    (not_begins_sample form .not rest) (.leaf (isLeaf_sample form rest))

-- Where a block is missing, one may stand behind a blank.
theorem completable_of_gap (form : Form) (room : Nat) (hg : IsBlanks gap) (e : gap ++ left = text) :
    Completable form .block room text left :=
  .mk gap ([' '] ++ textOf (sample form)) (gap ++ [' ']) [] (sample form) e (by simp)
    (hg.append (isBlanks_singleton (by decide))) isBlanks_nil (by simp)
    fun _ _ => derives_sample form room _

-- Where the operand of a `NOT` is missing, one may stand at once.
theorem completable_of_not (form : Form) (room : Nat) (hg : IsBlanks gap)
    (spells : Spells .not word) (hg' : IsBlanks gap')
    (e : gap ++ (word ++ (gap' ++ left)) = text) :
    Completable form .block room text left := by
  have before : gap ++ (word ++ gap') ≠ [] := by simp [ne_nil_of_spells spells]
  refine .mk (gap ++ (word ++ gap')) (textOf (sample form)) gap []
    (⟨.connective .not, word⟩ :: (Scan.blanks gap' ++ sample form)) (by simpa) (by simp) hg
    isBlanks_nil (fun h => absurd h before) fun tail _ =>
      .negated spells hg' ?_ (.leaf (isLeaf_sample form _))
  exact not_standsAlone_of_not_begins fun _ => not_begins_sample form _ _

theorem Derives.completable (h : Derives form phrase room parts (gap' ++ left)) (hg : IsBlanks gap)
    (hg' : IsBlanks gap') (e : gap ++ (textOf parts ++ (gap' ++ left)) = text) :
    Completable form phrase room text left := by
  have ⟨c, more, ep, _⟩ := h.opens
  have before : gap ++ (textOf parts ++ gap') ≠ [] := by simp [ep]
  by_cases hne : gap' = []
  case neg =>
    refine .mk (gap ++ (textOf parts ++ gap')) [] gap gap' parts (by simpa) (by simp) hg hg'
      (fun h => absurd h before) fun tail ends => h.replace ?_
    exact replaces_of_blanks hg' hne ends.not_blank
  case pos =>
    subst hne
    have ⟨parts', glue, ep', hs⟩ := h.seal
    exact .mk (gap ++ (textOf parts ++ [])) glue gap [] parts' (by simpa)
      (by simp [ep']) hg isBlanks_nil (fun h => absurd h before) fun tail ends => (hs tail ends).1

theorem Completable.single (h : Completable form .block room text left) :
    Completable form (.expression grouped) room text left := by
  cases h
  case mk before suffix gap gap' parts ahead completed hg hg' fresh derives =>
    exact .mk before suffix gap gap' parts ahead completed hg hg' fresh fun tail ends =>
      .single (derives tail ends)

-- What is completed starts with a blank or with what it started with before.
theorem head?_of_completed (rest : List Char) {before suffix : List Char}
    (ahead : before ++ left = text) (completed : gap ++ (textOf parts ++ gap') = before ++ suffix)
    (hg : IsBlanks gap) (fresh : before = [] → gap ≠ [])
    (h : Derives form phrase room parts (gap' ++ tail)) :
    ∀ c ∈ (gap ++ (textOf parts ++ rest)).head?, isBlank c ∨ c ∈ text.head? := by
  have ⟨d, more, ep, _⟩ := h.opens
  intro c hc
  cases before
  case nil =>
    rw [head?_append_of_ne_nil (fresh rfl)] at hc
    exact .inl (hg c (List.mem_of_mem_head? hc))
  case cons b before =>
    right
    rw [h.head?_gap_append gap rest gap', completed] at hc
    rwa [← ahead]

theorem Completable.join {connective : Connective} (h : Completable form (.expression grouped) room
      rest left) (block : Derives form .block room parts (gap ++ (word ++ (gap' ++ rest))))
    (hg : IsBlanks gap) (joins : connective ≠ .not) (spells : Spells connective word)
    (hg' : IsBlanks gap') (whole : ∀ c ∈ (gap' ++ rest).head?, endsWord c) {start : List Char}
    (hs : IsBlanks start)
    (e : start ++ (textOf parts ++ (gap ++ (word ++ (gap' ++ rest)))) = text) :
    Completable form (.expression grouped) room text left := by
  cases h
  case mk before suffix gap₁ gap₂ others ahead completed hg₁ hg₂ fresh derives =>
    have ⟨c, more, ep, _⟩ := block.opens
    refine .mk (start ++ (textOf parts ++ (gap ++ (word ++ (gap' ++ before))))) suffix start gap₂
      (parts ++ (Scan.blanks gap ++ (⟨.connective connective, word⟩ ::
        (Scan.blanks (gap' ++ gap₁) ++ others)))) ?_ ?_ hs hg₂ (by simp [ep]) fun tail ends => ?_
    · simpa [ahead] using e
    · simp [completed]
    · refine .joined (block.replace (replaces_of_spells hg spells)) hg joins spells ?_
        (hg'.append hg₁) (derives tail ends)
      have start := head?_of_completed (gap₂ ++ tail) ahead completed hg₁ fresh (derives tail ends)
      intro c hc
      cases gap'
      case cons => exact whole c hc
      case nil =>
        cases start c hc
        case inl hb => simp [endsWord, hb]
        case inr hc => exact whole c hc

theorem Completable.adjoin (h : Completable form (.expression true) room rest left)
    (block : Derives form .block room parts (gap ++ rest)) (hg : IsBlanks gap)
    (hb : ∀ c ∈ rest.head?, isBlank c = false)
    (apart : ∀ c ∈ rest.head?, isOperandStart c = false) {start : List Char}
    (hs : IsBlanks start) (e : start ++ (textOf parts ++ (gap ++ rest)) = text) :
    Completable form (.expression true) room text left := by
  cases h
  case mk before suffix gap₁ gap₂ others ahead completed hg₁ hg₂ fresh derives =>
    cases before
    case nil =>
      rw [List.nil_append] at ahead
      subst ahead
      exact (Derives.single block).completable hs hg e
    case cons c before =>
      rw [List.cons_append] at ahead completed
      subst ahead
      have unspaced : ∀ d ∈ (gap₁ ++ (textOf others ++ gap₂)).head?, isBlank d = false := by
        rwa [completed]
      have e₁ : gap₁ = [] := hg₁.eq_nil unspaced
      subst e₁
      have opens (tail : List Char) (ends : Ends tail) :
          ∃ more, textOf others = c :: more ∧ Opens c := by
        have ⟨d, more, eo, hd⟩ := (derives tail ends).opens
        rw [eo] at completed
        exact ⟨more, (List.cons.inj completed).1 ▸ eo, (List.cons.inj completed).1 ▸ hd⟩
      refine .mk (start ++ (textOf parts ++ (gap ++ c :: before))) suffix start gap₂
        (parts ++ (Scan.blanks gap ++ others)) (by simpa using e) ?_ hs hg₂ (by simp)
        fun tail ends => ?_
      · simpa using completed
      · have ⟨more, eo, hc⟩ := opens tail ends
        refine .adjoined ?_ hg (by simpa [eo] using apart) (derives tail ends)
        rw [eo]
        exact block.replace (replaces_of_head hg hc.not_blank hc.isBare_or_isParen)

-- What an operand has read before it stopped can be completed. It is more than a word.
def Started (form : Form) (room : Nat) (text left : List Char) : Prop :=
  ∃ before suffix parts, before ++ left = text ∧ textOf parts = before ++ suffix ∧
    (∃ c ∈ before, isLetter c = false) ∧ ∀ tail, Derives form .operand room parts tail

theorem Completable.group (h : Completable form (.expression true) room text left)
    (hg : IsBlanks gap) : Started form (room + 1) ('(' :: (gap ++ text)) left := by
  cases h
  case mk before suffix gap₁ gap₂ parts ahead completed hg₁ hg₂ fresh derives =>
    refine ⟨'(' :: (gap ++ before), suffix ++ [')'], _, by simp [ahead], ?_,
      ⟨'(', by simp, by decide⟩,
      fun tail => .group (hg.append hg₁) hg₂ (derives _ (by rintro _ ⟨⟩; rfl))⟩
    have completed := congrArg (· ++ [')']) completed
    simpa using completed

theorem started_of_key (room : Nat) (hn : IsKeyName word) (hg : IsBlanks gap) (hg' : IsBlanks gap')
    (e : word ++ (gap ++ '=' :: (gap' ++ left)) = text) : Started .keyed room text left := by
  refine ⟨word ++ (gap ++ '=' :: gap'), ['"', '"'], _, by simpa using e, ?_,
    ⟨'=', by simp, by decide⟩, fun tail => .leaf (.keyed hn hg hg' (.quoted isQuoted_empty))⟩
  simp

theorem Started.alike (h : Started form room text left) : ∃ before suffix parts,
    before ++ left = text ∧ textOf parts = before ++ suffix ∧ before ≠ [] ∧
    ∀ tail, Derives form .operand room parts tail ∧ Alike before left (suffix ++ tail) := by
  have ⟨before, suffix, parts, ahead, completed, letter, derives⟩ := h
  refine ⟨before, suffix, parts, ahead, completed, ?_, fun tail => ⟨derives tail, .inl letter⟩⟩
  rintro rfl
  simp at letter

theorem Started.asserted (h : Started form room rest left) (unjoined : ¬StandsAlone rest)
    (unnegated : ¬Begins .not rest) (hg : IsBlanks gap) (e : gap ++ rest = text) :
    Completable form .block room text left := by
  have ⟨before, suffix, parts, ahead, completed, ne, hs⟩ := h.alike
  subst ahead
  refine .mk (gap ++ before) suffix gap [] parts (by simpa) (by simp [completed]) hg isBlanks_nil
    (by simp [ne]) fun tail _ => ?_
  have ⟨operand, alike⟩ := hs tail
  refine .asserted ?_ ?_ operand
  · rw [completed, List.append_assoc]
    exact mt (.replace alike) unjoined
  · rw [completed, List.append_assoc]
    exact mt (.replace alike) unnegated

theorem Started.negated (h : Started form room rest left) (hg : IsBlanks gap)
    (spells : Spells .not word) (hg' : IsBlanks gap') (unjoined : ¬StandsAlone rest)
    (e : gap ++ (word ++ (gap' ++ rest)) = text) : Completable form .block room text left := by
  have ⟨before, suffix, parts, ahead, completed, ne, hs⟩ := h.alike
  subst ahead
  refine .mk (gap ++ (word ++ (gap' ++ before))) suffix gap []
    (⟨.connective .not, word⟩ :: (Scan.blanks gap' ++ parts)) (by simpa) (by simp [completed]) hg
    isBlanks_nil (by simp [ne]) fun tail _ => ?_
  have ⟨operand, alike⟩ := hs tail
  refine .negated spells hg' ?_ operand
  rw [completed, List.append_assoc]
  exact mt (.replace alike) unjoined

end Grammar

open Grammar

namespace Reading

variable {r s : Reading} {x : Rejection} {room : Nat} {form : Form} {left : List Char}

theorem bind_eq_error_iff {outcome : Outcome} {f : Reading → Outcome} :
    outcome >>= f = .error x ↔ outcome = .error x ∨ ∃ r, outcome = .ok r ∧ f r = .error x := by
  cases outcome with
  | error y =>
    simp only [reduceCtorEq, false_and, exists_false, or_false]
    rfl
  | ok s =>
    simp only [reduceCtorEq, false_or, Except.ok.injEq]
    constructor
    case mp  => exact fun h => ⟨s, rfl, h⟩
    case mpr => exact fun ⟨_, e, h⟩ => e ▸ h

theorem exists_admits (r : Reading) : ∃ form, r.Admits form := by
  cases h : r.progress.form with
  | none      => exact ⟨.plain, by simp [Admits, h]⟩
  | some form => exact ⟨form, by simp [Admits, h]⟩

theorem rejection_of_refuseConnective (h : r.refuseConnective = .error x) : x.reading = r := by
  rw [refuseConnective] at h
  split at h
  case h_1 => cases h
  case h_2 => cases h; rfl

theorem rejection_of_negation (h : r.negation = .error x) :
    ∃ word gap, Spells .not word ∧ IsBlanks gap ∧ word ++ (gap ++ x.reading.rest) = r.rest := by
  rw [negation] at h
  split at h
  case isFalse => cases h
  case isTrue begins =>
    obtain ⟨word, tail, e, spells⟩ := keyword?_eq_some_iff.mp begins
    rw [← takeWhile_append_skipBlanks tail] at e
    obtain ⟨latest, hp⟩ :=
      pushNot_eq_along spells (isBlanks_takeWhile tail) (head?_skipBlanks tail) e
    have hx : x.reading = r.pushNot := by
      split at h
      case isTrue  => cases h; rfl
      case isFalse => exact rejection_of_refuseConnective h
    refine ⟨word, _, spells, isBlanks_takeWhile tail, ?_⟩
    rwa [hx, hp]

def Starts (room : Nat) (read : Reading → Outcome) : Prop :=
  ∀ r x, read r = .error x → x.reading.rest = r.rest ∨
    ∃ form, r.Admits form ∧ Started form room r.rest x.reading.rest

theorem starts_leaf (room : Nat) : Starts room leaf := by
  intro r x h
  rw [leaf] at h
  cases hf : r.formed
  case ok => rw [hf] at h; cases h
  case error =>
    rw [hf] at h
    cases h
    simp only [formed] at hf
    split at hf
    case h_1 head hk =>
      split at hf
      case isTrue => cases hf; exact .inl rfl
      case isFalse hp =>
        right
        obtain ⟨hn, hg, all⟩ := key?_eq_some_iff.mp hk
        have hpush := pushKey_eq_along (r := r.setForm .keyed) head.name head.blanks
          (isBlanks_takeWhile head.rest) (head?_skipBlanks head.rest)
        rw [takeWhile_append_skipBlanks] at hpush
        refine ⟨.keyed, admits_keyed_iff.mpr hp,
          started_of_key room hn hg (isBlanks_takeWhile head.rest) ?_⟩
        rw [(rejection_of_value hf).1, hpush, rest_along, takeWhile_append_skipBlanks, ← all]
        simp
    case h_2 =>
      left
      split at hf
      case isTrue => cases hf; rfl
      case isFalse => rw [(rejection_of_value hf).1, rest_setForm]

def Completes (room : Nat) (phrase : Bool → Phrase) (read : Reading → Outcome) : Prop :=
  ∀ r x, read r = .error x →
    ∃ form, r.Admits form ∧ Completable form (phrase r.isGrouped) room r.rest x.reading.rest

theorem started_of_group {read : Reading → Outcome} {inside : List Char}
    (hr : Reads read (SpacedExpression room)) (hc : Completes room Phrase.expression read)
    (h : r.group (some read) inside = .error x) :
    ∃ form, r.Admits form ∧ Started form (room + 1) ('(' :: inside) x.reading.rest := by
  obtain ⟨gap, text, hg, hb, e, hskip⟩ := exists_skipBlanks_eq_along (r.openGroup inside)
  rw [rest_openGroup] at e
  subst e
  cases bind_eq_error_iff.mp h with
  | inl h =>
    have ⟨form, ha, hc⟩ := hc _ _ h
    rw [hskip] at ha hc
    exact ⟨form, ha, Completable.group hc hg⟩
  | inr h =>
    have ⟨s, hs, he⟩ := h
    rw [hskip] at hs
    obtain ⟨form, parts, rest, ha, ⟨gap₁, body, gap₂, hg₁, hg₂, ep, hd, stop⟩, e, es⟩ :=
      (hr _ _).mp hs
    subst ep es
    rw [rest_along] at e
    rw [isGrouped_along, isGrouped_openGroup] at hd
    have hx : x.reading.rest = rest := by
      rw [groupEnd, skipBlanks_of_head? fun c hc => (stop c hc).1] at he
      split at he
      case h_1 => cases he
      case h_2 => cases he; rfl
    rw [hx]
    exact ⟨form, ha, (hd.completable hg₁ hg₂ (by simpa using e)).group hg⟩

theorem starts_operand {room : Nat}
    (hi : ∀ n, room = n + 1 → Completes n Phrase.expression (expression n)) :
    Starts room (operand (insideOf room)) := by
  intro r x h
  rw [operand] at h
  split at h
  case h_2 => exact starts_leaf room r x h
  case h_1 rest e =>
    cases room
    case zero => cases h; exact .inl rfl
    case succ n =>
      rw [e]
      exact .inr (started_of_group (reads_expression n) (hi n rfl) h)

theorem completes_block {inside : Option (Reading → Outcome)}
    (ho : Starts room (operand inside)) :
    Completes room (fun _ => .block) (block inside) := by
  intro r x h
  obtain ⟨form, ha⟩ := exists_admits r
  obtain ⟨gap, text, hg, hb, e, hskip⟩ := exists_skipBlanks_eq_along r
  by_cases hn : r.skipBlanks.rest = []
  case pos =>
    rw [block, if_pos (List.isEmpty_iff.mpr hn)] at h
    cases h
    exact ⟨form, ha, completable_of_gap form room hg (by rwa [hskip])⟩
  case neg =>
    rw [block_eq hn, hskip] at h
    cases bind_eq_error_iff.mp h with
    | inl h =>
      cases bind_eq_error_iff.mp h with
      | inl h =>
        rw [rejection_of_refuseConnective h]
        exact ⟨form, ha, completable_of_gap form room hg e⟩
      | inr h =>
        obtain ⟨s, hs, h⟩ := h
        cases (refuseConnective_eq_ok_iff.mp hs).2
        obtain ⟨word, gap', spells, hg', e'⟩ := rejection_of_negation h
        exact ⟨form, ha, completable_of_not form room hg spells hg' (by rw [e', rest_along, e])⟩
    | inr h =>
      obtain ⟨s, hs, h⟩ := h
      obtain ⟨t, ht, hs⟩ := bind_eq_ok_iff.mp hs
      obtain ⟨unjoined, et⟩ := refuseConnective_eq_ok_iff.mp ht
      subst et
      rw [rest_along] at unjoined
      cases negation_cases hs with
      | inl hs =>
        obtain ⟨unnegated, es⟩ := hs
        subst es
        cases ho _ _ h with
        | inl h => exact ⟨form, ha, completable_of_gap form room hg (by rw [h, rest_along, e])⟩
        | inr h =>
          obtain ⟨form, ha, started⟩ := h
          exact ⟨form, ha, started.asserted unjoined unnegated hg e⟩
      | inr hs =>
        obtain ⟨word, gap', rest, latest, spells, hg', e', unjoined, es⟩ := hs
        subst es
        rw [rest_along] at e'
        rw [← e'] at e
        cases ho _ _ h with
        | inl h => exact ⟨form, ha, completable_of_not form room hg spells hg' (by rwa [h])⟩
        | inr h =>
          obtain ⟨form, ha, started⟩ := h
          exact ⟨form, ha, started.negated hg spells hg' unjoined e⟩

-- Behind a block and its blanks the reading stops at once, or behind a connective with nothing to
-- follow it.
theorem rejection_of_next (h : r.next = .error x) :
    (∃ gap, IsBlanks gap ∧ gap ++ x.reading.rest = r.rest) ∨
    ∃ connective word gap gap', connective ≠ .not ∧ Spells connective word ∧ IsBlanks gap ∧
      IsBlanks gap' ∧ gap ++ (word ++ (gap' ++ x.reading.rest)) = r.rest ∧ Ends x.reading.rest := by
  obtain ⟨gap, text, hg, _, e, hskip⟩ := exists_skipBlanks_eq_along r
  rw [next, hskip, proceed] at h
  split at h
  case h_1 => cases h
  case h_2 =>
    split at h
    case isTrue => cases h; exact .inl ⟨gap, hg, e⟩
    case isFalse =>
      split at h
      case h_2 => cases h
      case h_1 connective hj =>
        right
        obtain ⟨hn, word, tail, et, spells⟩ := joining?_eq_some_iff.mp hj
        rw [← takeWhile_append_skipBlanks tail] at et
        have hp := pushJoining_eq_along spells (isBlanks_takeWhile tail) (head?_skipBlanks tail) et
        rw [rest_along] at et
        refine ⟨connective, word, gap, _, hn, spells, hg, isBlanks_takeWhile tail, ?_⟩
        rw [join, hp] at h
        split at h
        case h_3 => cases h
        case h_1 er =>
          cases h
          refine ⟨by rw [← e, ← et]; rfl, fun c hc => ?_⟩
          rw [er] at hc
          cases hc
        case h_2 er =>
          cases h
          refine ⟨by rw [← e, ← et]; rfl, fun c hc => ?_⟩
          rw [er] at hc
          cases hc
          rfl

-- What the reading goes on with behind a block and its blanks: what follows a connective or, in a
-- group, what cannot be taken for another operand.
theorem more_cases (hl : r.progress.latest = .block) (h : r.next = .ok (.more s)) :
    s.progress.form = r.progress.form ∧ s.isGrouped = r.isGrouped ∧
    ((∃ connective word gap gap', connective ≠ .not ∧ Spells connective word ∧ IsBlanks gap ∧
        IsBlanks gap' ∧ gap ++ (word ++ (gap' ++ s.rest)) = r.rest ∧
        ∀ c ∈ (gap' ++ s.rest).head?, endsWord c) ∨
      ∃ gap, IsBlanks gap ∧ r.isGrouped ∧ gap ++ s.rest = r.rest ∧
        ∀ c ∈ s.rest.head?, isBlank c = false ∧ isOperandStart c = false) := by
  obtain ⟨gap, text, hg, hb, e, hskip⟩ := exists_skipBlanks_eq_along r
  rw [next, hskip] at h
  obtain ⟨hdone, _⟩ | ⟨connective, word, gap', rest, hn, spells, hg', e', whole, hmore⟩ |
    ⟨hgrouped, apart, hmore⟩ := proceed_cases (r := r.along (Scan.blanks gap) text) hl hb h
  case inl => cases hdone
  case inr.inl =>
    cases hmore
    rw [rest_along] at e'
    exact ⟨rfl, rfl, .inl ⟨connective, word, gap, gap', hn, spells, hg, hg', by rw [← e, ← e']; rfl,
      whole⟩⟩
  case inr.inr =>
    cases hmore
    exact ⟨rfl, rfl, .inr ⟨gap, hg, hgrouped, e, fun c hc => ⟨hb c hc, apart c hc⟩⟩⟩

-- By induction on the run: what is completed behind a block is completed with the block in front.
theorem completes_sequence {read : Reading → Outcome} (hr : Reads read fun _ => SpacedBlock room)
    (hc : Completes room (fun _ => .block) read) :
    Completes room Phrase.expression (sequence read) := by
  intro r x
  induction r using sequence_induction hr.advances with
  | step r hi =>
    intro h
    rw [sequence_eq_bind hr.advances] at h
    cases bind_eq_error_iff.mp h with
    | inl h =>
      have ⟨form, ha, hc⟩ := hc r x h
      exact ⟨form, ha, hc.single⟩
    | inr h =>
      have ⟨s, hs, hx⟩ := h
      have ⟨form, parts, rest, ha, ⟨gap, body, hg, ep, hd⟩, e, es⟩ := (hr r s).mp hs
      subst ep es
      have e : gap ++ (textOf body ++ rest) = r.rest := by simpa using e
      refine ⟨form, ha, ?_⟩
      rw [continued] at hx
      split at hx
      case h_1 y hn =>
        cases hx
        cases rejection_of_next hn with
        | inl h =>
          have ⟨gap', hg', er⟩ := h
          rw [rest_past] at er
          subst er
          exact (Derives.single hd).completable hg hg' e
        | inr h =>
          have ⟨connective, word, gap₁, gap₂, joins, spells, hg₁, hg₂, er, ends⟩ := h
          rw [rest_past] at er
          subst er
          refine (completable_of_gap form room isBlanks_nil rfl).single.join hd hg₁ joins spells hg₂
            ?_ hg e
          exact endsWord_of_ends hg₂ ends
      case h_2 => cases hx
      case h_3 t ht =>
        have ⟨form', ha', hc⟩ := hi _ t hs ht hx
        have ⟨hform, hgrouped, next⟩ := more_cases rfl ht
        cases ha' form hform
        rw [hgrouped, isGrouped_past] at hc
        rw [rest_past] at next
        cases next with
        | inl h =>
          have ⟨connective, word, gap₁, gap₂, joins, spells, hg₁, hg₂, er, whole⟩ := h
          subst er
          exact hc.join hd hg₁ joins spells hg₂ whole hg e
        | inr h =>
          have ⟨gap₁, hg₁, grouped, er, apart⟩ := h
          subst er
          rw [isGrouped_past] at grouped
          rw [grouped] at hc ⊢
          exact hc.adjoin hd hg₁ (fun c hc => (apart c hc).1) (fun c hc => (apart c hc).2) hg e

-- By induction on the number of groups that may be opened inside each other.
theorem completes_expression (room : Nat) :
    Completes room Phrase.expression (expression room) := by
  induction room using Nat.strongRecOn
  case ind room hi =>
    rw [expression_eq_sequence]
    exact completes_sequence (reads_nested_block room)
      (completes_block (starts_operand fun n _ => hi n (by omega)))

theorem completes_ofText {maxDepth : Nat} {text : List Char} (h : ofText maxDepth text = .error x) :
    ∃ before suffix, before ++ x.reading.rest = text ∧ Accepts maxDepth (before ++ suffix) := by
  obtain ⟨gap, rest, hg, _, e, hskip⟩ := exists_skipBlanks_eq_along (start text)
  rw [ofText, hskip] at h
  rw [rest_start] at e
  have completed : ∃ form, Completable form (.expression false) maxDepth rest x.reading.rest := by
    cases bind_eq_error_iff.mp h with
    | inl h =>
      obtain ⟨form, _, hc⟩ := completes_expression maxDepth _ x h
      exact ⟨form, hc⟩
    | inr h =>
      obtain ⟨s, hs, hx⟩ := h
      obtain ⟨form, parts, left, _, ⟨gap₁, body, gap₂, hg₁, hg₂, ep, hd, stop⟩, er, es⟩ :=
        (reads_expression maxDepth _ s).mp hs
      subst ep es
      have hx : x.reading.rest = left := by
        rw [skipBlanks_of_head? fun c hc => (stop c hc).1, finish] at hx
        split at hx
        case isTrue  => cases hx; rfl
        case isFalse => cases hx
      rw [hx]
      exact ⟨form, hd.completable hg₁ hg₂ (by simpa using er)⟩
  obtain ⟨form, hc⟩ := completed
  cases hc
  case mk before suffix gap₁ gap₂ parts ahead completed hg₁ hg₂ _ derives =>
    refine ⟨gap ++ before, suffix, by simpa [ahead] using e, form, _,
      .mk (hg.append hg₁) hg₂ (by simpa using derives [] (by simp [Ends])), ?_⟩
    simpa using completed

end Reading

-- The text in front of a violation can be completed to one that is accepted.
theorem validate_completes {maxDepth : Nat} {text : List Char} {violation : Violation}
    (h : validate maxDepth text = .error violation) :
    ∃ before suffix progress, takeBytes? text violation.offset = some before ∧
      validate maxDepth (before ++ suffix) = .ok progress := by
  rw [validate] at h
  split at h
  case h_1 => cases h
  case h_2 x hx =>
    cases h
    obtain ⟨before, suffix, e, accepts⟩ := Reading.completes_ofText hx
    obtain ⟨progress, hp⟩ := (validate_accepts_grammar maxDepth _).mpr accepts
    refine ⟨before, suffix, progress, ?_, hp⟩
    simp [Rejection.violation, ← e]

-- An open group, a connective that is doubled, and what completes them.
theorem validate_completes_of_duplicate :
    ∃ before suffix progress, takeBytes? "(ab=c AND OR d".toList 10 = some before ∧
      validate 1 (before ++ suffix) = .ok progress := by
  have doubled : validate 1 "(ab=c AND OR d".toList = .error ⟨.duplicateConnective, 10⟩ := by cbv
  exact validate_completes doubled

end BoolSearch
