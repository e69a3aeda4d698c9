import BoolSearch.Proofs.Context
import BoolSearch.Proofs.DepthLimit
import BoolSearch.Proofs.Partition

namespace BoolSearch

open Grammar

variable {gap text rest : List Char}

theorem takeWhile_append_stop {p : Char → Bool} (h : ∀ c ∈ gap.head?, p c = false)
    (text : List Char) : (text ++ gap).takeWhile p = text.takeWhile p := by
  induction text
  case nil => exact takeWhile_run (List.forall_mem_nil _) h
  case cons c text hi => simp only [List.cons_append, List.takeWhile_cons, hi]

theorem dropWhile_append_stop {p : Char → Bool} (h : ∀ c ∈ gap.head?, p c = false)
    (text : List Char) : (text ++ gap).dropWhile p = text.dropWhile p ++ gap := by
  induction text
  case nil => exact dropWhile_run (List.forall_mem_nil _) h
  case cons c text hi =>
    simp only [List.cons_append, List.dropWhile_cons, hi]
    split <;> rfl

namespace Grammar

theorem begins_append_iff (h : IsBlanks gap) {connective : Connective} :
    Begins connective (text ++ gap) ↔ Begins connective text :=
  ⟨begins_of_begins_append h.not_letter, fun begins => begins.append gap⟩

theorem standsAlone_append_iff (h : IsBlanks gap) :
    StandsAlone (text ++ gap) ↔ StandsAlone text := by
  have ended : Alike text [] gap := .inr ⟨h.not_letter, fun _ _ hc => nomatch hc⟩
  have going : Alike text gap [] := .inr ⟨nofun, fun _ c hc => .inl (h.endsWord c hc)⟩
  constructor
  case mp  => exact fun alone => by simpa using alone.replace ended
  case mpr => exact fun alone => StandsAlone.replace going (by simpa using alone)

theorem beginsJoining_append_iff (h : IsBlanks gap) :
    BeginsJoining (text ++ gap) ↔ BeginsJoining text := by
  constructor
  case mp =>
    rintro ⟨connective, word, rest, joins, spells, e, whole⟩
    obtain ⟨back, rfl⟩ := exists_append_of_run (isLetter_of_spells spells) h.not_letter e
    rw [List.append_assoc, List.append_cancel_left_eq] at e
    refine ⟨connective, word, back, joins, spells, rfl, fun c hc => whole c ?_⟩
    rw [e, List.head?_append, hc]
    rfl
  case mpr =>
    rintro ⟨connective, word, rest, joins, spells, rfl, whole⟩
    refine ⟨connective, word, rest ++ gap, joins, spells, by simp, fun c hc => ?_⟩
    cases rest
    case nil  => exact h.endsWord c hc
    case cons => exact whole c hc

-- The equals sign of a key is no blank.
theorem beginsKeyed_append_iff (h : IsBlanks gap) :
    BeginsKeyed (text ++ gap) ↔ BeginsKeyed text := by
  constructor
  case mp =>
    rintro ⟨name, gap', rest, hn, hg, e⟩
    obtain ⟨before, _, e⟩ | ⟨ahead, e, _⟩ := cases_of_append_eq e.symm
    case inl => exact absurd (h '=' (by simp [e])) (by decide)
    case inr => exact ⟨name, gap', ahead, hn, hg, e.symm⟩
  case mpr =>
    rintro ⟨name, gap', rest, hn, hg, rfl⟩
    exact ⟨name, gap', rest ++ gap, hn, hg, by simp⟩

theorem beginsQuoted_append_iff (h : IsBlanks gap) :
    BeginsQuoted (text ++ gap) ↔ BeginsQuoted text := by
  constructor
  case mp =>
    rintro ⟨value, rest, hq, e⟩
    obtain ⟨opening, inner, c, rfl, _, quote⟩ := hq.exists_concat
    rw [List.append_assoc] at e
    obtain ⟨before, _, e⟩ | ⟨ahead, e, _⟩ := cases_of_append_eq e.symm
    case inl => exact absurd (h c (by simp [e])) (ne_true_of_eq_false (isBlank_of_isQuote quote))
    case inr => exact ⟨opening :: inner ++ [c], ahead, hq, by simp [e]⟩
  case mpr =>
    rintro ⟨value, rest, hq, rfl⟩
    exact ⟨value, rest ++ gap, hq, by simp⟩

end Grammar

section Lookaheads

variable (h : IsBlanks gap) (text : List Char)

include h

theorem keyword?_append_blanks : keyword? (text ++ gap) = keyword? text := by
  ext connective
  rw [keyword?_eq_some_iff, keyword?_eq_some_iff]
  exact begins_append_iff h

theorem joining?_append_blanks : joining? (text ++ gap) = joining? text := by
  rw [joining?, joining?, keyword?_append_blanks h]

theorem isSome_standalone?_append_blanks :
    (standalone? (text ++ gap)).isSome = (standalone? text).isSome := by
  rw [Bool.eq_iff_iff, ← Option.ne_none_iff_isSome, ← Option.ne_none_iff_isSome, ne_eq, ne_eq,
    standalone?_eq_none_iff, standalone?_eq_none_iff, standsAlone_append_iff h]

theorem nextJoins_append_blanks : nextJoins (text ++ gap) = nextJoins text := by
  rw [Bool.eq_iff_iff, nextJoins_iff, nextJoins_iff, beginsJoining_append_iff h]

theorem quoted?_append_blanks :
    quoted? (text ++ gap) = (quoted? text).map fun (value, rest) => (value, rest ++ gap) := by
  cases hq : quoted? text
  case none =>
    rw [quoted?_eq_none_iff] at hq
    exact quoted?_eq_none_iff.mpr (mt (beginsQuoted_append_iff h).mp hq)
  case some found =>
    obtain ⟨quoted, rfl⟩ := quoted?_eq_some_iff.mp hq
    exact quoted?_eq_some_iff.mpr ⟨quoted, by simp⟩

theorem key?_append_blanks : key? (text ++ gap) =
    (key? text).map fun head => { head with rest := head.rest ++ gap } := by
  cases hk : key? text
  case none =>
    rw [key?_eq_none_iff] at hk
    exact key?_eq_none_iff.mpr (mt (beginsKeyed_append_iff h).mp hk)
  case some head =>
    obtain ⟨hn, hg, rfl⟩ := key?_eq_some_iff.mp hk
    exact key?_eq_some_iff.mpr ⟨hn, hg, by simp⟩

end Lookaheads

-- What is left in front of the gap once blanks have been skipped: nothing, if nothing but the gap
-- is left.
def upTo (gap : List Char) : List Char → List Char
  | []        => []
  | c :: rest => c :: (rest ++ gap)

@[simp] theorem upTo_nil : upTo gap [] = [] := rfl

@[simp] theorem upTo_cons (c : Char) (rest : List Char) :
    upTo gap (c :: rest) = c :: (rest ++ gap) := rfl

theorem upTo_of_ne_nil (h : rest ≠ []) : upTo gap rest = rest ++ gap := by
  cases rest
  case nil  => contradiction
  case cons => rfl

@[simp] theorem isEmpty_upTo : (upTo gap rest).isEmpty = rest.isEmpty := by
  cases rest <;> rfl

-- What is the same in front of the gap as at the end is so there, too.
theorem apply_upTo {α : Type} {f : List Char → α} (h : ∀ text, f (text ++ gap) = f text)
    (rest : List Char) : f (upTo gap rest) = f rest := by
  cases rest
  case nil         => rfl
  case cons c rest => exact h (c :: rest)

theorem skipBlanks_append_blanks (h : IsBlanks gap) (text : List Char) :
    skipBlanks (text ++ gap) = upTo gap (skipBlanks text) := by
  induction text
  case nil =>
    have stop : ∀ c ∈ ([] : List Char).head?, isBlank c = false := nofun
    simpa using skipBlanks_append h stop
  case cons c text hi =>
    cases hb : isBlank c
    case true  =>
      rw [List.cons_append, skipBlanks_cons_of_blank hb, skipBlanks_cons_of_blank hb, hi]
    case false => rw [List.cons_append, skipBlanks_cons_of_not_blank hb,
      skipBlanks_cons_of_not_blank hb, upTo_cons]

theorem skipBlanks_upTo (h : IsBlanks gap) (rest : List Char) :
    skipBlanks (upTo gap rest) = upTo gap (skipBlanks rest) := by
  cases rest
  case nil         => rfl
  case cons c rest => exact skipBlanks_append_blanks h (c :: rest)

namespace Reading

variable {r r' s s' : Reading} {connective : Connective} {α β : Type}

-- Two readings that have got equally far. What is left of the second one follows from what is left
-- of the first one.
structure Abreast (extend : List Char → List Char) (r r' : Reading) : Prop where
  rest : r'.rest = extend r.rest
  progress : r'.progress = r.progress

-- In the second reading the gap stands behind what is left.
abbrev Followed (gap : List Char) : Reading → Reading → Prop :=
  Abreast (· ++ gap)

-- It does so unless nothing but the gap would be left.
abbrev Skipped (gap : List Char) : Reading → Reading → Prop :=
  Abreast (upTo gap)

-- The outcomes go through alike, or reject alike at the same place.
inductive Tallies (gap : List Char) (R : α → α → Prop) :
    Except Rejection α → Except Rejection α → Prop
  | ok {a a' : α} (h : R a a') : Tallies gap R (.ok a) (.ok a')
  | error {kind : ViolationKind} {r r' : Reading} (h : Skipped gap r r') :
    Tallies gap R (.error ⟨kind, r⟩) (.error ⟨kind, r'⟩)

theorem Tallies.bind {R : α → α → Prop} {S : β → β → Prop} {outcome outcome' : Except Rejection α}
    {f f' : α → Except Rejection β} (h : Tallies gap R outcome outcome')
    (hf : ∀ a a', outcome = .ok a → R a a' → Tallies gap S (f a) (f' a')) :
    Tallies gap S (outcome >>= f) (outcome' >>= f') := by
  cases h
  case ok a a' h => exact hf a a' rfl h
  case error h   => exact .error h

-- Does `read` do in front of the gap what it does in front of the end, if blanks have been skipped?
def IgnoresGap (gap : List Char) (R : Reading → Reading → Prop) (read : Reading → Outcome) : Prop :=
  ∀ r r', Skipped gap r r' → Tallies gap R (read r) (read r')

namespace Abreast

variable {extend : List Char → List Char}

theorem setLatest (hr : Abreast extend r r') (latest : Latest) :
    Abreast extend (r.setLatest latest) (r'.setLatest latest) :=
  ⟨hr.rest, congrArg (fun progress : Progress => { progress with latest }) hr.progress⟩

theorem setForm (hr : Abreast extend r r') (form : Form) :
    Abreast extend (r.setForm form) (r'.setForm form) :=
  ⟨hr.rest, congrArg (fun progress : Progress => { progress with form := some form }) hr.progress⟩

end Abreast

theorem Followed.skipBlanks (h : IsBlanks gap) (hr : Followed gap r r') :
    Skipped gap r.skipBlanks r'.skipBlanks :=
  ⟨by simp only [rest_skipBlanks, hr.rest, skipBlanks_append_blanks h], hr.progress⟩

namespace Skipped

theorem skipBlanks (h : IsBlanks gap) (hr : Skipped gap r r') :
    Skipped gap r.skipBlanks r'.skipBlanks :=
  ⟨by simp only [rest_skipBlanks, hr.rest, skipBlanks_upTo h], hr.progress⟩

theorem key?_rest (h : IsBlanks gap) (hr : Skipped gap r r') : key? r'.rest =
    (key? r.rest).map fun head => { head with rest := head.rest ++ gap } := by
  rw [hr.rest]
  cases r.rest
  case nil         => rfl
  case cons c rest => exact key?_append_blanks h (c :: rest)

theorem keyword?_rest (h : IsBlanks gap) (hr : Skipped gap r r') :
    keyword? r'.rest = keyword? r.rest :=
  hr.rest ▸ apply_upTo (keyword?_append_blanks h) r.rest

theorem isSome_standalone?_rest (h : IsBlanks gap) (hr : Skipped gap r r') :
    (standalone? r'.rest).isSome = (standalone? r.rest).isSome :=
  hr.rest ▸ apply_upTo (f := (standalone? · |>.isSome)) (isSome_standalone?_append_blanks h) r.rest

theorem pushConnective (hr : Skipped gap r r') (begins : Begins connective r.rest) :
    Followed gap (r.pushConnective connective) (r'.pushConnective connective) := by
  obtain ⟨word, back, e, spells⟩ := begins
  have ne : r.rest ≠ [] := e ▸ List.append_ne_nil_of_left_ne_nil (ne_nil_of_spells spells) back
  have e' : word ++ (back ++ gap) = r'.rest := by
    rw [hr.rest, upTo_of_ne_nil ne, ← e, List.append_assoc]
  refine ⟨?_, hr.progress⟩
  show r'.rest.drop connective.width = r.rest.drop connective.width ++ gap
  rw [← e, ← e', drop_width spells, drop_width spells]

theorem pushNot (h : IsBlanks gap) (hr : Skipped gap r r') (begins : Begins .not r.rest) :
    Skipped gap r.pushNot r'.pushNot := by
  rw [Reading.pushNot, Reading.pushNot, hr.progress]
  exact ((hr.pushConnective begins).skipBlanks h).setLatest _

theorem pushJoining (h : IsBlanks gap) (hr : Skipped gap r r') (begins : Begins connective r.rest) :
    Skipped gap (r.pushJoining connective) (r'.pushJoining connective) :=
  Followed.skipBlanks h ((hr.pushConnective begins).setLatest _)

end Skipped

theorem ignoresGap_refuseConnective (h : IsBlanks gap) :
    IgnoresGap gap (Skipped gap) refuseConnective := by
  intro r r' hr
  have alone := hr.isSome_standalone?_rest h
  rw [refuseConnective, refuseConnective, hr.progress]
  cases hs : standalone? r.rest <;> cases hs' : standalone? r'.rest <;> simp [hs, hs'] at alone
  case none.none => exact .ok hr
  case some.some => exact .error hr

theorem ignoresGap_value (h : IsBlanks gap) : IgnoresGap gap (Followed gap) value := by
  intro r r' hr
  have rest := hr.rest
  cases e : r.rest
  case nil =>
    rw [e, upTo_nil] at rest
    simp only [value, e, rest]
    exact .error hr
  case cons c text =>
    have run := takeWhile_append_stop h.not_bare (c :: text)
    have after := dropWhile_append_stop h.not_bare (c :: text)
    have quoted := quoted?_append_blanks h (c :: text)
    rw [List.cons_append] at run after quoted
    rw [e, upTo_cons] at rest
    simp only [value, e, rest, run, after, quoted]
    split
    case isTrue =>
      cases quoted? (c :: text)
      case none => exact .error hr
      case some => exact .ok ⟨rfl, hr.progress⟩
    case isFalse =>
      cases (c :: text).takeWhile isBare
      case nil  => exact .error hr
      case cons => exact .ok ⟨rfl, hr.progress⟩

theorem ignoresGap_formed (h : IsBlanks gap) : IgnoresGap gap (Followed gap) formed := by
  intro r r' hr
  rw [formed, formed, hr.key?_rest h, hr.progress]
  cases key? r.rest
  case some head =>
    simp only [Option.map_some]
    split
    case isTrue  => exact .error hr
    case isFalse =>
      refine ignoresGap_value h _ _ ⟨?_, (hr.setForm .keyed).progress⟩
      exact skipBlanks_append_blanks h head.rest
  case none =>
    simp only [Option.map_none]
    split
    case isTrue  => exact .error hr
    case isFalse => exact ignoresGap_value h _ _ (hr.setForm .plain)

theorem ignoresGap_leaf (h : IsBlanks gap) : IgnoresGap gap (Followed gap) leaf := by
  intro r r' hr
  have formed := ignoresGap_formed h r r' hr
  rw [leaf, leaf]
  generalize r.formed = outcome at formed
  generalize r'.formed = outcome' at formed
  cases formed
  case ok h    => exact .ok (h.setLatest .block)
  case error h => exact .error h

theorem ignoresGap_negation (h : IsBlanks gap) : IgnoresGap gap (Skipped gap) negation := by
  intro r r' hr
  rw [negation, negation, hr.keyword?_rest h]
  split
  case isFalse => exact .ok hr
  case isTrue hk =>
    have negated := hr.pushNot h (keyword?_eq_some_iff.mp hk)
    rw [negated.rest, isEmpty_upTo]
    split
    case isTrue  => exact .error negated
    case isFalse => exact ignoresGap_refuseConnective h _ _ negated

theorem ignoresGap_groupEnd (h : IsBlanks gap) : IgnoresGap gap (Followed gap) groupEnd := by
  intro r r' hr
  have skipped := hr.skipBlanks h
  have rest := skipped.rest
  rw [groupEnd, groupEnd]
  generalize r.skipBlanks = s at skipped rest
  generalize r'.skipBlanks = s' at skipped rest
  cases e : s.rest
  case nil =>
    rw [e, upTo_nil] at rest
    rw [rest]
    exact .error skipped
  case cons c text =>
    rw [e, upTo_cons] at rest
    rw [rest]
    by_cases hc : c = ')'
    case pos =>
      subst hc
      exact .ok ⟨rfl, by simp [closeGroup, push, skipped.progress]⟩
    case neg => simpa [hc, reject] using Tallies.error skipped

def InsideIgnoresGap (gap : List Char) (inside : Option (Reading → Outcome)) : Prop :=
  ∀ read ∈ inside, IgnoresGap gap (Skipped gap) read

theorem tallies_group {inside : Option (Reading → Outcome)} (h : IsBlanks gap)
    (hi : InsideIgnoresGap gap inside) (hr : Skipped gap r r') (rest : List Char) :
    Tallies gap (Followed gap) (r.group inside rest) (r'.group inside (rest ++ gap)) := by
  cases inside
  case none => exact .error hr
  case some read =>
    have opened : Followed gap (r.openGroup rest) (r'.openGroup (rest ++ gap)) :=
      ⟨rfl, by simp [openGroup, push, hr.progress]⟩
    exact (hi read rfl _ _ (opened.skipBlanks h)).bind fun s s' _ => ignoresGap_groupEnd h s s'

theorem ignoresGap_operand {inside : Option (Reading → Outcome)} (h : IsBlanks gap)
    (hi : InsideIgnoresGap gap inside) : IgnoresGap gap (Followed gap) (operand inside) := by
  intro r r' hr
  have rest := hr.rest
  cases e : r.rest
  case nil =>
    rw [e, upTo_nil] at rest
    rw [operand_eq_leaf (by simp [e]), operand_eq_leaf (by simp [rest])]
    exact ignoresGap_leaf h r r' hr
  case cons c text =>
    rw [e, upTo_cons] at rest
    by_cases hc : c = '('
    case pos =>
      subst hc
      rw [operand_eq_group e.symm, operand_eq_group rest.symm]
      exact tallies_group h hi hr text
    case neg =>
      rw [operand_eq_leaf (by simpa [e] using hc), operand_eq_leaf (by simpa [rest] using hc)]
      exact ignoresGap_leaf h r r' hr

theorem ignoresGap_block {inside : Option (Reading → Outcome)} (h : IsBlanks gap)
    (hi : InsideIgnoresGap gap inside) : IgnoresGap gap (Followed gap) (block inside) := by
  intro r r' hr
  have skipped := hr.skipBlanks h
  rw [block, block, skipped.rest, isEmpty_upTo]
  split
  case isTrue => exact .error skipped
  case isFalse =>
    have refused := ignoresGap_refuseConnective h _ _ skipped
    have negated := refused.bind fun s s' _ => ignoresGap_negation h s s'
    exact negated.bind fun s s' _ => ignoresGap_operand h hi s s'

inductive Next.Skipped (gap : List Char) : Next → Next → Prop
  | done {s s' : Reading} (h : Reading.Skipped gap s s') : Next.Skipped gap (.done s) (.done s')
  | more {s s' : Reading} (h : Reading.Skipped gap s s') : Next.Skipped gap (.more s) (.more s')

theorem tallies_join (h : IsBlanks gap) (hr : Skipped gap r r')
    (begins : Begins connective r.rest) :
    Tallies gap (Next.Skipped gap) (r.join connective) (r'.join connective) := by
  have joined := hr.pushJoining h begins
  have rest := joined.rest
  rw [join, join]
  generalize r.pushJoining connective = s at joined rest
  generalize r'.pushJoining connective = s' at joined rest
  cases e : s.rest
  case nil =>
    rw [e, upTo_nil] at rest
    rw [rest]
    exact .error joined
  case cons c text =>
    rw [e, upTo_cons] at rest
    rw [rest]
    by_cases hc : c = ')'
    case pos =>
      subst hc
      exact .error joined
    case neg => simpa [hc] using Tallies.ok (Next.Skipped.more joined)

theorem tallies_proceed (h : IsBlanks gap) (hr : Skipped gap r r') :
    Tallies gap (Next.Skipped gap) r.proceed r'.proceed := by
  have rest := hr.rest
  rw [proceed, proceed, hr.progress]
  cases e : r.rest
  case nil =>
    rw [e, upTo_nil] at rest
    rw [rest]
    exact .ok (.done hr)
  case cons c text =>
    have joins := nextJoins_append_blanks h (c :: text)
    have joining := joining?_append_blanks h (c :: text)
    rw [List.cons_append] at joins joining
    rw [e, upTo_cons] at rest
    simp only [rest, joins, joining]
    split
    case isTrue => exact .error hr
    case isFalse =>
      cases hj : joining? (c :: text)
      case some connective =>
        rw [← e] at hj
        exact tallies_join h hr (joining?_eq_some_iff.mp hj).2
      case none =>
        dsimp only
        split
        case isTrue  => exact .ok (.done hr)
        case isFalse => exact .ok (.more hr)

-- By induction on the run, which goes on at the same blocks.
theorem ignoresGap_sequence {read : Reading → Outcome} (h : IsBlanks gap) (ha : Advances read)
    (hread : IgnoresGap gap (Followed gap) read) :
    IgnoresGap gap (Skipped gap) (sequence read) := by
  intro r
  induction r using sequence_induction ha with
  | step r hi =>
    intro r' hr
    rw [sequence_eq_bind ha, sequence_eq_bind ha]
    refine (hread r r' hr).bind fun s s' hs followed => ?_
    have next := tallies_proceed h (followed.skipBlanks h)
    rw [continued, continued, Reading.next, Reading.next]
    generalize hn : s.skipBlanks.proceed = outcome at next
    generalize s'.skipBlanks.proceed = outcome' at next
    cases next
    case error h => exact .error h
    case ok next =>
      cases next
      case done h => exact .ok h
      case more h => exact hi s _ hs hn _ h

-- By induction on the number of groups that may be opened inside each other.
theorem ignoresGap_expression (h : IsBlanks gap) (room : Nat) :
    IgnoresGap gap (Skipped gap) (expression room) := by
  induction room
  case zero =>
    rw [expression_eq_sequence]
    refine ignoresGap_sequence h (reads_nested_block 0).advances (ignoresGap_block h ?_)
    nofun
  case succ room hi =>
    rw [expression_eq_sequence]
    refine ignoresGap_sequence h (reads_nested_block (room + 1)).advances (ignoresGap_block h ?_)
    rintro _ ⟨⟩
    exact hi

theorem ignoresGap_finish : IgnoresGap gap (Skipped gap) finish := by
  intro r r' hr
  rw [finish, finish, hr.progress, hr.rest, isEmpty_upTo]
  split
  case isTrue => exact .error hr
  case isFalse =>
    split
    case isTrue  => exact .error hr
    case isFalse => exact .ok hr

-- A text with blanks around it is read as the text is.
theorem tallies_ofText {gap' : List Char} (hg : IsBlanks gap') (h : IsBlanks gap) (maxDepth : Nat)
    (text : List Char) :
    Tallies gap (Skipped gap) (ofText maxDepth text) (ofText maxDepth (gap' ++ (text ++ gap))) := by
  have skipped :
      Skipped gap (start text).skipBlanks (start (gap' ++ (text ++ gap))).skipBlanks := by
    refine ⟨?_, rfl⟩
    show BoolSearch.skipBlanks (gap' ++ (text ++ gap)) = upTo gap (BoolSearch.skipBlanks text)
    rw [← skipBlanks_append_blanks h]
    exact List.dropWhile_append_of_pos hg
  exact (ignoresGap_expression h maxDepth _ _ skipped).bind fun s s' _ hs =>
    ignoresGap_finish _ _ (hs.skipBlanks h)

end Reading

section Validation

variable {before behind : List Char} (hb : IsBlanks before) (hg : IsBlanks behind)

include hb hg

theorem validate_padded_of_ok {maxDepth : Nat} {progress : Progress}
    (h : validate maxDepth text = .ok progress) :
    validate maxDepth (before ++ (text ++ behind)) = .ok progress := by
  have tallies := Reading.tallies_ofText hb hg maxDepth text
  rw [validate] at h ⊢
  generalize Reading.ofText maxDepth text = outcome at h tallies
  generalize Reading.ofText maxDepth (before ++ (text ++ behind)) = outcome' at tallies
  cases tallies
  case ok alike => exact (congrArg Except.ok alike.progress).trans h
  case error    => cases h

-- What is left at a violation is followed by the blanks behind the text, if anything is left.
theorem validate_padded_of_error {maxDepth : Nat} {kind : ViolationKind} {offset : Nat}
    (h : validate maxDepth text = .error ⟨kind, offset⟩) : ∃ rest,
      offset + byteLength rest = byteLength text ∧
      validate maxDepth (before ++ (text ++ behind)) = .error ⟨kind, byteLength before +
        (byteLength text + byteLength behind) - byteLength (upTo behind rest)⟩ := by
  have tallies := Reading.tallies_ofText hb hg maxDepth text
  have whole := congrArg byteLength (Reading.textOf_reached maxDepth text)
  rw [byteLength_append] at whole
  rw [validate] at h ⊢
  generalize Reading.ofText maxDepth text = outcome at h tallies whole
  generalize Reading.ofText maxDepth (before ++ (text ++ behind)) = outcome' at tallies
  cases tallies
  case ok             => cases h
  case error r r' alike =>
    cases h
    refine ⟨r.rest, ?_, ?_⟩
    · simp only [Reading.reached] at whole ⊢
      omega
    · simp [Rejection.violation, alike.rest]

end Validation

namespace Grammar

variable {previous : Option TokenKind} {scan : Scan}

theorem not_beginsKeyed_append (h : ¬BeginsKeyed text) (hg : IsBlanks gap) :
    ¬BeginsKeyed (text ++ gap) :=
  mt (beginsKeyed_append_iff hg).mp h

theorem not_beginsQuoted_append (h : ¬BeginsQuoted text) (hg : IsBlanks gap) :
    ¬BeginsQuoted (text ++ gap) :=
  mt (beginsQuoted_append_iff hg).mp h

theorem KeyValue.append_blanks {value : List Lexeme} (h : KeyValue text value rest)
    (hg : IsBlanks gap) : KeyValue (text ++ gap) value (rest ++ gap) := by
  have stop {rest : List Char} (h : ∀ c ∈ rest.head?, isBare c = false) :
      ∀ c ∈ (rest ++ gap).head?, isBare c = false := by
    cases rest
    case nil  => exact hg.not_bare
    case cons => exact h
  cases h
  case missing stops     => exact .missing (stop stops)
  case quoted hq e       => exact .quoted hq (by simp [← e])
  case unclosed quote hn => exact .unclosed quote (not_beginsQuoted_append hn hg)
  case bare hb e => exact .bare ⟨hb.nonempty, hb.bare, hb.unquoted, stop hb.whole⟩ (by simp [← e])

-- A rule takes the same in front of blanks as at the end. Only a key without a value takes them
-- too, since the blanks behind its equals sign belong to it.
theorem Takes.append_blanks (h : Takes previous text scan) (hg : IsBlanks gap) :
    Takes previous (text ++ gap) ⟨scan.head, scan.more, scan.rest ++ gap⟩ ∨
    scan.rest = [] ∧
      Takes previous (text ++ gap) ⟨scan.head, scan.more ++ Scan.blanks gap, []⟩ := by
  have unworded {text : List Char} (h : ∀ connective, ¬Begins connective text) :
      ∀ connective, ¬Begins connective (text ++ gap) :=
    fun connective => mt (begins_append_iff hg).mp (h connective)
  cases h
  case blank hb            => exact .inl (.blank hb)
  case connective spells e => exact .inl (.connective spells (by simp [← e]))
  case opening             => exact .inl .opening
  case closing             => exact .inl .closing
  case quoted starts hq e  => exact .inl (.quoted starts hq (by simp [← e]))
  case bare hb hp hw hk hq => exact .inl (.bare hb hp (unworded hw)
    (not_beginsKeyed_append hk hg) fun starts => not_beginsQuoted_append (hq starts) hg)
  case key name gap₁ gap₂ tail rest value hn hg₁ hg₂ stop hv hw e =>
    cases tail
    case nil =>
      cases Scan.keyValue_eq_iff.mpr hv
      refine .inr ⟨rfl, ?_⟩
      simpa [Scan.blanks] using Takes.key hn hg₁ (hg₂.append hg) (by simp) (.missing (by simp))
        (unworded hw) (by simp [← e])
    case cons c tail =>
      have stop' : ∀ d ∈ (c :: tail ++ gap).head?, isBlank d = false := stop
      exact .inl (.key hn hg₁ hg₂ stop' (hv.append_blanks hg) (unworded hw) (by simp [← e]))

end Grammar

-- A blank in front makes no difference to a quote.
theorem lexemes_behind_blank (text : List Char) :
    lexemes (some .blank) text = lexemes none text := by
  cases text
  case nil  => simp
  case cons =>
    rw [lexemes, lexemes]
    rfl

theorem lexemes_blanks (h : IsBlanks gap) (previous : Option TokenKind) :
    lexemes previous gap = Scan.blanks gap := by
  induction gap generalizing previous
  case nil => simp [Scan.blanks]
  case cons c gap hi =>
    rw [lexemes_of_takes_one (.blank (h c (by simp))), hi fun c hc => h c (by simp [hc])]
    rfl

theorem lexemes_blanks_append (h : IsBlanks gap) (text : List Char) :
    lexemes none (gap ++ text) = Scan.blanks gap ++ lexemes none text := by
  induction gap
  case nil => rfl
  case cons c gap hi =>
    rw [List.cons_append, lexemes_of_takes_one (.blank (h c (by simp))), lexemes_behind_blank,
      hi fun c hc => h c (by simp [hc])]
    rfl

-- By induction on the rules that are applied, until one of them has taken the last character.
theorem lexemes_append_blanks (h : IsBlanks gap) (previous : Option TokenKind) (text : List Char) :
    lexemes previous (text ++ gap) = lexemes previous text ++ Scan.blanks gap := by
  fun_induction lexemes previous text
  case case1 previous => exact lexemes_blanks h previous
  case case2 previous c text scan hi =>
    have fits : Takes previous (c :: text) scan := Scan.takes_next
    obtain takes | ⟨ended, takes⟩ := fits.append_blanks h
    case inl =>
      rw [lexemes_of_takes takes, List.append_assoc, ← hi]
      rfl
    case inr =>
      rw [lexemes_of_takes takes, ended]
      simp [Scan.lexemes]

namespace Token

def shift (distance : Nat) (token : Token) : Token :=
  ⟨token.kind, ⟨distance + token.span.start, distance + token.span.stop⟩⟩

theorem layout_add (distance offset : Nat) (lexemes : List Lexeme) :
    layout (distance + offset) lexemes = (layout offset lexemes).map (shift distance) := by
  induction lexemes generalizing offset
  case nil => rfl
  case cons lexeme lexemes hi =>
    rw [layout, layout, Nat.add_assoc, hi]
    rfl

end Token

theorem tokenize_padded {before behind : List Char} (hb : IsBlanks before) (hg : IsBlanks behind)
    (text : List Char) : tokenize (before ++ (text ++ behind)) =
      Token.layout 0 (Scan.blanks before) ++
        ((tokenize text).map (Token.shift (byteLength before)) ++
          Token.layout (byteLength before + byteLength text) (Scan.blanks behind)) := by
  have whole : (lexemes none text).flatMap Lexeme.text = text := flatMap_text_lexemes none text
  rw [tokenize, lexemes_blanks_append hb, lexemes_append_blanks hg, Token.layout_append,
    Token.layout_append, Scan.flatMap_text_blanks, whole, Nat.zero_add, tokenize,
    ← Token.layout_add, Nat.add_zero]

-- Blanks around a text leave the result of reading it as it is and the place of a violation where
-- it is in the text. Only a violation at the end lies behind the blanks there. The tokens are those
-- of the text, with a token for each of the blanks around them.
theorem padding_shifts {before behind : List Char} (hb : IsBlanks before) (hg : IsBlanks behind)
    (maxDepth : Nat) (text : List Char) :
    (∀ progress, validate maxDepth text = .ok progress →
      validate maxDepth (before ++ (text ++ behind)) = .ok progress) ∧
    (∀ kind offset, validate maxDepth text = .error ⟨kind, offset⟩ → offset ≤ byteLength text ∧
      (offset < byteLength text → validate maxDepth (before ++ (text ++ behind)) =
        .error ⟨kind, byteLength before + offset⟩) ∧
      (offset = byteLength text → validate maxDepth (before ++ (text ++ behind)) =
        .error ⟨kind, byteLength before + byteLength text + byteLength behind⟩)) ∧
    tokenize (before ++ (text ++ behind)) =
      Token.layout 0 (Scan.blanks before) ++
        ((tokenize text).map (Token.shift (byteLength before)) ++
          Token.layout (byteLength before + byteLength text) (Scan.blanks behind)) := by
  refine ⟨fun progress => validate_padded_of_ok hb hg, fun kind offset h => ?_,
    tokenize_padded hb hg text⟩
  obtain ⟨rest, total, e⟩ := validate_padded_of_error hb hg h
  refine ⟨by omega, fun inside => ?_, fun ended => ?_⟩
  case refine_1 =>
    have ne : rest ≠ [] := by
      rintro rfl
      simp at total
      omega
    rw [e, upTo_of_ne_nil ne, byteLength_append]
    congr 2
    omega
  case refine_2 =>
    have nil : rest = [] := by
      by_contra ne
      have := byteLength_pos ne
      omega
    rw [e, nil, upTo_nil, byteLength_nil, Nat.sub_zero, Nat.add_assoc]

-- A key without a value is refused at the end, behind the blanks there. They are tokens too.
theorem padding_shifts_of_unfinished_key :
    IsBlanks [' '] ∧ IsBlanks ['\t', ' '] ∧
    validate 1 "TI=".toList = .error ⟨.valueExpected, 3⟩ ∧
    validate 1 " TI=\t ".toList = .error ⟨.valueExpected, 6⟩ ∧
    tokenize " TI=\t ".toList = [⟨.blank, ⟨0, 1⟩⟩, ⟨.key, ⟨1, 3⟩⟩, ⟨.equals, ⟨3, 4⟩⟩,
      ⟨.blank, ⟨4, 5⟩⟩, ⟨.blank, ⟨5, 6⟩⟩] := by
  have before : IsBlanks [' '] := isBlanks_singleton (by decide)
  have behind : IsBlanks ['\t', ' '] := (isBlanks_singleton (by decide)).append before
  have refused : validate 1 "TI=".toList = .error ⟨.valueExpected, 3⟩ := by cbv
  have tokens : tokenize "TI=".toList = [⟨.key, ⟨0, 2⟩⟩, ⟨.equals, ⟨2, 3⟩⟩] := by cbv
  obtain ⟨_, error, padded⟩ := padding_shifts before behind 1 "TI=".toList
  refine ⟨before, behind, refused, (error _ _ refused).2.2 (by decide), padded.trans ?_⟩
  rw [tokens]
  rfl

end BoolSearch
