import BoolSearch.Proofs.Completion
import BoolSearch.Proofs.History
import BoolSearch.Proofs.Partition

namespace BoolSearch

open Grammar

-- Is `rest` where a block starts or, behind a `NOT`, what that negates?
structure OperandAt (parts : List Lexeme) (rest : List Char) : Prop where
  awaits : (Stage.operand.after parts).Awaits rest
  begins : ∃ c ∈ rest.head?, isBlank c = false
  unjoined : ¬StandsAlone rest
  unnegated : Begins .not rest → lastBut [.blank] parts = some (.connective .not)

inductive Mixes (parts : List Lexeme) (rest : List Char) : Prop
  | keyed (begins : BeginsKeyed rest)
    (plain : ∀ form ∈ Stage.operand.leafForms parts, form = .plain)
  | plain (begins : ¬BeginsKeyed rest)
    (keyed : ∀ form ∈ Stage.operand.leafForms parts, form = .keyed)

inductive LacksValue (parts : List Lexeme) (rest : List Char) : Prop
  -- An `AND` or `OR` stands there, and it follows no other one.
  | joining (awaits : (Stage.operand.after parts).Awaits rest) (alone : StandsAlone rest)
    (single : ¬EndsJoining [.blank, .paren .opening] parts)
  | ends (nil : rest = []) (behind : Stage.operand.after parts = .valued ∨
    lastBut [.blank] parts = some (.connective .not))
  | stop {c : Char} (head : c ∈ rest.head?) (stop : c = ')' ∨ c = '=' ∨ c = '\\')
    (behind : Stage.operand.after parts = .valued ∨ OperandAt parts rest)
  | opening (head : '(' ∈ rest.head?) (behind : Stage.operand.after parts = .valued)

-- When there is a violation of this kind at `rest`, behind `parts`, with at most `limit` groups
-- open at a time. Three of the kinds never come up.
def Justifies (limit : Nat) (parts : List Lexeme) (rest : List Char) : ViolationKind → Prop
  | .unexpectedEnd | .missingClosingParen => rest = []
  | .unterminatedQuote =>
    (∃ c ∈ rest.head?, isQuote c) ∧ ∀ value, value <+: rest → ¬IsQuoted value
  | .missingConnective =>
    Stage.operand.after parts = .closed ∧ (∃ c ∈ rest.head?, isLetter c ∨ isQuote c) ∧
      ¬BeginsJoining rest
  | .expressionExpectedAfterConnective =>
    (∀ c ∈ rest.head?, c = ')') ∧ ∃ before connective word gap, connective ≠ .not ∧
      Spells connective word ∧ IsBlanks gap ∧ before ++ word ++ gap = textOf parts
  | .trailingCharacters =>
    ∃ c ∈ rest.head?, isBlank c = false ∧ isLetter c = false ∧ isQuote c = false
  | .malformedExpression => '(' ∈ rest.head? ∧ opened parts = closed parts + limit
  | .mixedExpressionTypes =>
    OperandAt parts rest ∧ '(' ∉ rest.head? ∧ Stage.operand.leafForms parts ≠ [] ∧
      Mixes parts rest
  | .duplicateConnective =>
    (Stage.operand.after parts).Awaits rest ∧ StandsAlone rest ∧
      EndsJoining [.blank, .paren .opening] parts
  | .valueExpected => LacksValue parts rest
  | .keyExpected | .equalsExpected | .unbalancedParens => False

namespace Reading

variable {r s : Reading} {x : Rejection} {post post' : Reading → Prop}

-- Is the violation justified where it is reported? That a group is one too many can only be said
-- where the limit is known.
def Sound (x : Rejection) : Prop :=
  x.kind ≠ .malformedExpression →
    ∀ limit, Justifies limit x.reading.lexemes x.reading.rest x.kind

-- A reader ends in a reading with this property or in a violation that is justified.
inductive Meets (post : Reading → Prop) : Outcome → Prop
  | ok {s : Reading} (h : post s) : Meets post (.ok s)
  | error {x : Rejection} (sound : Sound x) : Meets post (.error x)

theorem Meets.reject {kind : ViolationKind}
    (h : ∀ limit, Justifies limit r.lexemes r.rest kind) : Meets post (r.reject kind) :=
  .error fun _ => h

theorem Meets.sound (h : Meets post (.error x)) : Sound x := by
  cases h
  case error sound => exact sound

theorem Meets.bind {outcome : Outcome} {f : Reading → Outcome} (h : Meets post outcome)
    (hf : ∀ s, outcome = .ok s → post s → Meets post' (f s)) : Meets post' (outcome >>= f) := by
  cases h
  case ok s h      => exact hf s rfl h
  case error sound => exact .error sound

theorem Meets.imp {outcome : Outcome} (h : Meets post outcome) (hp : ∀ s, post s → post' s) :
    Meets post' outcome := by
  cases h
  case ok s h      => exact .ok (hp s h)
  case error sound => exact .error sound

structure Before (r : Reading) : Prop where
  remembers : Remembers r
  awaits : r.stage.Awaits (BoolSearch.skipBlanks r.rest)

structure AtOperand (r : Reading) : Prop where
  remembers : Remembers r
  position : OperandAt r.lexemes r.rest

structure Behind (r : Reading) : Prop where
  remembers : Remembers r
  closed : r.stage = .closed
  latest : r.progress.latest = .block

structure Done (r : Reading) : Prop where
  behind : Behind r
  stops : Stops r.isGrouped r.rest

theorem meets_refuseConnective (h : Remembers r) (awaits : r.stage.Awaits r.rest) :
    Meets (fun s => s = r ∧ ¬StandsAlone r.rest) r.refuseConnective := by
  cases e : r.refuseConnective
  case ok s => exact .ok (refuseConnective_eq_ok_iff.mp e).symm
  case error x =>
    rw [refuseConnective] at e
    split at e
    case h_1 => cases e
    case h_2 hs =>
      cases e
      have alone : StandsAlone r.rest := by
        by_contra hn
        rw [standalone?_eq_none_iff.mpr hn] at hs
        cases hs
      refine .error fun _ limit => ?_
      by_cases hl : r.progress.latest = .connective
      case pos =>
        rw [if_pos hl]
        exact ⟨awaits, alone, h.latest.mp hl⟩
      case neg =>
        rw [if_neg hl]
        exact .joining awaits alone (mt h.latest.mpr hl)

theorem lexemes_pushNot (r : Reading) : ∃ word gap,
    r.pushNot.lexemes = r.lexemes ++ ⟨.connective .not, word⟩ :: Scan.blanks gap :=
  ⟨_, _, by
    rw [pushNot, pushConnective, push_eq_along, skipBlanks, pushBlanks_eq_along, along_along,
      lexemes_setLatest, lexemes_along]
    rfl⟩

theorem latest_pushNot (r : Reading) : r.pushNot.progress.latest ≠ .connective := by
  simp only [pushNot, setLatest]
  split
  case isTrue  => simp
  case isFalse => assumption

theorem Remembers.pushNot (h : Remembers r) : Remembers r.pushNot := by
  have ⟨word, gap, e⟩ := lexemes_pushNot r
  exact h.connective word gap e rfl (iff_of_false (latest_pushNot r) (by simp))

theorem stage_pushNot (r : Reading) : r.pushNot.stage = .operand := by
  have ⟨word, gap, e⟩ := lexemes_pushNot r
  simp [stage, e, Stage.next]

theorem lastBut_pushNot (r : Reading) :
    lastBut [.blank] r.pushNot.lexemes = some (.connective .not) := by
  have ⟨word, gap, e⟩ := lexemes_pushNot r
  have e : r.pushNot.lexemes = r.lexemes ++ [⟨.connective .not, word⟩] ++ Scan.blanks gap := by
    simp [e]
  rw [e, lastBut_blanks (by simp), lastBut_concat, if_neg (by simp)]

theorem exists_head_not_blank {text : List Char} (h : BoolSearch.skipBlanks text ≠ []) :
    ∃ c ∈ (BoolSearch.skipBlanks text).head?, isBlank c = false := by
  have ⟨c, rest, e⟩ := List.exists_cons_of_ne_nil h
  have head : c ∈ (BoolSearch.skipBlanks text).head? := by simp [e]
  exact ⟨c, head, head?_skipBlanks text c head⟩

theorem meets_negation (h : Remembers r) (awaits : r.stage.Awaits r.rest)
    (begins : ∃ c ∈ r.rest.head?, isBlank c = false) (unjoined : ¬StandsAlone r.rest) :
    Meets AtOperand r.negation := by
  by_cases negated : Begins .not r.rest
  case neg =>
    rw [negation_of_not_begins negated]
    exact .ok ⟨h, awaits, begins, unjoined, fun hn => absurd hn negated⟩
  case pos =>
    by_cases hn : r.pushNot.rest = []
    case pos =>
      rw [negation, if_pos (keyword?_eq_some_iff.mpr negated), if_pos (by simp [hn])]
      exact .reject fun _ => .ends hn (.inr (lastBut_pushNot r))
    case neg =>
      rw [negation_of_begins negated hn]
      refine (meets_refuseConnective h.pushNot (.inl (stage_pushNot r))).imp ?_
      rintro _ ⟨rfl, unjoined⟩
      exact ⟨h.pushNot, .inl (stage_pushNot r), exists_head_not_blank hn, unjoined,
        fun _ => lastBut_pushNot r⟩

-- What ends a bare value at its start: with blanks out of the way, only a few characters do.
theorem lacksValue_of_stop {c : Char} {parts : List Lexeme} {rest : List Char}
    (head : c ∈ rest.head?) (blank : isBlank c = false) (stop : isBare c = false)
    (position : Stage.operand.after parts = .valued ∨ OperandAt parts rest ∧ '(' ∉ rest.head?) :
    LacksValue parts rest := by
  have stops : c ∈ bareStops := by simpa [isBare, blank] using stop
  have behind : Stage.operand.after parts = .valued ∨ OperandAt parts rest :=
    position.imp_right And.left
  simp only [bareStops, List.mem_cons, List.not_mem_nil, or_false] at stops
  obtain rfl | rfl | rfl | rfl := stops
  · exact .stop head (.inl rfl) behind
  · exact .stop head (.inr (.inl rfl)) behind
  · exact .opening head (position.resolve_right fun h => h.2 head)
  · exact .stop head (.inr (.inr rfl)) behind

theorem meets_value (blank : ∀ c ∈ r.rest.head?, isBlank c = false)
    (position : r.stage = .valued ∨ OperandAt r.lexemes r.rest ∧ '(' ∉ r.rest.head?) :
    Meets (fun _ => True) r.value := by
  rw [value]
  split
  case h_1 e =>
    refine .reject fun _ => .ends e ?_
    cases position with
    | inl valued => exact .inl valued
    | inr h      =>
      have ⟨c, hc, _⟩ := h.1.begins
      simp [e] at hc
  case h_2 c text e =>
    have head : c ∈ r.rest.head? := by simp [e]
    split
    case isTrue quote =>
      split
      case h_1 => exact .ok trivial
      case h_2 hq =>
        refine .reject fun _ => ⟨⟨c, head, quote⟩, fun value hv closed => ?_⟩
        have ⟨after, e⟩ := hv
        rw [quoted?_eq_some_iff.mpr ⟨closed, e⟩] at hq
        cases hq
    case isFalse =>
      split
      case h_2 => exact .ok trivial
      case h_1 hb =>
        refine .reject fun _ => lacksValue_of_stop head (blank c head) ?_ position
        rw [e, List.takeWhile_cons] at hb
        exact eq_false_of_ne_true fun bare => by simp [bare] at hb

theorem stage_pushKey {head : KeyHead} (r : Reading) : (r.pushKey head).stage = .valued := by
  simp [pushKey, push_eq_along, pushBlanks_eq_along, Stage.next]

theorem meets_formed (h : AtOperand r) (ungrouped : '(' ∉ r.rest.head?) :
    Meets (fun _ => True) r.formed := by
  have blank : ∀ c ∈ r.rest.head?, isBlank c = false := by
    obtain ⟨c, hc, hb⟩ := h.position.begins
    intro d hd
    cases Option.mem_unique hc hd
    exact hb
  rw [formed]
  split
  case h_1 head hk =>
    split
    case isTrue hf =>
      obtain ⟨mixed, forms⟩ := h.remembers.form_eq hf
      obtain ⟨hn, hg, e⟩ := key?_eq_some_iff.mp hk
      exact .reject fun _ => ⟨h.position, ungrouped, mixed, .keyed ⟨_, _, _, hn, hg, e⟩ forms⟩
    case isFalse => exact meets_value (head?_skipBlanks _) (.inl (stage_pushKey _))
  case h_2 hk =>
    split
    case isTrue hf =>
      obtain ⟨mixed, forms⟩ := h.remembers.form_eq hf
      exact .reject fun _ => ⟨h.position, ungrouped, mixed, .plain (key?_eq_none_iff.mp hk) forms⟩
    case isFalse => exact meets_value blank (.inr ⟨h.position, ungrouped⟩)

theorem Stage.ne_valued_of_awaits {stage : Stage} {text : List Char} (h : stage.Awaits text) :
    stage ≠ .valued := by
  rintro rfl
  exact Stage.not_awaits_valued h

theorem meets_leaf (h : AtOperand r) (ungrouped : '(' ∉ r.rest.head?) : Meets Behind r.leaf := by
  cases e : r.leaf
  case ok s =>
    obtain ⟨form, parts, rest, ha, hl, _, rfl⟩ := exists_isLeaf_of_leaf e
    have hs : r.stage ≠ .valued := Stage.ne_valued_of_awaits h.position.awaits
    exact .ok ⟨h.remembers.past hs ha hl, stage_past hl, rfl⟩
  case error x =>
    have formed := meets_formed h ungrouped
    rw [leaf] at e
    cases hf : r.formed with
    | ok s    => simp [hf, Except.map] at e
    | error y =>
      rw [hf] at formed e
      cases e
      exact .error formed.sound

theorem Behind.skipBlanks (h : Behind r) : Behind r.skipBlanks :=
  ⟨h.remembers.skipBlanks, stage_skipBlanks.trans h.closed, h.latest⟩

theorem meets_groupEnd (h : Done r) (grouped : r.isGrouped) : Meets Behind r.groupEnd := by
  have stops := h.stops
  rw [grouped] at stops
  rw [groupEnd, skipBlanks_of_head? fun c hc => (stops c hc).1]
  split
  case h_1 rest e => exact .ok ⟨h.behind.remembers.closeGroup, stage_closeGroup, rfl⟩
  case h_2 open' =>
    refine .reject fun _ => ?_
    cases e : r.rest with
    | nil         => rfl
    | cons c rest =>
      have closing := (stops c (by simp [e])).2.resolve_right (by simp)
      subst closing
      exact absurd e (open' rest)

structure SettlesInside (inside : Option (Reading → Outcome)) : Prop where
  keeps : ∀ read ∈ inside, KeepsDepth read
  meets : ∀ read ∈ inside, ∀ r, Before r → Meets Done (read r)

theorem meets_operand {inside : Option (Reading → Outcome)} (h : AtOperand r)
    (hi : SettlesInside inside) : Meets Behind (r.operand inside) := by
  rw [operand]
  split
  case h_2 closed =>
    refine meets_leaf h fun head => ?_
    obtain ⟨rest, e⟩ := List.head?_eq_some_iff.mp head
    exact closed rest e
  case h_1 rest e =>
    cases inside with
    | none      => exact .error fun malformed => absurd rfl malformed
    | some read =>
      have before : Before (r.openGroup rest).skipBlanks :=
        ⟨h.remembers.openGroup.skipBlanks, .inl (stage_skipBlanks.trans stage_openGroup)⟩
      refine (hi.meets read rfl _ before).bind fun s hs done => meets_groupEnd done ?_
      rw [isGrouped, hi.keeps read rfl _ _ hs]
      exact isGrouped_openGroup

theorem meets_block {inside : Option (Reading → Outcome)} (h : Before r)
    (hi : SettlesInside inside) : Meets Behind (r.block inside) := by
  by_cases hn : r.skipBlanks.rest = []
  case pos =>
    rw [block, if_pos (List.isEmpty_iff.mpr hn)]
    exact .reject fun _ => hn
  case neg =>
    have awaits : r.skipBlanks.stage.Awaits r.skipBlanks.rest := by
      rw [stage_skipBlanks]
      exact h.awaits
    rw [block_eq hn]
    have negated : Meets AtOperand (r.skipBlanks.refuseConnective >>= negation) := by
      refine (meets_refuseConnective h.remembers.skipBlanks awaits).bind ?_
      rintro _ _ ⟨rfl, unjoined⟩
      exact meets_negation h.remembers.skipBlanks awaits (exists_head_not_blank hn) unjoined
    exact negated.bind fun s _ position => meets_operand position hi

theorem sound_of_next (h : Behind r) (e : r.next = .error x) : Sound x := by
  have behind := h.skipBlanks
  rw [Reading.next, proceed] at e
  split at e
  case h_1 => cases e
  case h_2 c text hr =>
    split at e
    case isTrue missing =>
      cases e
      simp only [Bool.and_eq_true, Bool.not_eq_true', isOperandStart, Bool.or_eq_true] at missing
      have head : c ∈ r.skipBlanks.rest.head? := by rw [hr]; rfl
      refine fun _ _ => ⟨behind.closed, ⟨c, head, missing.1.2⟩, fun joins => ?_⟩
      rw [nextJoins_iff.mpr joins] at missing
      cases missing.2
    case isFalse =>
      split at e
      case h_2 => cases e
      case h_1 connective hj =>
        obtain ⟨joins, word, tail, et, spells⟩ := joining?_eq_some_iff.mp hj
        rw [← takeWhile_append_skipBlanks tail] at et
        have hp := pushJoining_eq_along spells (isBlanks_takeWhile tail) (head?_skipBlanks tail) et
        have whole : textOf r.skipBlanks.lexemes ++ word ++ tail.takeWhile isBlank =
            textOf (r.skipBlanks.pushJoining connective).lexemes := by
          simp [hp]
        rw [join] at e
        split at e
        case h_3 => cases e
        case h_1 hr =>
          cases e
          exact fun _ _ => ⟨by simp [hr],
            _, connective, word, _, joins, spells, isBlanks_takeWhile tail, whole⟩
        case h_2 hr =>
          cases e
          exact fun _ _ => ⟨by simp [hr],
            _, connective, word, _, joins, spells, isBlanks_takeWhile tail, whole⟩

theorem next_cases {next : Next} (h : Behind r) (e : r.next = .ok next) :
    (∃ s, next = .done s ∧ Done s) ∨ ∃ s, next = .more s ∧ Before s := by
  have behind := h.skipBlanks
  obtain ⟨hn, stops⟩ | ⟨connective, word, gap, rest, joins, _, _, _, _, hn⟩ | ⟨_, apart, hn⟩ :=
    proceed_cases behind.latest (head?_skipBlanks r.rest) e
  case inl => exact .inl ⟨_, hn, behind, stops⟩
  case inr.inl =>
    refine .inr ⟨_, hn, ?_, .inl ?_⟩
    · exact behind.remembers.connective word gap (by simp) rfl (iff_of_true rfl joins)
    · simp [Stage.next]
  case inr.inr =>
    have skipped : BoolSearch.skipBlanks r.skipBlanks.rest = r.skipBlanks.rest :=
      skipBlanks_append isBlanks_nil (head?_skipBlanks r.rest)
    exact .inr ⟨_, hn, behind.remembers, .inr ⟨behind.closed, by rwa [skipped]⟩⟩

-- By induction on the run: in front of each block is where a block may start.
theorem meets_sequence {read : Reading → Outcome} (ha : Advances read)
    (hr : ∀ r, Before r → Meets Behind (read r)) (r : Reading) :
    Before r → Meets Done (sequence read r) := by
  induction r using sequence_induction ha with
  | step r hi =>
    intro h
    rw [sequence_eq_bind ha]
    refine (hr r h).bind fun s hs behind => ?_
    rw [continued]
    cases ht : s.next with
    | error => exact .error (sound_of_next behind ht)
    | ok next =>
      obtain ⟨t, rfl, done⟩ | ⟨t, rfl, before⟩ := next_cases behind ht
      case inl => exact .ok done
      case inr => exact hi s t hs ht before

-- By induction on the number of groups that may still be opened.
theorem meets_expression (room : Nat) : ∀ r, Before r → Meets Done (expression room r) := by
  induction room using Nat.strongRecOn
  case ind room hi =>
    rw [expression_eq_sequence]
    refine meets_sequence (advances_block (advances_insideOf room)) fun r h => meets_block h ?_
    cases room with
    | zero   => exact ⟨nofun, nofun⟩
    | succ n =>
      constructor
      · rintro _ ⟨⟩
        exact (reads_expression n).keepsDepth
      · rintro _ ⟨⟩
        exact hi n (Nat.lt_succ_self n)

theorem meets_ofText (maxDepth : Nat) (text : List Char) :
    Meets (fun _ => True) (ofText maxDepth text) := by
  have before : Before (start text).skipBlanks :=
    ⟨(remembers_start text).skipBlanks, .inl stage_skipBlanks⟩
  rw [ofText]
  refine (meets_expression maxDepth _ before).bind fun s hs done => ?_
  have depth : s.progress.depth = 0 := (reads_expression maxDepth).keepsDepth _ _ hs
  rw [skipBlanks_of_head? fun c hc => (done.stops c hc).1, finish]
  split
  case isTrue hn =>
    obtain ⟨c, rest, e⟩ : ∃ c rest, s.rest = c :: rest :=
      List.exists_cons_of_ne_nil (by simpa using hn)
    obtain ⟨blank, stop⟩ := done.stops c (by simp [e])
    have apart : isOperandStart c = false := by
      obtain rfl | ⟨_, apart⟩ := stop
      · decide
      · exact apart
    obtain ⟨letter, quote⟩ := Bool.or_eq_false_iff.mp apart
    exact .reject fun _ => ⟨c, by simp [e], blank, letter, quote⟩
  case isFalse =>
    rw [if_neg (by simp [depth])]
    exact .ok trivial

end Reading

open Reading

variable {maxDepth : Nat} {text : List Char} {violation : Violation}

theorem justified_of_validate (h : validate maxDepth text = .error violation) :
    Justifies maxDepth (reached (ofText maxDepth text)).lexemes
      (reached (ofText maxDepth text)).rest violation.kind := by
  have meets := meets_ofText maxDepth text
  have nested := nested_reached maxDepth text
  rw [validate] at h
  split at h
  case h_1 => cases h
  case h_2 x hx =>
    cases h
    rw [hx] at meets nested ⊢
    by_cases malformed : x.kind = .malformedExpression
    case neg => exact meets.sound malformed maxDepth
    case pos =>
      obtain ⟨kind, s⟩ := x
      cases malformed
      obtain ⟨full, rest, ahead⟩ := full_of_malformed hx
      have balanced := nested.balanced
      rw [reached, full] at balanced
      exact ⟨by simp [reached, ← ahead], balanced⟩

-- A violation lies between two characters of the text, behind what has been read, and what has been
-- read and what lies ahead are as its kind says.
theorem violation_justified (h : validate maxDepth text = .error violation) :
    violation.offset ≤ byteLength text ∧ IsBoundary text violation.offset ∧
    ∃ parts rest, parts = (reached (ofText maxDepth text)).lexemes ∧ textOf parts ++ rest = text ∧
      byteLength (textOf parts) = violation.offset ∧
      Justifies maxDepth parts rest violation.kind := by
  have whole := textOf_reached maxDepth text
  have offset := offset_of_validate h
  refine ⟨?_, ⟨_, _, whole, offset.symm⟩,
    _, _, rfl, whole, offset.symm, justified_of_validate h⟩
  have length := congrArg byteLength whole
  rw [byteLength_append] at length
  omega

-- The second block has a key, and the first one has none.
theorem violation_justified_of_mixed : ∃ parts rest,
    textOf parts ++ rest = "(a OR not bc=d)".toList ∧ byteLength (textOf parts) = 10 ∧
      Justifies 1 parts rest .mixedExpressionTypes := by
  have mixed : validate 1 "(a OR not bc=d)".toList = .error ⟨.mixedExpressionTypes, 10⟩ := by cbv
  obtain ⟨_, _, parts, rest, _, whole, offset, justified⟩ := violation_justified mixed
  exact ⟨parts, rest, whole, offset, justified⟩

section Standalone

variable {parts : List Lexeme} {rest : List Char}

-- Where a block has to start, an `AND` or `OR` can be refused for two reasons only.
theorem Justifies.of_standsAlone {kind : ViolationKind} (h : Justifies maxDepth parts rest kind)
    (awaits : (Stage.operand.after parts).Awaits rest) (alone : StandsAlone rest) :
    (kind = .duplicateConnective ∧ EndsJoining [.blank, .paren .opening] parts) ∨
      (kind = .valueExpected ∧ ¬EndsJoining [.blank, .paren .opening] parts) := by
  have ⟨c, head, letter⟩ := head?_of_standsAlone alone
  have ne {d : Char} (hd : isLetter d = false) : d ∉ rest.head? := by
    intro hm
    cases Option.mem_unique head hm
    simp [hd] at letter
  have empty : rest ≠ [] := by
    rintro rfl
    cases head
  have operand : Stage.operand.after parts = .operand := by
    obtain ⟨text, rfl⟩ := List.head?_eq_some_iff.mp head
    exact Stage.eq_operand_of_awaits awaits letter
  cases kind
  case duplicateConnective => exact .inl ⟨rfl, h.2.2⟩
  case valueExpected =>
    cases h
    case joining single    => exact .inr ⟨rfl, single⟩
    case ends nil _        => exact absurd nil empty
    case opening head _    => exact absurd head (ne (by decide))
    case stop head stop _  =>
      obtain rfl | rfl | rfl := stop <;> exact absurd head (ne (by decide))
  case unexpectedEnd       => exact absurd h empty
  case missingClosingParen => exact absurd h empty
  case unterminatedQuote =>
    have ⟨⟨d, head, quote⟩, _⟩ := h
    exact absurd head (ne (isLetter_of_isQuote quote))
  case missingConnective =>
    have closed := h.1
    rw [operand] at closed
    cases closed
  case expressionExpectedAfterConnective =>
    cases h.1 c head
    exact absurd letter (by decide)
  case trailingCharacters =>
    have ⟨d, head, _, other, _⟩ := h
    exact absurd head (ne other)
  case malformedExpression  => exact absurd h.1 (ne (by decide))
  case mixedExpressionTypes => exact absurd alone h.1.unjoined
  case keyExpected          => exact h.elim
  case equalsExpected       => exact h.elim
  case unbalancedParens     => exact h.elim

-- Where a block has to start, an `AND` or `OR` counts as doubled exactly if another one stands in
-- front of it, apart from blanks and opening parentheses. So it does if only blanks stand between,
-- and it never does at the start of the text or behind a `NOT`.
theorem standalone_refused (h : validate maxDepth text = .error violation)
    (hp : parts = (reached (ofText maxDepth text)).lexemes)
    (hr : rest = (reached (ofText maxDepth text)).rest)
    (awaits : (Stage.operand.after parts).Awaits rest) (alone : StandsAlone rest) :
    (violation.kind = .duplicateConnective ∨ violation.kind = .valueExpected) ∧
    (violation.kind = .duplicateConnective ↔ EndsJoining [.blank, .paren .opening] parts) ∧
    (lastBut [.blank] parts ≠ some (.paren .opening) →
      (violation.kind = .duplicateConnective ↔ EndsJoining [.blank] parts)) ∧
    (lastBut [.blank] parts = none ∨ lastBut [.blank] parts = some (.connective .not) →
      violation.kind = .valueExpected) := by
  subst hp hr
  have kinds := (justified_of_validate h).of_standsAlone awaits alone
  have doubled : violation.kind = .duplicateConnective ↔ EndsJoining [.blank, .paren .opening]
      (reached (ofText maxDepth text)).lexemes := by
    obtain ⟨kind, doubled⟩ | ⟨kind, single⟩ := kinds
    · exact iff_of_true kind doubled
    · exact iff_of_false (by simp [kind]) single
  refine ⟨kinds.imp And.left And.left, doubled, fun closed => ?_, fun single => ?_⟩
  · rw [doubled, EndsJoining, lastBut_opening closed, EndsJoining]
  · refine (kinds.resolve_left fun hd => ?_).1
    obtain ⟨kind, hm, joins⟩ := hd.2
    rw [lastBut_opening (by obtain e | e := single <;> simp [e])] at hm
    obtain e | e := single
    · simp [e] at hm
    · rw [e] at hm
      cases hm
      simp [TokenKind.IsJoining] at joins

-- Behind a `NOT`, the `OR` in front of it does not count.
theorem standalone_refused_of_not : ∃ violation,
    validate 0 "a or not and b".toList = .error violation ∧ violation.kind = .valueExpected := by
  have refused : validate 0 "a or not and b".toList = .error ⟨.valueExpected, 9⟩ := by cbv
  have read : reached (ofText 0 "a or not and b".toList) =
      ⟨[⟨.blank, [' ']⟩, ⟨.connective .not, "not".toList⟩, ⟨.blank, [' ']⟩,
        ⟨.connective .or, "or".toList⟩, ⟨.blank, [' ']⟩, ⟨.bare, ['a']⟩],
        "and b".toList, ⟨0, some .plain, .neither⟩⟩ := by cbv
  have alone : StandsAlone "and b".toList :=
    ⟨.and, "and".toList, " b".toList, by decide, rfl, rfl,
      by rintro _ ⟨⟩; exact .inl (by decide)⟩
  refine ⟨_, refused, (standalone_refused refused rfl rfl ?_ ?_).2.2.2 (.inr ?_)⟩
  · rw [read]
    exact .inl rfl
  · rwa [read]
  · rw [read]
    rfl

-- An opening parenthesis does not keep the `AND` in it from counting as doubled.
theorem doubled_in_group : ¬∀ (maxDepth : Nat) (text : List Char) (violation : Violation),
    validate maxDepth text = .error violation →
    (Stage.operand.after (reached (ofText maxDepth text)).lexemes).Awaits
      (reached (ofText maxDepth text)).rest →
    StandsAlone (reached (ofText maxDepth text)).rest →
    (violation.kind = .duplicateConnective ↔
      EndsJoining [.blank] (reached (ofText maxDepth text)).lexemes) := by
  intro documented
  have refused : validate 256 "A AND (AND B)".toList = .error ⟨.duplicateConnective, 7⟩ := by cbv
  have read : reached (ofText 256 "A AND (AND B)".toList) =
      ⟨[⟨.paren .opening, ['(']⟩, ⟨.blank, [' ']⟩, ⟨.connective .and, "AND".toList⟩,
        ⟨.blank, [' ']⟩, ⟨.bare, ['A']⟩], "AND B)".toList, ⟨1, some .plain, .connective⟩⟩ := by cbv
  have alone : StandsAlone "AND B)".toList :=
    ⟨.and, "AND".toList, " B)".toList, by decide, rfl, rfl,
      by rintro _ ⟨⟩; exact .inl (by decide)⟩
  have doubled := documented _ _ _ refused
  rw [read] at doubled
  obtain ⟨kind, hm, joins⟩ := (doubled (.inl rfl) alone).mp rfl
  cases hm
  simp [TokenKind.IsJoining] at joins

end Standalone

end BoolSearch
