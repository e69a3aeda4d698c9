import BoolSearch.Proofs.Recognition
import Mathlib.Logic.Relation

namespace BoolSearch

open Grammar

def opened (parts : List Lexeme) : Nat :=
  parts.countP (·.kind = .paren .opening)

def closed (parts : List Lexeme) : Nat :=
  parts.countP (·.kind = .paren .closing)

@[simp] theorem opened_append (parts others : List Lexeme) :
    opened (parts ++ others) = opened parts + opened others :=
  List.countP_append

@[simp] theorem closed_append (parts others : List Lexeme) :
    closed (parts ++ others) = closed parts + closed others :=
  List.countP_append

-- Parts that leave the groups as they are.
def Flat (parts : List Lexeme) : Prop :=
  ∀ part ∈ parts, ∀ paren, part.kind ≠ .paren paren

theorem Flat.opened {parts : List Lexeme} (h : Flat parts) : opened parts = 0 :=
  List.countP_eq_zero.mpr fun part hp => by simpa using h part hp .opening

theorem Flat.closed {parts : List Lexeme} (h : Flat parts) : closed parts = 0 :=
  List.countP_eq_zero.mpr fun part hp => by simpa using h part hp .closing

theorem flat_blanks (gap : List Char) : Flat (Scan.blanks gap) := by
  intro part hp paren
  have ⟨c, _, e⟩ := List.mem_map.mp hp
  simp [← e]

namespace Reading

variable {r r' s : Reading} {form : Form} {parts : List Lexeme} {rest : List Char} {limit : Nat}

-- What a reader can do to a reading while at most `limit` groups may be open at a time.
inductive Step (limit : Nat) (r : Reading) : Reading → Prop
  | take {parts : List Lexeme} {rest : List Char} (flat : Flat parts)
    (ahead : textOf parts ++ rest = r.rest) : Step limit r (r.along parts rest)
  | setLatest (latest : Latest) : Step limit r (r.setLatest latest)
  | setForm {form : Form} (admits : r.Admits form) : Step limit r (r.setForm form)
  | openGroup {rest : List Char} (ahead : '(' :: rest = r.rest) (room : r.progress.depth < limit) :
    Step limit r (r.openGroup rest)
  | closeGroup {rest : List Char} (ahead : ')' :: rest = r.rest) (grouped : r.progress.depth ≠ 0) :
    Step limit r (r.closeGroup rest)

abbrev Steps (limit : Nat) : Reading → Reading → Prop :=
  Relation.ReflTransGen (Step limit)

@[simp] theorem lexemes_start (text : List Char) : (start text).lexemes = [] := rfl

@[simp] theorem lexemes_along : (r.along parts rest).lexemes = r.lexemes ++ parts := by
  simp [along, lexemes]

@[simp] theorem lexemes_setLatest {latest : Latest} :
    (r.setLatest latest).lexemes = r.lexemes := rfl

@[simp] theorem lexemes_setForm : (r.setForm form).lexemes = r.lexemes := rfl

@[simp] theorem lexemes_openGroup :
    (r.openGroup rest).lexemes = r.lexemes ++ [⟨.paren .opening, ['(']⟩] := by
  simp [openGroup, push, lexemes]

@[simp] theorem lexemes_closeGroup :
    (r.closeGroup rest).lexemes = r.lexemes ++ [⟨.paren .closing, [')']⟩] := by
  simp [closeGroup, push, lexemes]

@[simp] theorem depth_past : (r.past form parts rest).progress.depth = r.progress.depth := rfl

@[simp] theorem depth_along : (r.along parts rest).progress.depth = r.progress.depth := rfl

@[simp] theorem depth_setLatest {latest : Latest} :
    (r.setLatest latest).progress.depth = r.progress.depth := rfl

@[simp] theorem depth_openGroup :
    (r.openGroup rest).progress.depth = r.progress.depth + 1 := rfl

@[simp] theorem depth_closeGroup :
    (r.closeGroup rest).progress.depth = r.progress.depth - 1 := rfl

-- A step takes the parts of the text that it leaves behind.
theorem Step.forward (h : Step limit r s) :
    ∃ parts, s.lexemes = r.lexemes ++ parts ∧ textOf parts ++ s.rest = r.rest := by
  cases h
  case take parts rest _ ahead => exact ⟨parts, lexemes_along, ahead⟩
  case setLatest               => exact ⟨[], by simp, rfl⟩
  case setForm                 => exact ⟨[], by simp, rfl⟩
  case openGroup ahead _       => exact ⟨_, lexemes_openGroup, ahead⟩
  case closeGroup ahead _      => exact ⟨_, lexemes_closeGroup, ahead⟩

theorem Steps.forward (h : Steps limit r s) :
    ∃ parts, s.lexemes = r.lexemes ++ parts ∧ textOf parts ++ s.rest = r.rest := by
  induction h
  case refl => exact ⟨[], by simp, rfl⟩
  case tail step hi =>
    have ⟨parts, hl, ht⟩ := hi
    have ⟨others, hl', ht'⟩ := step.forward
    exact ⟨parts ++ others, by simp [hl, hl'], by simp [← ht, ← ht']⟩

-- Once the values have a form, they keep it.
theorem Step.form_eq (h : Step limit r s) (hf : r.progress.form = some form) :
    s.progress.form = some form := by
  cases h
  case take           => exact hf
  case setLatest      => exact hf
  case setForm admits => rw [← admits form hf]; rfl
  case openGroup      => exact hf
  case closeGroup     => exact hf

-- The groups of a reading: the open ones are those that have been opened and not closed, and at no
-- time have there been more than `limit` of them.
structure Nested (limit : Nat) (r : Reading) : Prop where
  balanced : opened r.lexemes = closed r.lexemes + r.progress.depth
  bounded : ∀ front, front <+: r.lexemes → opened front ≤ closed front + limit
  counted : opened r.lexemes ≤ (textOf r.lexemes).count '('

theorem nested_start (text : List Char) : Nested limit (start text) where
  balanced := rfl
  bounded front h := by
    rw [lexemes_start, List.prefix_nil] at h
    simp [h, opened]
  counted := Nat.le_refl _

theorem Nested.depth_le (h : Nested limit r) : r.progress.depth ≤ limit := by
  have := h.balanced
  have := h.bounded _ (List.prefix_refl _)
  omega

-- More parts keep the bound if it has room for all the groups that they open.
theorem bounded_append {others : List Lexeme}
    (h : ∀ front, front <+: parts → opened front ≤ closed front + limit)
    (room : opened parts + opened others ≤ closed parts + limit) :
    ∀ front, front <+: parts ++ others → opened front ≤ closed front + limit := by
  intro front hf
  cases List.prefix_or_prefix_of_prefix hf (List.prefix_append parts others)
  case inl hf => exact h front hf
  case inr hp =>
    have ⟨ahead, e⟩ := hp
    rw [← e, List.prefix_append_right_inj] at hf
    have : opened ahead ≤ opened others := hf.sublist.countP_le
    rw [← e, opened_append, closed_append]
    omega

theorem Step.nested (h : Step limit r s) (hn : Nested limit r) : Nested limit s := by
  have := hn.balanced
  have := hn.depth_le
  cases h
  case take parts rest flat _ =>
    have ho := flat.opened
    have hc := flat.closed
    refine ⟨by simp [ho, hc, hn.balanced], ?_, ?_⟩
    · rw [lexemes_along]
      apply bounded_append hn.bounded
      omega
    · simpa [ho, List.count_append] using Nat.le_add_right_of_le hn.counted
  case setLatest => exact ⟨hn.balanced, hn.bounded, hn.counted⟩
  case setForm   => exact ⟨hn.balanced, hn.bounded, hn.counted⟩
  case openGroup room =>
    have ho : opened [⟨.paren .opening, ['(']⟩] = 1 := rfl
    have hc : closed [⟨.paren .opening, ['(']⟩] = 0 := rfl
    refine ⟨by simp [ho, hc, hn.balanced, Nat.add_assoc], ?_, ?_⟩
    · rw [lexemes_openGroup]
      apply bounded_append hn.bounded
      omega
    · simpa [ho, List.count_append] using hn.counted
  case closeGroup grouped =>
    have ho : opened [⟨.paren .closing, [')']⟩] = 0 := rfl
    have hc : closed [⟨.paren .closing, [')']⟩] = 1 := rfl
    refine ⟨?_, ?_, ?_⟩
    · simp only [lexemes_closeGroup, opened_append, closed_append, depth_closeGroup]
      omega
    · rw [lexemes_closeGroup]
      apply bounded_append hn.bounded
      omega
    · simpa [ho, List.count_append] using hn.counted

theorem Steps.nested (h : Steps limit r s) (hn : Nested limit r) : Nested limit s := by
  induction h
  case refl         => exact hn
  case tail step hi => exact step.nested hi

-- What is known of a violation that is reported: some kinds cannot come up, and a group is refused
-- only where as many groups are open as there may be.
structure Reported (limit : Nat) (r : Reading) (kind : ViolationKind) : Prop where
  possible : kind ∉ [.keyExpected, .equalsExpected, .unbalancedParens]
  full : kind = .malformedExpression →
    r.progress.depth = limit ∧ ∃ rest, '(' :: rest = r.rest

theorem reported_of_not_mem {kind : ViolationKind}
    (h : kind ∉ [.keyExpected, .equalsExpected, .unbalancedParens, .malformedExpression]) :
    Reported limit r kind := by
  simp only [List.mem_cons, not_or] at h
  exact ⟨by simp [h.1, h.2.1, h.2.2.1], fun e => absurd e h.2.2.2.1⟩

-- A reader has gone forward in steps, to the end of what it reads or to a violation.
inductive Reaches (limit : Nat) (r : Reading) : Outcome → Prop
  | ok {s : Reading} (steps : Steps limit r s) : Reaches limit r (.ok s)
  | error {kind : ViolationKind} {s : Reading} (steps : Steps limit r s)
    (reported : Reported limit s kind) : Reaches limit r (.error ⟨kind, s⟩)

theorem Reaches.reject {kind : ViolationKind} (h : Steps limit r s)
    (hk : kind ∉ [.keyExpected, .equalsExpected, .unbalancedParens, .malformedExpression]) :
    Reaches limit r (s.reject kind) :=
  .error h (reported_of_not_mem hk)

theorem Reaches.steps (h : Reaches limit r (.ok s)) : Steps limit r s := by
  cases h
  case ok steps => exact steps

theorem Reaches.trans {outcome : Outcome} (h : Steps limit r s) (ho : Reaches limit s outcome) :
    Reaches limit r outcome := by
  cases ho
  case ok steps       => exact .ok (h.trans steps)
  case error steps hk => exact .error (h.trans steps) hk

theorem Reaches.bind {outcome : Outcome} {f : Reading → Outcome} (ho : Reaches limit r outcome)
    (hf : ∀ s, outcome = .ok s → Reaches limit s (f s)) : Reaches limit r (outcome >>= f) := by
  cases ho
  case ok s steps     => exact (hf s rfl).trans steps
  case error steps hk => exact .error steps hk

theorem Reaches.map {outcome : Outcome} {f : Reading → Reading} (ho : Reaches limit r outcome)
    (hf : ∀ s, Step limit s (f s)) : Reaches limit r (outcome.map f) := by
  cases ho
  case ok s steps     => exact .ok (steps.tail (hf s))
  case error steps hk => exact .error steps hk

theorem steps_along {gap : List Char} (e : gap ++ rest = r.rest) :
    Steps limit r (r.along (Scan.blanks gap) rest) :=
  .single (.take (flat_blanks gap) (by simpa using e))

theorem steps_skipBlanks (r : Reading) : Steps limit r r.skipBlanks :=
  steps_along (takeWhile_append_skipBlanks r.rest)

theorem flat_singleton {part : Lexeme} (h : ∀ paren, part.kind ≠ .paren paren) : Flat [part] := by
  simpa [Flat] using h

theorem steps_push {kind : TokenKind} {text : List Char} (hk : ∀ paren, kind ≠ .paren paren)
    (e : text ++ rest = r.rest) : Steps limit r (r.push kind text rest) :=
  .single (.take (flat_singleton hk) (by simpa using e))

theorem steps_pushKey {head : KeyHead} (h : key? r.rest = some head) :
    Steps limit r (r.pushKey head) := by
  have all := append_of_key? h
  have named : Steps limit r (r.push .key head.name (head.blanks ++ '=' :: head.rest)) :=
    steps_push (by simp) (by simpa using all)
  have spaced := named.trans (steps_along (rfl : head.blanks ++ '=' :: head.rest = _))
  exact (spaced.trans (steps_push (by simp) rfl)).trans (steps_skipBlanks _)

theorem steps_pushConnective (r : Reading) (connective : Connective) :
    Steps limit r (r.pushConnective connective) :=
  steps_push (by simp) (List.take_append_drop _ _)

theorem steps_pushNot (r : Reading) : Steps limit r r.pushNot :=
  ((steps_pushConnective r .not).trans (steps_skipBlanks _)).tail (.setLatest _)

theorem steps_pushJoining (r : Reading) (connective : Connective) :
    Steps limit r (r.pushJoining connective) :=
  ((steps_pushConnective r connective).tail (.setLatest _)).trans (steps_skipBlanks _)

theorem reaches_refuseConnective (r : Reading) : Reaches limit r r.refuseConnective := by
  rw [refuseConnective]
  split
  case h_1 => exact .ok .refl
  case h_2 =>
    apply Reaches.reject .refl
    split <;> decide

-- A value that is refused has not been read in part.
theorem rejection_of_value {rejection : Rejection} (h : r.value = .error rejection) :
    rejection.reading = r ∧ rejection.kind ∈ [.valueExpected, .unterminatedQuote] := by
  simp only [value] at h
  split at h
  case h_1 => cases h; simp
  case h_2 =>
    split at h
    case isTrue =>
      split at h
      case h_1 => cases h
      case h_2 => cases h; simp
    case isFalse =>
      split at h
      case h_1 => cases h; simp
      case h_2 => cases h

theorem reaches_value (r : Reading) : Reaches limit r r.value := by
  cases h : r.value
  case ok s =>
    have ⟨value, rest, hv, e, hs⟩ := exists_isValue_of_value h
    rw [hs]
    refine .ok (.single (.take (flat_singleton ?_) (by simpa using e)))
    cases hv <;> simp
  case error rejection =>
    have ⟨hr, hk⟩ := rejection_of_value h
    obtain ⟨kind, s⟩ := rejection
    cases hr
    refine .reject .refl ?_
    simp only [List.mem_cons, List.not_mem_nil, or_false] at hk
    cases hk with
    | inl hk | inr hk => subst hk; decide

theorem reaches_leaf (r : Reading) : Reaches limit r r.leaf := by
  rw [leaf, formed]
  refine Reaches.map ?_ fun _ => .setLatest _
  split
  case h_1 head hk =>
    split
    case isTrue => exact .reject .refl (by decide)
    case isFalse hf =>
      have keyed : Steps limit r (r.setForm .keyed) := .single (.setForm (admits_keyed_iff.mpr hf))
      exact (reaches_value _).trans (keyed.trans (steps_pushKey hk))
  case h_2 =>
    split
    case isTrue => exact .reject .refl (by decide)
    case isFalse hf => exact (reaches_value _).trans (.single (.setForm (admits_plain_iff.mpr hf)))

theorem reaches_groupEnd (h : r.progress.depth ≠ 0) : Reaches limit r r.groupEnd := by
  rw [groupEnd]
  split
  case h_1 rest e => exact .ok ((steps_skipBlanks r).tail (.closeGroup e.symm h))
  case h_2        => exact .reject (steps_skipBlanks r) (by decide)

-- Readers that leave as many groups open as there were.
def KeepsDepth (read : Reading → Outcome) : Prop :=
  ∀ r r', read r = .ok r' → r'.progress.depth = r.progress.depth

theorem Reads.keepsDepth {read : Reading → Outcome}
    {phrase : Bool → Form → List Lexeme → List Char → Prop} (h : Reads read phrase) :
    KeepsDepth read := by
  intro r r' hr
  have ⟨_, _, _, _, _, _, e⟩ := (h r r').mp hr
  rw [e, depth_past]

-- A reader of what is in a group is there exactly if another group may be opened, and it starts
-- with that group open.
structure ReadsInside (limit depth : Nat) (inside : Option (Reading → Outcome)) : Prop where
  full : inside = none → depth = limit
  room : ∀ read ∈ inside, depth < limit
  keeps : ∀ read ∈ inside, KeepsDepth read
  reaches : ∀ read ∈ inside, ∀ r, r.progress.depth = depth + 1 → Reaches limit r (read r)

theorem reaches_operand {inside : Option (Reading → Outcome)}
    (hi : ReadsInside limit r.progress.depth inside) : Reaches limit r (r.operand inside) := by
  rw [operand]
  split
  case h_2 => exact reaches_leaf r
  case h_1 rest e =>
    cases inside
    case none =>
      exact .error .refl ⟨by decide, fun _ => ⟨hi.full rfl, rest, e.symm⟩⟩
    case some read =>
      have enter : Steps limit r (r.openGroup rest) :=
        .single (.openGroup e.symm (hi.room read rfl))
      refine Reaches.trans (enter.trans (steps_skipBlanks _)) ?_
      refine Reaches.bind (hi.reaches read rfl _ rfl) fun s hs => reaches_groupEnd ?_
      rw [hi.keeps read rfl _ _ hs]
      exact Nat.succ_ne_zero _

theorem reaches_negation (r : Reading) : Reaches limit r r.negation := by
  rw [negation]
  split
  case isFalse => exact .ok .refl
  case isTrue =>
    split
    case isTrue  => exact .reject (steps_pushNot r) (by decide)
    case isFalse => exact (reaches_refuseConnective _).trans (steps_pushNot r)

theorem depth_of_negation (h : r.negation = .ok s) : s.progress.depth = r.progress.depth := by
  cases negation_cases h
  case inl h => rw [h.2]
  case inr h =>
    have ⟨_, _, _, _, _, _, _, _, e⟩ := h
    rw [e, depth_setLatest, depth_along]

theorem depth_of_refuseConnective_negation (h : r.refuseConnective >>= negation = .ok s) :
    s.progress.depth = r.progress.depth := by
  have ⟨t, ht, hs⟩ := bind_eq_ok_iff.mp h
  rw [depth_of_negation hs, (refuseConnective_eq_ok_iff.mp ht).2]

theorem reaches_block {inside : Option (Reading → Outcome)}
    (hi : ReadsInside limit r.progress.depth inside) : Reaches limit r (r.block inside) := by
  rw [block]
  split
  case isTrue => exact .reject (steps_skipBlanks r) (by decide)
  case isFalse =>
    refine Reaches.trans (steps_skipBlanks r) ?_
    refine Reaches.bind (Reaches.bind (reaches_refuseConnective _) fun s _ => reaches_negation s) ?_
    intro s hs
    apply reaches_operand
    rwa [depth_of_refuseConnective_negation hs]

theorem reaches_next (r : Reading) : Reaches limit r (r.next.map Next.reading) := by
  rw [next]
  refine Reaches.trans (steps_skipBlanks r) ?_
  rw [proceed]
  split
  case h_1 => exact .ok .refl
  case h_2 =>
    split
    case isTrue => exact .reject .refl (by decide)
    case isFalse =>
      split
      case h_1 connective _ =>
        rw [join]
        split
        case h_1 => exact .reject (steps_pushJoining _ connective) (by decide)
        case h_2 => exact .reject (steps_pushJoining _ connective) (by decide)
        case h_3 => exact .ok (steps_pushJoining _ connective)
      case h_2 =>
        split
        case isTrue  => exact .ok .refl
        case isFalse => exact .ok .refl

theorem steps_next {next : Next} (h : r.next = .ok next) : Steps limit r next.reading := by
  have reaches : Reaches limit r (r.next.map Next.reading) := reaches_next r
  rw [h] at reaches
  exact reaches.steps

theorem depth_of_next {next : Next} (h : r.next = .ok next) :
    next.reading.progress.depth = r.progress.depth := by
  rw [Reading.next, proceed] at h
  split at h
  case h_1 => cases h; rfl
  case h_2 =>
    split at h
    case isTrue => cases h
    case isFalse =>
      split at h
      case h_1 =>
        rw [join] at h
        split at h
        case h_1 => cases h
        case h_2 => cases h
        case h_3 => cases h; rfl
      case h_2 => split at h <;> cases h <;> rfl

-- A property of readings that every block leads to, whether the expression ends behind it or goes
-- on. The text that is left gets shorter from block to block.
theorem sequence_induction {read : Reading → Outcome} {motive : Reading → Prop}
    (hr : Advances read)
    (step : ∀ r, (∀ s t, read r = .ok s → s.next = .ok (.more t) → motive t) → motive r) :
    ∀ r, motive r := by
  intro r
  induction h : r.rest.length using Nat.strongRecOn generalizing r
  case ind hi =>
    apply step
    intro s t hs ht
    have := hr _ _ hs
    have := length_rest_le_of_next ht
    exact hi t.rest.length (by simp only [Next.reading] at this; omega) t rfl

theorem Reaches.continued {read : Reading → Outcome}
    (h : ∀ t, r.next = .ok (.more t) → Reaches limit t (sequence read t)) :
    Reaches limit r (continued read r) := by
  have next : Reaches limit r (r.next.map Next.reading) := reaches_next r
  rw [Reading.continued]
  cases ht : r.next with
  | error => rwa [ht] at next
  | ok n =>
    rw [ht] at next
    cases n with
    | done   => exact next
    | more t => exact (h t ht).trans next.steps

-- By induction on the run. Every block starts with as many groups open as the first one.
theorem reaches_sequence {read : Reading → Outcome} (ha : Advances read) (keeps : KeepsDepth read)
    {depth : Nat} (hr : ∀ s, s.progress.depth = depth → Reaches limit s (read s)) (r : Reading) :
    r.progress.depth = depth → Reaches limit r (sequence read r) := by
  induction r using sequence_induction ha with
  | step r hi =>
    intro hd
    rw [sequence_eq_bind ha]
    refine (hr r hd).bind fun s hs => Reaches.continued fun t ht => hi s t hs ht ?_
    exact (depth_of_next ht).trans ((keeps _ _ hs).trans hd)

theorem advances_insideOf (room : Nat) : ∀ read ∈ insideOf room, Advances read := by
  cases room
  case zero   => nofun
  case succ n => rintro _ ⟨⟩; exact advances_expression n

theorem keepsDepth_block (room : Nat) : KeepsDepth (block (insideOf room)) :=
  (reads_nested_block room).keepsDepth

theorem readsInside_of_reaches {room depth : Nat} (h : depth + room = limit)
    (hi : ∀ n, n + 1 = room → ∀ r, r.progress.depth = depth + 1 →
      Reaches limit r (expression n r)) :
    ReadsInside limit depth (insideOf room) := by
  cases room
  case zero   => exact ⟨fun _ => h, nofun, nofun, nofun⟩
  case succ n =>
    refine ⟨nofun, ?_, ?_, ?_⟩
    · intro _ _
      omega
    · rintro _ ⟨⟩
      exact (reads_expression n).keepsDepth
    · rintro _ ⟨⟩
      exact hi n rfl

-- By induction on the number of groups that may still be opened.
theorem reaches_expression {room : Nat} (h : r.progress.depth + room = limit) :
    Reaches limit r (expression room r) := by
  induction room using Nat.strongRecOn generalizing r
  case ind room hi =>
    rw [expression_eq_sequence]
    refine reaches_sequence (advances_block (advances_insideOf room)) (keepsDepth_block room)
      (fun s hs => reaches_block ?_) r rfl
    exact readsInside_of_reaches (by omega) fun n e t ht => hi n (by omega) (by omega)

theorem readsInside_insideOf {room depth : Nat} (h : depth + room = limit) :
    ReadsInside limit depth (insideOf room) :=
  readsInside_of_reaches h fun n e r hr => reaches_expression (by omega)

theorem reaches_finish (h : r.progress.depth = 0) : Reaches limit r r.finish := by
  rw [finish]
  split
  case isTrue => exact .reject .refl (by decide)
  case isFalse =>
    rw [if_neg (by simp [h])]
    exact .ok .refl

-- Every reading of a text starts at its beginning and goes forward in steps.
theorem reaches_ofText (maxDepth : Nat) (text : List Char) :
    Reaches maxDepth (start text) (ofText maxDepth text) := by
  rw [ofText]
  have skip : Steps maxDepth (start text) (start text).skipBlanks := steps_skipBlanks _
  have read : Reaches maxDepth (start text).skipBlanks
      (expression maxDepth (start text).skipBlanks) := reaches_expression (Nat.zero_add maxDepth)
  refine Reaches.bind (read.trans skip) fun r hr => ?_
  have hd := (reads_expression maxDepth).keepsDepth _ _ hr
  exact Reaches.trans (steps_skipBlanks r) (reaches_finish hd)

end Reading

end BoolSearch
