import BoolSearch.Proofs.Steps
import Mathlib.Order.Nat

namespace BoolSearch

variable {r r' s : Reading} {limit limit' : Nat}

namespace Reading

def reached : Outcome → Reading
  | .ok r            => r
  | .error rejection => rejection.reading

theorem Reaches.steps_reached {outcome : Outcome} (h : Reaches limit r outcome) :
    Steps limit r (reached outcome) := by
  cases h
  case ok steps      => exact steps
  case error steps _ => exact steps

-- How a reader ends under a limit and under a higher one: in the same way, or under the lower limit
-- at a parenthesis at which as many groups are open as there may be, and behind which the other one
-- goes on.
inductive CutsOff (limit limit' : Nat) : Outcome → Outcome → Prop
  | same (outcome : Outcome) : CutsOff limit limit' outcome outcome
  | cut {s : Reading} {rest : List Char} {outcome : Outcome} (ahead : '(' :: rest = s.rest)
    (full : s.progress.depth = limit) (beyond : Reaches limit' (s.openGroup rest) outcome) :
    CutsOff limit limit' (.error ⟨.malformedExpression, s⟩) outcome

theorem CutsOff.bind {outcome outcome' : Outcome} {f f' : Reading → Outcome}
    (h : CutsOff limit limit' outcome outcome')
    (hf : ∀ s, outcome' = .ok s → CutsOff limit limit' (f s) (f' s))
    (hr : ∀ s, outcome' = .ok s → Reaches limit' s (f' s)) :
    CutsOff limit limit' (outcome >>= f) (outcome' >>= f') := by
  cases h
  case same =>
    cases outcome with
    | ok s    => exact hf s rfl
    | error _ => exact .same _
  case cut s rest ahead full beyond => exact .cut ahead full (beyond.bind hr)

theorem reaches_groupEnd_of_expression {room : Nat} (hd : r.progress.depth ≠ 0)
    (h : expression room r = .ok s) : Reaches limit s s.groupEnd := by
  apply reaches_groupEnd
  rwa [(reads_expression room).keepsDepth _ _ h]

theorem reaches_group {room : Nat} {rest : List Char} (h : r.progress.depth + 1 + room = limit) :
    Reaches limit (r.openGroup rest) (r.group (some (expression room)) rest) :=
  ((reaches_expression h).bind fun _ hs =>
    reaches_groupEnd_of_expression (Nat.succ_ne_zero _) hs).trans (steps_skipBlanks _)

-- Only where a group opens does it matter how many more may be opened.
theorem cutsOff_operand {room room' : Nat} (hr : room ≤ room')
    (hd : r.progress.depth + room = limit) (hd' : r.progress.depth + room' = limit')
    (hi : ∀ n n', n + 1 = room → n' + 1 = room' → ∀ s, s.progress.depth = r.progress.depth + 1 →
      CutsOff limit limit' (expression n s) (expression n' s)) :
    CutsOff limit limit' (r.operand (insideOf room)) (r.operand (insideOf room')) := by
  by_cases hp : ∃ rest, '(' :: rest = r.rest
  case neg =>
    have head : ∀ c ∈ r.rest.head?, c ≠ '(' := by
      rintro _ hc rfl
      have ⟨rest, e⟩ := List.head?_eq_some_iff.mp hc
      exact hp ⟨rest, e.symm⟩
    rw [operand_eq_leaf head, operand_eq_leaf head]
    exact .same _
  case pos =>
    have ⟨rest, ahead⟩ := hp
    rw [operand_eq_group ahead, operand_eq_group ahead]
    match room, room' with
    | 0,     0      => exact .same _
    | 0,     n' + 1 => exact .cut ahead hd (reaches_group (by omega))
    | n + 1, n' + 1 =>
      exact (hi n n' rfl rfl _ rfl).bind (fun _ _ => .same _) fun _ hs =>
        reaches_groupEnd_of_expression (Nat.succ_ne_zero _) hs

theorem cutsOff_block {inside inside' : Option (Reading → Outcome)}
    (ho : ∀ s : Reading, s.progress.depth = r.progress.depth →
      CutsOff limit limit' (s.operand inside) (s.operand inside'))
    (hr : ∀ s : Reading, s.progress.depth = r.progress.depth →
      Reaches limit' s (s.operand inside')) :
    CutsOff limit limit' (r.block inside) (r.block inside') := by
  rw [block, block]
  split
  case isTrue => exact .same _
  case isFalse =>
    refine CutsOff.bind (.same _) (fun s hs => ho s ?_) fun s hs => hr s ?_
    · exact depth_of_refuseConnective_negation (r := r.skipBlanks) hs
    · exact depth_of_refuseConnective_negation (r := r.skipBlanks) hs

-- By induction on the run under the higher limit.
theorem cutsOff_sequence {read read' : Reading → Outcome} {depth : Nat} (ha : Advances read)
    (ha' : Advances read') (keeps : KeepsDepth read')
    (hc : ∀ s, s.progress.depth = depth → CutsOff limit limit' (read s) (read' s))
    (hr : ∀ s, s.progress.depth = depth → Reaches limit' s (read' s)) (r : Reading) :
    r.progress.depth = depth → CutsOff limit limit' (sequence read r) (sequence read' r) := by
  induction r using sequence_induction ha' with
  | step r hi =>
    intro hd
    rw [sequence_eq_bind ha, sequence_eq_bind ha']
    refine (hc r hd).bind (fun s hs => ?_) fun s hs => Reaches.continued fun t ht => ?_
    · have hs' : s.progress.depth = depth := (keeps _ _ hs).trans hd
      rw [continued, continued]
      cases ht : s.next with
      | error => exact .same _
      | ok next =>
        cases next with
        | done   => exact .same _
        | more t => exact hi s t hs ht ((depth_of_next ht).trans hs')
    · exact reaches_sequence ha' keeps hr t
        ((depth_of_next ht).trans ((keeps _ _ hs).trans hd))

-- By induction on the number of groups that may still be opened under the lower limit.
theorem cutsOff_expression {room room' : Nat} (hr : room ≤ room')
    (hd : r.progress.depth + room = limit) (hd' : r.progress.depth + room' = limit') :
    CutsOff limit limit' (expression room r) (expression room' r) := by
  induction room using Nat.strongRecOn generalizing r room'
  case ind room hi =>
    rw [expression_eq_sequence, expression_eq_sequence]
    refine cutsOff_sequence (advances_block (advances_insideOf room))
      (advances_block (advances_insideOf room')) (keepsDepth_block room') ?_ ?_ r rfl
    · intro s hs
      refine cutsOff_block (fun t ht => ?_) fun t ht => ?_
      · apply cutsOff_operand hr (by omega) (by omega)
        intro n n' e e' u hu
        exact hi n (by omega) (by omega) (by omega) (by omega)
      · exact reaches_operand (readsInside_insideOf (by omega))
    · exact fun s hs => reaches_block (readsInside_insideOf (by omega))

theorem cutsOff_ofText {maxDepth maxDepth' : Nat} (h : maxDepth ≤ maxDepth') (text : List Char) :
    CutsOff maxDepth maxDepth' (ofText maxDepth text) (ofText maxDepth' text) := by
  rw [ofText, ofText]
  refine (cutsOff_expression h (Nat.zero_add _) (Nat.zero_add _)).bind (fun _ _ => .same _) ?_
  intro s hs
  exact Reaches.trans (steps_skipBlanks s)
    (reaches_finish ((reads_expression maxDepth').keepsDepth _ _ hs))

theorem nested_reached (maxDepth : Nat) (text : List Char) :
    Nested maxDepth (reached (ofText maxDepth text)) :=
  (reaches_ofText maxDepth text).steps_reached.nested (nested_start text)

theorem textOf_reached (maxDepth : Nat) (text : List Char) :
    textOf (reached (ofText maxDepth text)).lexemes ++ (reached (ofText maxDepth text)).rest =
      text := by
  have ⟨parts, hl, ht⟩ := (reaches_ofText maxDepth text).steps_reached.forward
  rw [hl]
  exact ht

-- A group is refused where as many groups are open as there may be.
theorem full_of_malformed {maxDepth : Nat} {text : List Char}
    (h : ofText maxDepth text = .error ⟨.malformedExpression, s⟩) :
    s.progress.depth = maxDepth ∧ ∃ rest, '(' :: rest = s.rest := by
  have reaches := reaches_ofText maxDepth text
  rw [h] at reaches
  cases reaches
  case error reported => exact reported.full rfl

theorem lt_count_of_malformed {maxDepth : Nat} {text : List Char}
    (h : ofText maxDepth text = .error ⟨.malformedExpression, s⟩) : maxDepth < text.count '(' := by
  have ⟨full, rest, ahead⟩ := full_of_malformed h
  have nested := nested_reached maxDepth text
  have whole := textOf_reached maxDepth text
  rw [h] at nested whole
  have balanced := nested.balanced
  have counted := nested.counted
  simp only [reached] at whole balanced counted
  rw [← whole, ← ahead, List.count_append, List.count_cons_self]
  omega

def IsCut (maxDepth : Nat) (text : List Char) : Prop :=
  ∃ s, ofText maxDepth text = .error ⟨.malformedExpression, s⟩

theorem ofText_eq_of_not_isCut {maxDepth maxDepth' : Nat} {text : List Char}
    (h : maxDepth ≤ maxDepth') (hc : ¬IsCut maxDepth text) :
    ofText maxDepth' text = ofText maxDepth text := by
  have cut := cutsOff_ofText h text
  generalize e : ofText maxDepth text = outcome at cut ⊢
  cases cut
  case same => rfl
  case cut  => exact absurd ⟨_, e⟩ hc

-- A reading that is cut off goes on under every higher limit, behind the parenthesis at which it
-- has been cut off.
theorem exists_of_isCut {maxDepth maxDepth' : Nat} {text : List Char} (h : maxDepth < maxDepth')
    (hc : IsCut maxDepth text) :
    ∃ s parts, ofText maxDepth text = .error ⟨.malformedExpression, s⟩ ∧
      (reached (ofText maxDepth' text)).lexemes =
        s.lexemes ++ ⟨.paren .opening, ['(']⟩ :: parts := by
  have ⟨s, e⟩ := hc
  have full := (full_of_malformed e).1
  have cut := cutsOff_ofText (Nat.le_of_lt h) text
  generalize e' : ofText maxDepth' text = outcome at cut ⊢
  rw [e] at cut
  cases cut
  case same =>
    have := (full_of_malformed e').1
    omega
  case cut beyond =>
    have ⟨parts, hl, _⟩ := beyond.steps_reached.forward
    exact ⟨s, parts, e, by simp [hl]⟩

end Reading

open Reading

-- `front` is what stands in front of the first of the parts that opens a group inside `depth`
-- others.
structure FirstBeyond (depth : Nat) (parts front : List Lexeme) : Prop where
  opens : front ++ [⟨.paren .opening, ['(']⟩] <+: parts
  nested : opened front = closed front + depth
  first : ∀ earlier, earlier <+: front → opened earlier ≤ closed earlier + depth

theorem offset_of_validate {maxDepth : Nat} {text : List Char} {violation : Violation}
    (h : validate maxDepth text = .error violation) :
    violation.offset = byteLength (textOf (reached (ofText maxDepth text)).lexemes) := by
  have whole := congrArg byteLength (textOf_reached maxDepth text)
  rw [byteLength_append] at whole
  rw [validate] at h
  split at h
  case h_1 => cases h
  case h_2 rejection e =>
    cases h
    rw [e] at whole ⊢
    simp only [Rejection.violation, reached] at whole ⊢
    omega

theorem isCut_iff {maxDepth : Nat} {text : List Char} : IsCut maxDepth text ↔
    ∃ offset, validate maxDepth text = .error ⟨.malformedExpression, offset⟩ := by
  rw [validate]
  constructor
  case mp =>
    rintro ⟨s, e⟩
    rw [e]
    exact ⟨_, rfl⟩
  case mpr =>
    rintro ⟨offset, h⟩
    split at h
    case h_1 => cases h
    case h_2 rejection e =>
      obtain ⟨kind, s⟩ := rejection
      cases h
      exact ⟨s, e⟩

theorem validate_eq_of_isCut {maxDepth : Nat} {text : List Char}
    (e : ofText maxDepth text = .error ⟨.malformedExpression, s⟩) :
    validate maxDepth text = .error ⟨.malformedExpression, byteLength (textOf s.lexemes)⟩ := by
  have ⟨offset, h⟩ := isCut_iff.mp ⟨s, e⟩
  have ho : offset = _ := offset_of_validate h
  rw [h, ho, e]
  rfl

theorem validate_eq_of_not_isCut {maxDepth maxDepth' : Nat} {text : List Char}
    (h : maxDepth ≤ maxDepth') (hc : ¬IsCut maxDepth text) :
    validate maxDepth' text = validate maxDepth text := by
  rw [validate, validate, ofText_eq_of_not_isCut h hc]

theorem firstBeyond_of_ofText {maxDepth : Nat} {text : List Char} {parts others : List Lexeme}
    (e : ofText maxDepth text = .error ⟨.malformedExpression, s⟩)
    (hp : parts = s.lexemes ++ ⟨.paren .opening, ['(']⟩ :: others) :
    FirstBeyond maxDepth parts s.lexemes := by
  have nested := nested_reached maxDepth text
  rw [e] at nested
  refine ⟨⟨others, by simp [hp]⟩, ?_, nested.bounded⟩
  rw [← (full_of_malformed e).1]
  exact nested.balanced

theorem prefix_of_ofText {maxDepth : Nat} {text : List Char}
    (e : ofText maxDepth text = .error ⟨.malformedExpression, s⟩) :
    textOf s.lexemes ++ ['('] <+: text := by
  have ⟨_, rest, ahead⟩ := full_of_malformed e
  have whole := textOf_reached maxDepth text
  rw [e] at whole
  exact ⟨rest, by rw [← whole, reached, ← ahead]; simp⟩

-- There is a limit from which on nothing changes. Under each lower one the text is refused at the
-- first parenthesis that opens a group too many, and in front of what is refused under a higher
-- one.
theorem validate_cut_off (text : List Char) : ∃ limit ≤ text.count '(',
    (∀ offset, validate limit text ≠ .error ⟨.malformedExpression, offset⟩) ∧
    (∀ maxDepth ≥ limit, validate maxDepth text = validate limit text) ∧
    (∀ maxDepth < limit, ∃ front,
      FirstBeyond maxDepth (reached (ofText limit text)).lexemes front ∧
      textOf front ++ ['('] <+: text ∧
      validate maxDepth text = .error ⟨.malformedExpression, byteLength (textOf front)⟩ ∧
      ∀ maxDepth' > maxDepth, ∀ violation, validate maxDepth' text = .error violation →
        byteLength (textOf front) < violation.offset) ∧
    (∀ maxDepth progress, validate maxDepth text = .ok progress →
      ∀ maxDepth' ≥ maxDepth, validate maxDepth' text = .ok progress) := by
  classical
  have uncut : ¬IsCut (text.count '(') text :=
    fun ⟨_, e⟩ => Nat.lt_irrefl _ (lt_count_of_malformed e)
  have some : ∃ maxDepth, ¬IsCut maxDepth text := ⟨_, uncut⟩
  refine ⟨Nat.find some, Nat.find_min' some uncut, ?_, ?_, ?_, ?_⟩
  · exact fun offset h => Nat.find_spec some (isCut_iff.mpr ⟨offset, h⟩)
  · exact fun maxDepth h => validate_eq_of_not_isCut h (Nat.find_spec some)
  · intro maxDepth h
    have cut : IsCut maxDepth text := not_not.mp (Nat.find_min some h)
    have ⟨s, parts, e, hp⟩ := exists_of_isCut h cut
    refine ⟨s.lexemes, firstBeyond_of_ofText e hp, prefix_of_ofText e, validate_eq_of_isCut e, ?_⟩
    intro maxDepth' h' violation hv
    have ⟨s', parts', e', hp'⟩ := exists_of_isCut h' cut
    cases e.symm.trans e'
    rw [offset_of_validate hv, hp', textOf_append, byteLength_append, textOf_cons,
      byteLength_append]
    exact Nat.lt_add_of_pos_right (Nat.add_pos_left (by decide) _)
  · intro maxDepth progress hv maxDepth' h
    rw [validate_eq_of_not_isCut h, hv]
    rw [isCut_iff, hv]
    exact fun ⟨_, e⟩ => nomatch e

end BoolSearch
