import BoolSearch.Proofs.Walk
import Mathlib.Data.List.Perm.Subperm

namespace BoolSearch

open Grammar

structure Lexeme.IsWhole (part : Lexeme) : Prop where
  nonempty : part.text ≠ []
  full : ∀ connective, part.kind = .connective connective → part.text.length = connective.width

def Moment.cursor (m : Moment) : Nat :=
  (textOf m.parts).length

def Moment.callsBlock (m : Moment) : Bool :=
  m.routine = .block && m.event = .called

theorem length_textOf_le {parts others : List Lexeme} (h : parts <+: others) :
    (textOf parts).length ≤ (textOf others).length := by
  obtain ⟨behind, rfl⟩ := h
  simp

-- Numbers that decrease between two bounds are not more than there are between the bounds.
theorem length_le_of_pairwise_gt {numbers : List Nat} {low high : Nat}
    (h : numbers.Pairwise (· > ·)) (hl : ∀ n ∈ numbers, low ≤ n) (hh : ∀ n ∈ numbers, n < high) :
    numbers.length ≤ high - low := by
  have nodup : numbers.Nodup := h.imp fun lt => Nat.ne_of_gt lt
  have sub : numbers ⊆ List.range' low (high - low) := by
    intro n hn
    have := hl n hn
    have := hh n hn
    rw [List.mem_range'_1]
    omega
  simpa using (nodup.subperm sub).length_le

namespace Walk

variable {w w' a b c : Walk} {new new' : List Moment} {least least' bound limit : Nat}
  {passage : Passage}

def text (w : Walk) : List Char :=
  textOf w.parts.reverse ++ w.rest

def cursor (w : Walk) : Nat :=
  (textOf w.parts.reverse).length

theorem length_text (w : Walk) : w.text.length = w.cursor + w.rest.length :=
  List.length_append

theorem cursor_le (w : Walk) : w.cursor ≤ w.text.length := by
  rw [length_text]
  exact Nat.le_add_right _ _

-- A way from one walk to another, with the moments that it adds to the record. It is at least so
-- long, and no block is called on it in front of the bound.
structure Trail (least bound : Nat) (w w' : Walk) (new : List Moment) : Prop where
  text_eq : w'.text = w.text
  taken : ∃ parts, parts ++ w.parts = w'.parts ∧ ∀ part ∈ parts, part.IsWhole
  record_eq : new ++ w.record = w'.record
  between : ∀ m ∈ new, w.parts.reverse <+: m.parts ∧ m.parts <+: w'.parts.reverse
  -- Each block is called further on than those before it.
  further : new.Pairwise fun later earlier =>
    earlier.callsBlock → later.callsBlock → earlier.cursor < later.cursor
  least_le : w.cursor + least ≤ w'.cursor
  bound_le : ∀ m ∈ new, m.callsBlock → bound ≤ m.cursor

theorem Trail.cursor_le (h : Trail least bound w w' new) : ∀ m ∈ new, w.cursor ≤ m.cursor :=
  fun m hm => length_textOf_le (h.between m hm).1

theorem Trail.le_cursor (h : Trail least bound w w' new) : ∀ m ∈ new, m.cursor ≤ w'.cursor :=
  fun m hm => length_textOf_le (h.between m hm).2

theorem Trail.lower {bound' : Nat} (h : Trail least bound w w' new) (hb : bound' ≤ bound) :
    Trail least bound' w w' new :=
  { h with bound_le := fun m hm call => Nat.le_trans hb (h.bound_le m hm call) }

theorem Trail.raise (h : Trail least bound w w' new) {bound' : Nat} (hb : bound' ≤ w.cursor) :
    Trail least bound' w w' new :=
  { h with bound_le := fun m hm _ => Nat.le_trans hb (h.cursor_le m hm) }

theorem Trail.weaken (h : Trail least bound w w' new) (hl : least' ≤ least) :
    Trail least' bound w w' new :=
  { h with least_le := Nat.le_trans (Nat.add_le_add_left hl _) h.least_le }

theorem Trail.trans (h : Trail least bound a b new) (h' : Trail least' bound b c new')
    (apart : ∀ m ∈ new, m.callsBlock → ∀ m' ∈ new', m'.callsBlock → m.cursor < m'.cursor) :
    Trail (least + least') bound a c (new' ++ new) := by
  have ⟨parts, e, whole⟩ := h.taken
  have ⟨parts', e', whole'⟩ := h'.taken
  have first : a.parts.reverse <+: b.parts.reverse := by simp [← e]
  have second : b.parts.reverse <+: c.parts.reverse := by simp [← e']
  exact {
    text_eq := h'.text_eq.trans h.text_eq
    taken := ⟨parts' ++ parts, by simp [← e', ← e],
      List.forall_mem_append.mpr ⟨whole', whole⟩⟩
    record_eq := by rw [← h'.record_eq, ← h.record_eq, List.append_assoc]
    between := by
      refine List.forall_mem_append.mpr ⟨fun m hm => ?_, fun m hm => ?_⟩
      · exact ⟨first.trans (h'.between m hm).1, (h'.between m hm).2⟩
      · exact ⟨(h.between m hm).1, (h.between m hm).2.trans second⟩
    further := List.pairwise_append.mpr ⟨h'.further, h.further,
      fun later hl earlier he call call' => apart earlier he call later hl call'⟩
    least_le := by
      have := h.least_le
      have := h'.least_le
      omega
    bound_le := List.forall_mem_append.mpr ⟨h'.bound_le, h.bound_le⟩ }

-- A way on which nothing is recorded comes in front.
theorem Trail.after (h : Trail least bound a b []) (h' : Trail least' bound b c new) :
    Trail (least + least') bound a c new := by
  simpa using h.trans h' (List.forall_mem_nil _)

theorem Trail.before (h : Trail least bound a b new) (h' : Trail least' bound b c []) :
    Trail (least + least') bound a c new :=
  h.trans h' fun _ _ _ => List.forall_mem_nil _

theorem trail_flags (w : Walk) (flags : Flags) : Trail 0 bound w { w with flags } [] where
  text_eq := rfl
  taken := ⟨[], rfl, List.forall_mem_nil _⟩
  record_eq := rfl
  between := List.forall_mem_nil _
  further := .nil
  least_le := Nat.le_refl _
  bound_le := List.forall_mem_nil _

theorem trail_refl (w : Walk) : Trail 0 bound w w [] :=
  trail_flags w w.flags

def moment (w : Walk) (routine : Routine) (event : Event) : Moment :=
  ⟨routine, event, w.parts.reverse, w.flags⟩

@[simp] theorem callsBlock_moment (w : Walk) (routine : Routine) (event : Event) :
    (w.moment routine event).callsBlock ↔ routine = .block ∧ event = .called := by
  simp only [Moment.callsBlock, Bool.and_eq_true, decide_eq_true_eq]
  rfl

theorem trail_note (w : Walk) (routine : Routine) (event : Event)
    (h : (w.moment routine event).callsBlock → bound ≤ w.cursor) :
    Trail 0 bound w (w.note routine event) [w.moment routine event] where
  text_eq := rfl
  taken := ⟨[], rfl, List.forall_mem_nil _⟩
  record_eq := rfl
  between := List.forall_mem_singleton.mpr ⟨List.prefix_rfl, List.prefix_rfl⟩
  further := List.pairwise_singleton _ _
  least_le := Nat.le_refl _
  bound_le := List.forall_mem_singleton.mpr h

theorem trail_push {kind : TokenKind} {text rest : List Char} (e : text ++ rest = w.rest)
    (whole : Lexeme.IsWhole ⟨kind, text⟩) : Trail 1 bound w (w.push kind text rest) [] where
  text_eq := by simp [Walk.text, push, ← e]
  taken := ⟨[⟨kind, text⟩], rfl, List.forall_mem_singleton.mpr whole⟩
  record_eq := rfl
  between := List.forall_mem_nil _
  further := .nil
  least_le := by
    have : 0 < text.length := List.length_pos_iff.mpr whole.nonempty
    simp only [cursor, push, List.reverse_cons, textOf_append, textOf_cons, textOf_nil,
      List.length_append, List.append_nil]
    omega
  bound_le := List.forall_mem_nil _

theorem trail_skipBlanks (w : Walk) : Trail 0 bound w w.skipBlanks [] where
  text_eq := by simp [Walk.text, skipBlanks, takeWhile_append_skipBlanks]
  taken := by
    refine ⟨_, rfl, fun part hp => ?_⟩
    obtain ⟨c, _, rfl⟩ := List.mem_map.mp (List.mem_reverse.mp hp)
    exact ⟨List.cons_ne_nil c [], nofun⟩
  record_eq := rfl
  between := List.forall_mem_nil _
  further := .nil
  least_le := by simp [cursor, skipBlanks]
  bound_le := List.forall_mem_nil _

theorem trail_pushConnective {connective : Connective} (h : keyword? w.rest = some connective) :
    Trail 1 bound w (w.pushConnective connective) [] := by
  have full : (w.rest.take connective.width).length = connective.width :=
    List.length_take_of_le (startsWith_length (startsWith_of_keyword? h))
  refine trail_push (List.take_append_drop _ _) ⟨?_, ?_⟩
  · apply List.ne_nil_of_length_pos
    rw [full]
    exact width_pos connective
  · rintro _ ⟨⟩
    exact full

-- The way that a passage goes. If it passes, no group is left open or closed by it, and each block
-- on it is called in front of its end.
inductive Runs (least bound : Nat) (w : Walk) : Passage → Prop
  | ok {w' : Walk} {new : List Moment} (trail : Trail least bound w w' new)
    (level : w'.flags.depth = w.flags.depth)
    (behind : ∀ m ∈ new, m.callsBlock → m.cursor < w'.cursor) : Runs least bound w (.ok w')
  | error {halt : Halt} {new : List Moment} (trail : Trail 0 bound w halt.walk new) :
    Runs least bound w (.error halt)

theorem Runs.weaken (h : Runs least bound w passage) (hl : least' ≤ least) :
    Runs least' bound w passage := by
  cases h
  case ok trail level behind => exact .ok (trail.weaken hl) level behind
  case error trail           => exact .error trail

theorem Runs.lower {bound' : Nat} (h : Runs least bound w passage) (hb : bound' ≤ bound) :
    Runs least bound' w passage := by
  cases h
  case ok trail level behind => exact .ok (trail.lower hb) level behind
  case error trail           => exact .error (trail.lower hb)

theorem Runs.trans (trail : Trail least bound a b new) (level : b.flags.depth = a.flags.depth)
    (behind : ∀ m ∈ new, m.callsBlock → m.cursor < b.cursor) (h : Runs least' bound b passage) :
    Runs (least + least') bound a passage := by
  have apart {c : Walk} {least bound : Nat} {new' : List Moment}
      (h : Trail least bound b c new') (m : Moment) (hm : m ∈ new) (call : m.callsBlock)
      (m' : Moment) (hm' : m' ∈ new') (_ : m'.callsBlock) : m.cursor < m'.cursor :=
    Nat.lt_of_lt_of_le (behind m hm call) (h.cursor_le m' hm')
  cases h
  case ok w' new' trail' level' behind' =>
    refine .ok (trail.trans trail' (apart trail')) (level'.trans level) ?_
    refine List.forall_mem_append.mpr ⟨behind', fun m hm call => ?_⟩
    have := trail'.least_le
    exact Nat.lt_of_lt_of_le (behind m hm call) (by omega)
  case error trail' => exact .error ((trail.trans trail' (apart trail')).weaken (Nat.zero_le _))

theorem Runs.after (trail : Trail least bound a b []) (level : b.flags.depth = a.flags.depth)
    (h : Runs least' bound b passage) : Runs least' bound a passage :=
  (Runs.trans trail level (List.forall_mem_nil _) h).weaken (Nat.le_add_left _ _)

theorem Runs.follow (h : Runs least bound a (.ok b)) (h' : Runs least' bound b passage) :
    Runs least' bound a passage := by
  cases h
  case ok trail level behind =>
    exact (Runs.trans trail level behind h').weaken (Nat.le_add_left _ _)

theorem Runs.cursor_le (h : Runs least bound w (.ok w')) : w.cursor + least ≤ w'.cursor := by
  cases h
  case ok trail _ _ => exact trail.least_le

theorem Runs.level (h : Runs least bound w (.ok w')) : w'.flags.depth = w.flags.depth := by
  cases h
  case ok _ level _ => exact level

theorem Runs.bind {run : Walk → Passage} (h : Runs least bound w passage)
    (hr : ∀ w', w.cursor + least ≤ w'.cursor → Runs least' bound w' (run w')) :
    Runs least' bound w (passage >>= run) := by
  cases passage
  case ok w'     => exact h.follow (hr w' h.cursor_le)
  case error halt =>
    cases h
    case error trail => exact .error trail

theorem Runs.pass (trail : Trail least bound w w' []) (level : w'.flags.depth = w.flags.depth) :
    Runs least bound w (.ok w') :=
  .ok trail level (List.forall_mem_nil _)

theorem runs_refuse (w : Walk) (kind : ViolationKind) : Runs least bound w (w.refuse kind) :=
  .error (trail_refl w)

theorem runs_refuseConnective (w : Walk) : Runs 0 bound w w.refuseConnective := by
  rw [refuseConnective]
  split
  case h_1 => exact .pass (trail_refl w) rfl
  case h_2 => exact runs_refuse w _

theorem runs_value (w : Walk) : Runs 1 bound w w.value := by
  rw [value]
  split
  case h_1 => exact runs_refuse w _
  case h_2 c _ =>
    split
    case isTrue =>
      split
      case h_1 text rest hq =>
        have ⟨quoted, e⟩ := quoted?_eq_some_iff.mp hq
        refine .pass (trail_push e ⟨?_, nofun⟩) rfl
        cases quoted
        exact List.cons_ne_nil _ _
      case h_2 => exact runs_refuse w _
    case isFalse =>
      split
      case h_1 => exact runs_refuse w _
      case h_2 text he =>
        exact .pass (trail_push List.takeWhile_append_dropWhile ⟨he, nofun⟩) rfl

theorem runs_keyValue (w : Walk) : Runs 1 bound w w.keyValue := by
  rw [keyValue]
  split
  case h_1 => exact runs_refuse w _
  case h_2 name he =>
    have key : Lexeme.IsWhole ⟨.key, w.rest.takeWhile isLetter⟩ := ⟨he, by rintro _ ⟨⟩⟩
    have named : Trail 1 bound w (w.push .key (w.rest.takeWhile isLetter)
        (w.rest.dropWhile isLetter)).skipBlanks [] :=
      (trail_push List.takeWhile_append_dropWhile key).after (trail_skipBlanks _)
    dsimp only
    split
    case h_1 rest e =>
      have sign : Lexeme.IsWhole ⟨.equals, ['=']⟩ := ⟨List.cons_ne_nil _ _, by rintro _ ⟨⟩⟩
      have equated : Trail 1 bound _ _ [] :=
        (trail_push e.symm sign).after (trail_skipBlanks _)
      exact .after named rfl (.after equated rfl (runs_value _))
    case h_2 => exact .error (named.weaken (Nat.zero_le _))

theorem Runs.settle (h : Runs least bound w passage) :
    Runs least bound w (passage.map Walk.settle) := by
  cases h
  case ok w' _ trail level behind =>
    exact .ok (trail.before (trail_flags w' _)) level behind
  case error trail => exact .error trail

theorem runs_leaf (w : Walk) : Runs 1 bound w w.leaf := by
  rw [leaf]
  split
  case h_1 =>
    split
    case isTrue  => exact runs_refuse w _
    case isFalse =>
      have seen : Trail 0 bound w w.seeKeyed [] := trail_flags w _
      exact (Runs.after seen rfl (runs_keyValue _)).settle
  case h_2 =>
    split
    case isTrue  => exact runs_refuse w _
    case isFalse =>
      have seen : Trail 0 bound w w.seePlain [] := trail_flags w _
      exact (Runs.after seen rfl (runs_value _)).settle

theorem runs_negation (w : Walk) : Runs 0 bound w w.negation := by
  rw [negation]
  split
  case isFalse => exact .pass (trail_refl w) rfl
  case isTrue h =>
    have negated : Trail 1 bound w w.pushNot [] :=
      ((trail_pushConnective h).after (trail_skipBlanks _)).after (trail_flags _ _)
    split
    case isTrue  => exact .error (negated.weaken (Nat.zero_le _))
    case isFalse => exact .after negated rfl (runs_refuseConnective _)

theorem keyword?_of_joining? {text : List Char} {connective : Connective}
    (h : joining? text = some connective) : keyword? text = some connective :=
  (Option.filter_eq_some_iff.mp h).1

theorem runs_join {connective : Connective} (h : joining? w.rest = some connective) :
    Runs 0 bound w ((w.join connective).map Prod.snd) := by
  have joined : Trail 0 bound w (w.pushJoining connective) [] :=
    (((trail_pushConnective (keyword?_of_joining? h)).after (trail_flags _ _)).after
      (trail_skipBlanks _)).weaken (Nat.zero_le _)
  rw [join]
  split
  case h_1 => exact .error joined
  case h_2 => exact .error joined
  case h_3 => exact .pass joined rfl

theorem runs_proceed (w : Walk) : Runs 0 bound w (w.proceed.map Prod.snd) := by
  rw [proceed]
  split
  case h_1 => exact .pass (trail_refl w) rfl
  case h_2 =>
    split
    case isTrue => exact runs_refuse w _
    case isFalse =>
      split
      case h_1 connective h => exact runs_join h
      case h_2 =>
        split
        case isTrue  => exact .pass (trail_refl w) rfl
        case isFalse => exact .pass (trail_refl w) rfl

-- It may be that nothing is taken.
theorem runs_next (w : Walk) : Runs 0 bound w (w.next.map Prod.snd) :=
  .after (trail_skipBlanks w) rfl (runs_proceed w.skipBlanks)

-- The call of a routine and its return are recorded. The blocks on the way are called further on.
theorem Trail.recorded {routine : Routine} {event : Event} {bound' : Nat}
    (h : Trail least bound' (w.note routine .called) w' new) (hb : bound ≤ bound')
    (hr : routine = .block → bound ≤ w.cursor ∧ w.cursor < bound') (he : event ≠ .called) :
    Trail least bound w (w'.note routine event)
      (w'.moment routine event :: (new ++ [w.moment routine .called])) := by
  have call : Trail 0 bound w (w.note routine .called) [w.moment routine .called] :=
    trail_note w routine .called fun hc => (hr ((callsBlock_moment ..).mp hc).1).1
  have last : Trail 0 bound w' (w'.note routine event) [w'.moment routine event] :=
    trail_note w' routine event fun hc => absurd ((callsBlock_moment ..).mp hc).2 he
  have inner : Trail least bound (w.note routine .called) w' new := h.lower hb
  have apart : ∀ m ∈ [w.moment routine .called], m.callsBlock →
      ∀ m' ∈ new, m'.callsBlock → m.cursor < m'.cursor := by
    rw [List.forall_mem_singleton]
    intro hc m' hm' hc'
    have lt := (hr ((callsBlock_moment ..).mp hc).1).2
    exact Nat.lt_of_lt_of_le lt (h.bound_le m' hm' hc')
  have away : ∀ m ∈ new ++ [w.moment routine .called], m.callsBlock →
      ∀ m' ∈ [w'.moment routine event], m'.callsBlock → m.cursor < m'.cursor := by
    intro m _ _ m' hm' hc'
    rw [List.mem_singleton.mp hm', callsBlock_moment] at hc'
    exact absurd hc'.2 he
  simpa using (call.trans inner apart).trans last away

theorem Runs.recorded {run : Walk → Passage} {bound' : Nat} (routine : Routine)
    (h : Runs least bound' (w.note routine .called) (run (w.note routine .called)))
    (hb : bound ≤ bound')
    (hr : routine = .block → bound ≤ w.cursor ∧ w.cursor < bound' ∧ 0 < least) :
    Runs least bound w (Walk.recorded routine run w) := by
  have hr' (he : routine = .block) : bound ≤ w.cursor ∧ w.cursor < bound' :=
    ⟨(hr he).1, (hr he).2.1⟩
  rw [Walk.recorded]
  generalize run (w.note routine .called) = passage at h
  cases h
  case ok w' new trail level behind =>
    refine .ok (trail.recorded hb hr' (by rintro ⟨⟩)) level ?_
    refine List.forall_mem_cons.mpr ⟨fun hc => ?_, List.forall_mem_append.mpr ⟨behind, ?_⟩⟩
    · cases ((callsBlock_moment ..).mp hc).2
    · rw [List.forall_mem_singleton]
      intro hc
      have pos := (hr ((callsBlock_moment ..).mp hc).1).2.2
      exact Nat.lt_of_lt_of_le (Nat.lt_add_of_pos_right pos) trail.least_le
  case error halt new trail => exact .error (trail.recorded hb hr' (by rintro ⟨⟩))

theorem trail_pushParen (paren : Paren) {c : Char} {rest : List Char} (e : c :: rest = w.rest) :
    Trail 1 bound w (w.push (.paren paren) [c] (w.rest.drop 1)) [] :=
  trail_push (by rw [← e]; rfl) ⟨List.cons_ne_nil c [], nofun⟩

theorem trail_enter {rest : List Char} (e : '(' :: rest = w.rest) : Trail 1 bound w w.enter [] :=
  (trail_pushParen .opening e).before (trail_flags _ _)

theorem trail_leave {rest : List Char} (e : ')' :: rest = w.rest) : Trail 1 bound w w.leave [] :=
  (trail_pushParen .closing e).before (trail_flags _ _)

-- The parenthesis is gone over before any block is called.
theorem runs_entered {inside : Walk → Passage} (hi : ∀ w, Runs 1 0 w (inside w)) (w : Walk)
    {rest : List Char} (e : '(' :: rest = w.rest) :
    Runs 1 (w.cursor + 1) w (inside w.enter.skipBlanks >>= groupEnd) := by
  have entered : Trail 1 (w.cursor + 1) w w.enter.skipBlanks [] :=
    (trail_enter e).before (trail_skipBlanks _)
  have inner := hi w.enter.skipBlanks
  generalize inside w.enter.skipBlanks = passage at inner
  cases inner
  case error trail =>
    exact .error ((entered.after (trail.raise entered.least_le)).weaken (Nat.zero_le _))
  case ok w' new trail level behind =>
    have through : Trail 2 (w.cursor + 1) w w' new := entered.after (trail.raise entered.least_le)
    have skipped : Trail 0 (w.cursor + 1) w' w'.skipBlanks [] := trail_skipBlanks w'
    show Runs 1 (w.cursor + 1) w w'.groupEnd
    rw [groupEnd]
    split
    case h_1 _ e' =>
      have left : Trail 1 (w.cursor + 1) w' w'.skipBlanks.leave [] :=
        skipped.after (trail_leave e'.symm)
      have level : w'.flags.depth - 1 = w.flags.depth := by
        rw [level]
        rfl
      refine .ok ((through.before left).weaken (by decide)) level fun m hm hc => ?_
      exact Nat.lt_of_lt_of_le (behind m hm hc) (Nat.le_of_add_right_le left.least_le)
    case h_2 => exact .error ((through.before skipped).weaken (Nat.zero_le _))

theorem runs_group {inside : Walk → Passage} (hi : ∀ w, Runs 1 0 w (inside w)) (w : Walk)
    {rest : List Char} (e : '(' :: rest = w.rest) :
    Runs 1 (w.cursor + 1) w (w.group limit inside) := by
  refine .recorded .group ?_ (Nat.le_refl _) nofun
  split
  case isTrue  => exact runs_refuse _ _
  case isFalse => exact runs_entered hi (w.note .group .called) e

theorem runs_operand {inside : Walk → Passage} (hi : ∀ w, Runs 1 0 w (inside w)) (w : Walk) :
    Runs 1 (w.cursor + 1) w (w.operand limit inside) := by
  rw [operand]
  split
  case h_1 e => exact runs_group hi w e.symm
  case h_2   => exact runs_leaf w

theorem runs_upToOperand (w : Walk) : Runs 0 bound w (w.refuseConnective >>= negation) :=
  (runs_refuseConnective w).bind fun w' _ => runs_negation w'

theorem runs_unrecorded {inside : Walk → Passage} (hi : ∀ w, Runs 1 0 w (inside w)) (w : Walk) :
    Runs 1 (w.cursor + 1) w (if w.skipBlanks.rest.isEmpty then w.skipBlanks.refuse .unexpectedEnd
      else w.skipBlanks.refuseConnective >>= negation >>= operand limit inside) := by
  have skipped : Trail 0 (w.cursor + 1) w w.skipBlanks [] := trail_skipBlanks w
  split
  case isTrue  => exact .error skipped
  case isFalse =>
    refine .after skipped rfl ((runs_upToOperand w.skipBlanks).bind fun w' hw => ?_)
    exact (runs_operand hi w').lower (Nat.succ_le_succ (Nat.le_trans skipped.least_le hw))

theorem runs_block {inside : Walk → Passage} (hi : ∀ w, Runs 1 0 w (inside w)) (w : Walk) :
    Runs 1 0 w (block limit inside w) :=
  .recorded .block (runs_unrecorded hi (w.note .block .called)) (Nat.zero_le _)
    fun _ => ⟨Nat.zero_le _, Nat.lt_succ_self _, Nat.one_pos⟩

theorem runs_next_of_ok {block : Walk → Passage} (hb : ∀ w, Runs 1 0 w (block w))
    (h : block a = .ok b) : Runs 1 0 a (b.next.map Prod.snd) := by
  have passed := hb a
  rw [h] at passed
  cases passed
  case ok trail level behind => exact .trans trail level behind (runs_next b)

theorem runs_of_next {block : Walk → Passage} (hb : ∀ w, Runs 1 0 w (block w)) {more : Bool}
    (h : block a = .ok b) (hn : b.next = .ok (more, c)) : Runs 1 0 a (.ok c) := by
  have next := runs_next_of_ok hb h
  rwa [hn] at next

theorem Runs.length_rest_lt (h : Runs 1 bound w (.ok w')) : w'.rest.length < w.rest.length := by
  cases h
  case ok trail _ _ =>
    have same := congrArg List.length trail.text_eq
    have far := trail.least_le
    rw [length_text, length_text] at same
    omega

theorem runs_loop {block : Walk → Passage} (hb : ∀ w, Runs 1 0 w (block w)) (w : Walk) :
    Runs 1 0 w (loop block w) := by
  fun_induction loop block w with
  | case1 w halt h => exact h ▸ hb w
  | case2 w w₁ h halt hn =>
    have next := runs_next_of_ok hb h
    rwa [hn] at next
  | case3 w w₁ h w₂ hn      => exact runs_of_next hb h hn
  | case4 w w₁ h w₂ hn _ hi => exact (runs_of_next hb h hn).follow hi
  | case5 w w₁ h w₂ hn _    => exact runs_of_next hb h hn

-- The guard of the loop always holds.
theorem loop_eq {block : Walk → Passage} (hb : ∀ w, Runs 1 0 w (block w)) (w : Walk) :
    loop block w =
      match block w with
      | .error halt => .error halt
      | .ok w' =>
        match w'.next with
        | .error halt      => .error halt
        | .ok (false, w'') => .ok w''
        | .ok (true, w'')  => loop block w'' := by
  rw [loop]
  cases h : block w with
  | error => rfl
  | ok w' =>
    dsimp only
    cases hn : w'.next with
    | error => rfl
    | ok next =>
      obtain ⟨more, w''⟩ := next
      cases more
      case false => rfl
      case true  => exact if_pos (runs_of_next hb h hn).length_rest_lt

-- What the groups hold in an expression with so much room.
def inside (limit : Nat) : Nat → Walk → Passage
  | 0        => (·.refuse .malformedExpression)
  | room + 1 => expression limit room

theorem expression_eq (limit room : Nat) :
    expression limit room = recorded .expression (loop (block limit (inside limit room))) := by
  cases room <;> rfl

theorem runs_inside (room : Nat) : ∀ w, Runs 1 0 w (inside limit room w) := by
  induction room
  case zero => exact fun w => runs_refuse w .malformedExpression
  case succ room hi =>
    intro w
    show Runs 1 0 w (expression limit room w)
    rw [expression_eq]
    exact .recorded .expression (runs_loop (runs_block hi) _) (Nat.le_refl _) nofun

def AgreeAt (depth : Nat) (run run' : Walk → Passage) : Prop :=
  ∀ w : Walk, w.flags.depth = depth → run w = run' w

theorem recorded_congr {run run' : Walk → Passage} (routine : Routine)
    (h : run (w.note routine .called) = run' (w.note routine .called)) :
    recorded routine run w = recorded routine run' w := by
  rw [recorded, recorded, h]

section Congruence

variable {depth : Nat} {f g : Walk → Passage}

theorem group_congr (h : depth < limit → AgreeAt (depth + 1) f g) :
    AgreeAt depth (group limit f) (group limit g) := by
  rintro w rfl
  refine recorded_congr .group ?_
  split
  case isTrue  => rfl
  case isFalse hd => rw [h (Nat.lt_of_not_le hd) _ rfl]

theorem operand_congr (h : depth < limit → AgreeAt (depth + 1) f g) :
    AgreeAt depth (operand limit f) (operand limit g) := by
  intro w hw
  rw [operand, operand]
  split
  case h_1 => exact group_congr h w hw
  case h_2 => rfl

theorem block_congr (h : depth < limit → AgreeAt (depth + 1) f g) :
    AgreeAt depth (block limit f) (block limit g) := by
  rintro w hw
  refine recorded_congr .block ?_
  split
  case isTrue => rfl
  case isFalse =>
    let skipped := (w.note .block .called).skipBlanks
    have runs : Runs 0 0 skipped (skipped.refuseConnective >>= negation) := runs_upToOperand skipped
    show skipped.refuseConnective >>= negation >>= operand limit f =
      skipped.refuseConnective >>= negation >>= operand limit g
    generalize skipped.refuseConnective >>= negation = passage at runs ⊢
    cases passage
    case error => rfl
    case ok w' => exact operand_congr h w' (runs.level.trans hw)

theorem loop_congr (hf : ∀ w, Runs 1 0 w (f w)) (h : AgreeAt depth f g) :
    AgreeAt depth (loop f) (loop g) := by
  intro w hw
  fun_induction loop f w with
  | case1 w halt e => rw [loop, ← h w hw, e]
  | case2 w w₁ e halt hn =>
    rw [loop, ← h w hw, e]
    simp only [hn]
  | case3 w w₁ e w₂ hn =>
    rw [loop, ← h w hw, e]
    simp only [hn]
  | case4 w w₁ e w₂ hn shorter hi =>
    have level := (runs_of_next hf e hn).level
    rw [hi (level.trans hw), loop.eq_def g w, ← h w hw, e]
    simp only [hn, if_pos shorter]
  | case5 w w₁ e w₂ hn shorter =>
    rw [loop, ← h w hw, e]
    simp only [hn, if_neg shorter]

theorem expression_congr (hf : ∀ w, Runs 1 0 w (f w))
    (h : depth < limit → AgreeAt (depth + 1) f g) :
    AgreeAt depth (recorded .expression (loop (block limit f)))
      (recorded .expression (loop (block limit g))) :=
  fun _ hw => recorded_congr .expression (loop_congr (runs_block hf) (block_congr h) _ hw)

-- Room for more groups than the limit admits makes no difference.
theorem inside_congr {room room' : Nat} (hd : depth ≤ limit) (h : limit < depth + room)
    (h' : limit < depth + room') : AgreeAt depth (inside limit room) (inside limit room') := by
  induction room generalizing depth room'
  case zero => omega
  case succ room hi =>
    cases room'
    case zero => omega
    case succ =>
      rw [inside, inside, expression_eq, expression_eq]
      refine expression_congr (runs_inside room) fun hd => hi hd ?_ ?_
      · omega
      · omega

end Congruence

def parse (limit : Nat) : Walk → Passage :=
  expression limit limit

theorem runs_parse (w : Walk) : Runs 1 0 w (parse limit w) :=
  runs_inside (limit + 1) w

-- The room never runs out, so that it plays no part in the recursion.
theorem parse_eq (limit : Nat) :
    parse limit = recorded .expression (loop (block limit (parse limit))) := by
  funext w
  have same (hd : w.flags.depth < limit) :
      AgreeAt (w.flags.depth + 1) (inside limit limit) (inside limit (limit + 1)) :=
    inside_congr hd (by omega) (by omega)
  calc parse limit w
    _ = recorded .expression (loop (block limit (inside limit limit))) w := by
      rw [parse, expression_eq]
    _ = recorded .expression (loop (block limit (parse limit))) w :=
      expression_congr (runs_inside limit) same w rfl

-- Where the flags are those of a reading, the routines go as readings do.
theorem follows_parse {depth room : Nat} (h : depth + room = limit) :
    Reading.FollowsAt limit depth (Reading.expression room) (parse limit) := by
  intro r record hd
  have same : AgreeAt depth (inside limit (room + 1)) (inside limit (limit + 1)) :=
    inside_congr (by omega) (by omega) (by omega)
  show Reading.Follows limit r record _ (inside limit (limit + 1) (r.walk record))
  rw [← same (r.walk record) hd]
  exact Reading.follows_expression h r record hd

theorem follows_block {depth room : Nat} (h : depth + room = limit) :
    Reading.FollowsAt limit depth (Reading.block (Reading.insideOf room))
      (block limit (parse limit)) := by
  refine Reading.follows_block h fun read hr => ?_
  cases room
  case zero      => cases hr
  case succ room =>
    cases hr
    exact follows_parse (by omega)

structure LooksWithin (text : List Char) : Prop where
  keyword : ∀ connective, keyword? text = some connective → connective.width ≤ text.length
  key : ∀ head, key? text = some head → head.name ++ head.blanks ++ '=' :: head.rest = text
  quoted : ∀ value rest, quoted? text = some (value, rest) → value ++ rest = text
  word : firstWord text <+: text

theorem looksWithin (text : List Char) : LooksWithin text where
  keyword _ h := startsWith_length (startsWith_of_keyword? h)
  key _ h := append_of_key? h
  quoted _ _ h := append_of_quoted? h
  word := exists_firstWord_append text

-- The moments that are recorded between two walks through a text. A block that is called where text
-- is left takes up one of the characters, and there may be one more call, at the end of the text.
structure Calls (w w' : Walk) (new : List Moment) : Prop where
  record_eq : new ++ w.record = w'.record
  within : ∀ m ∈ new, textOf m.parts <+: w.text ∧ w.cursor ≤ m.cursor ∧ m.cursor ≤ w'.cursor
  further : (new.filter Moment.callsBlock).Pairwise
    fun later earlier => earlier.cursor < later.cursor
  begun : new.countP (fun m => m.callsBlock && m.cursor < w.text.length) ≤
    w.text.length - w.cursor
  all : new.countP Moment.callsBlock ≤ w.text.length - w.cursor + 1

structure Advances (w : Walk) (passage : Passage) : Prop where
  text_eq : passage.last.text = w.text
  -- Each part has been read from the text as a whole.
  taken : ∃ parts, parts ++ w.parts = passage.last.parts ∧ ∀ part ∈ parts, part.IsWhole
  passed : ∀ w', passage = .ok w' → w.cursor < w'.cursor ∧ w'.cursor ≤ w.text.length
  failed : ∀ halt, passage = .error halt →
    w.cursor ≤ halt.walk.cursor ∧ halt.walk.cursor ≤ w.text.length
  calls : ∃ new, Calls w passage.last new ∧
    ∀ w', passage = .ok w' → new.countP Moment.callsBlock ≤ w'.cursor - w.cursor

-- There are no more calls than places at which a block may be called.
theorem Trail.countP_le (h : Trail least bound w w' new) {p : Moment → Bool} {high : Nat}
    (hp : ∀ m ∈ new, p m → m.callsBlock ∧ m.cursor < high) : new.countP p ≤ high - w.cursor := by
  have falling : ((new.filter p).map Moment.cursor).Pairwise (· > ·) := by
    rw [List.pairwise_map]
    refine (h.further.filter p).imp_of_mem fun {later earlier} hl he further => ?_
    have ⟨hl, pl⟩ := List.mem_filter.mp hl
    have ⟨he, pe⟩ := List.mem_filter.mp he
    exact further (hp earlier he pe).1 (hp later hl pl).1
  have low : ∀ n ∈ (new.filter p).map Moment.cursor, w.cursor ≤ n :=
    List.forall_mem_map.mpr fun m hm => h.cursor_le m (List.mem_filter.mp hm).1
  have below : ∀ n ∈ (new.filter p).map Moment.cursor, n < high :=
    List.forall_mem_map.mpr fun m hm =>
      (hp m (List.mem_filter.mp hm).1 (List.mem_filter.mp hm).2).2
  have few := length_le_of_pairwise_gt falling low below
  rwa [List.length_map, ← List.countP_eq_length_filter] at few

theorem Trail.prefix_text (h : Trail least bound w w' new) :
    ∀ m ∈ new, textOf m.parts <+: w.text := by
  intro m hm
  obtain ⟨behind, e⟩ := (h.between m hm).2
  refine ⟨textOf behind ++ w'.rest, ?_⟩
  rw [← h.text_eq, text, ← e, textOf_append, List.append_assoc]

theorem Trail.cursor_le_length (h : Trail least bound w w' new) : w'.cursor ≤ w.text.length := by
  rw [← h.text_eq]
  exact w'.cursor_le

theorem Trail.calls (h : Trail least bound w w' new) : Calls w w' new where
  record_eq := h.record_eq
  within m hm := ⟨h.prefix_text m hm, h.cursor_le m hm, h.le_cursor m hm⟩
  further := by
    refine (h.further.filter Moment.callsBlock).imp_of_mem fun hl he further => ?_
    exact further (List.mem_filter.mp he).2 (List.mem_filter.mp hl).2
  begun := h.countP_le fun m _ hp => by simpa using hp
  all := by
    have few : new.countP Moment.callsBlock ≤ w.text.length + 1 - w.cursor := by
      refine h.countP_le fun m hm call => ⟨call, ?_⟩
      exact Nat.lt_succ_of_le (Nat.le_trans (h.le_cursor m hm) h.cursor_le_length)
    omega

theorem Runs.advances (h : Runs 1 bound w passage) : Advances w passage := by
  cases h
  case ok w' new trail _ behind =>
    exact {
      text_eq := trail.text_eq
      taken := trail.taken
      passed := by
        rintro _ ⟨⟩
        exact ⟨trail.least_le, trail.cursor_le_length⟩
      failed := nofun
      calls := by
        refine ⟨new, trail.calls, ?_⟩
        rintro _ ⟨⟩
        exact trail.countP_le fun m hm call => ⟨call, behind m hm call⟩ }
  case error new trail =>
    exact {
      text_eq := trail.text_eq
      taken := trail.taken
      passed := nofun
      failed := by
        rintro _ ⟨⟩
        exact ⟨trail.least_le, trail.cursor_le_length⟩
      calls := ⟨new, trail.calls, nofun⟩ }

-- From any place in a text and with any flags, the routines get on and stay in the text, whatever
-- the limit. They call each other and go on as told, without any other bound, and where the flags
-- are those of a reading they go as readings do.
theorem parser_advances (limit : Nat) (w : Walk) :
    parse limit w = recorded .expression (loop (block limit (parse limit))) w ∧
    loop (block limit (parse limit)) w =
      (match block limit (parse limit) w with
      | .error halt => .error halt
      | .ok w' =>
        match w'.next with
        | .error halt      => .error halt
        | .ok (false, w'') => .ok w''
        | .ok (true, w'')  => loop (block limit (parse limit)) w'') ∧
    (∀ depth room, depth + room = limit →
      Reading.FollowsAt limit depth (Reading.expression room) (parse limit) ∧
      Reading.FollowsAt limit depth (Reading.block (Reading.insideOf room))
        (block limit (parse limit))) ∧
    (ofText limit w.text).report w.text = (validate limit w.text).map Progress.flags ∧
    Advances w (block limit (parse limit) w) ∧
    Advances w (parse limit w) ∧
    (∀ rest, '(' :: rest = w.rest → Advances w (group limit (parse limit) w)) ∧
    LooksWithin w.rest :=
  ⟨congrFun (parse_eq limit) w, loop_eq (runs_block runs_parse) w,
    fun _ _ h => ⟨follows_parse h, follows_block h⟩, report_ofText limit w.text,
    (runs_block runs_parse w).advances, (runs_parse w).advances,
    fun _ e => (runs_group runs_parse w e).advances, looksWithin w.rest⟩

-- The last block may be called at the end of the text.
example : (ofText 2 "((".toList).last.record.countP Moment.callsBlock = 3 := by cbv

end Walk

end BoolSearch
