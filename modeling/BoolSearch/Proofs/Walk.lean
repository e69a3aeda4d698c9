import BoolSearch.Proofs.Steps

namespace BoolSearch

open Grammar

-- The parse state, shared by all routines. Nothing in the types ties the flags to each other.
structure Flags where
  depth : Nat := 0
  sawPlain : Bool := false
  sawKeyed : Bool := false
  lastConnective : Bool := false
  lastBlock : Bool := false
  deriving DecidableEq, Repr

inductive Routine
  | expression
  | block
  | group
  deriving DecidableEq, Repr

inductive Event
  | called
  -- The flags are those at the call.
  | passed (entry : Flags)
  | failed (kind : ViolationKind)
  deriving DecidableEq, Repr

structure Moment where
  routine : Routine
  event : Event
  parts : List Lexeme
  flags : Flags
  deriving DecidableEq, Repr

structure Walk where
  -- What has been read, the latest part first.
  parts : List Lexeme
  rest : List Char
  flags : Flags
  -- The calls and returns so far, the latest one first.
  record : List Moment
  deriving DecidableEq, Repr

structure Halt where
  kind : ViolationKind
  walk : Walk
  deriving DecidableEq, Repr

abbrev Passage := Except Halt Walk

namespace Walk

def start (text : List Char) : Walk where
  parts := []
  rest := text
  flags := {}
  record := []

def refuse (w : Walk) (kind : ViolationKind) : Except Halt α :=
  .error ⟨kind, w⟩

def push (w : Walk) (kind : TokenKind) (text rest : List Char) : Walk :=
  { w with parts := ⟨kind, text⟩ :: w.parts, rest }

def skipBlanks (w : Walk) : Walk :=
  { w with
    parts := (Scan.blanks (w.rest.takeWhile isBlank)).reverse ++ w.parts
    rest := BoolSearch.skipBlanks w.rest }

def note (w : Walk) (routine : Routine) (event : Event) : Walk :=
  { w with record := ⟨routine, event, w.parts.reverse, w.flags⟩ :: w.record }

def recorded (routine : Routine) (run : Walk → Passage) (w : Walk) : Passage :=
  match run (w.note routine .called) with
  | .ok w'         => .ok (w'.note routine (.passed w.flags))
  | .error halt => .error ⟨halt.kind, halt.walk.note routine (.failed halt.kind)⟩

def refuseConnective (w : Walk) : Passage :=
  match standalone? w.rest with
  | none   => .ok w
  | some _ => w.refuse (if w.flags.lastConnective then .duplicateConnective else .valueExpected)

def value (w : Walk) : Passage :=
  match w.rest with
  | [] => w.refuse .valueExpected
  | c :: _ =>
    if isQuote c then
      match quoted? w.rest with
      | some (text, rest) => .ok (w.push .quoted text rest)
      | none              => w.refuse .unterminatedQuote
    else
      match w.rest.takeWhile isBare with
      | []   => w.refuse .valueExpected
      | text => .ok (w.push .bare text (w.rest.dropWhile isBare))

-- Goes over a key, its equals sign and its value. None of them is taken for granted.
def keyValue (w : Walk) : Passage :=
  match w.rest.takeWhile isLetter with
  | [] => w.refuse .keyExpected
  | name =>
    let named := (w.push .key name (w.rest.dropWhile isLetter)).skipBlanks
    match named.rest with
    | '=' :: rest => (named.push .equals ['='] rest).skipBlanks.value
    | _           => named.refuse .equalsExpected

def settle (w : Walk) : Walk :=
  { w with flags := { w.flags with lastConnective := false, lastBlock := true } }

def seePlain (w : Walk) : Walk :=
  { w with flags := { w.flags with sawPlain := true } }

def seeKeyed (w : Walk) : Walk :=
  { w with flags := { w.flags with sawKeyed := true } }

def leaf (w : Walk) : Passage :=
  match key? w.rest with
  | some _ =>
    if w.flags.sawPlain then w.refuse .mixedExpressionTypes else w.seeKeyed.keyValue.map settle
  | none =>
    if w.flags.sawKeyed then w.refuse .mixedExpressionTypes else w.seePlain.value.map settle

def enter (w : Walk) : Walk :=
  let w := w.push (.paren .opening) ['('] (w.rest.drop 1)
  { w with flags := { w.flags with depth := w.flags.depth + 1 } }

def leave (w : Walk) : Walk :=
  let w := w.push (.paren .closing) [')'] (w.rest.drop 1)
  { w with flags := { w.flags with depth := w.flags.depth - 1 } }.settle

def groupEnd (w : Walk) : Passage :=
  match w.skipBlanks.rest with
  | ')' :: _ => .ok w.skipBlanks.leave
  | _        => w.skipBlanks.refuse .missingClosingParen

def group (limit : Nat) (inside : Walk → Passage) : Walk → Passage :=
  recorded .group fun w =>
    if limit ≤ w.flags.depth then w.refuse .malformedExpression
    else inside w.enter.skipBlanks >>= groupEnd

def operand (limit : Nat) (inside : Walk → Passage) (w : Walk) : Passage :=
  match w.rest with
  | '(' :: _ => w.group limit inside
  | _        => w.leaf

def pushConnective (w : Walk) (connective : Connective) : Walk :=
  w.push (.connective connective) (w.rest.take connective.width) (w.rest.drop connective.width)

def clearConnective (w : Walk) : Walk :=
  { w with flags := { w.flags with lastConnective := false } }

def pushNot (w : Walk) : Walk :=
  (w.pushConnective .not).skipBlanks.clearConnective

def negation (w : Walk) : Passage :=
  if keyword? w.rest = some .not then
    if w.pushNot.rest.isEmpty then w.pushNot.refuse .valueExpected
    else w.pushNot.refuseConnective
  else .ok w

def block (limit : Nat) (inside : Walk → Passage) : Walk → Passage :=
  recorded .block fun w =>
    if w.skipBlanks.rest.isEmpty then w.skipBlanks.refuse .unexpectedEnd
    else w.skipBlanks.refuseConnective >>= negation >>= operand limit inside

def pushJoining (w : Walk) (connective : Connective) : Walk :=
  let w := w.pushConnective connective
  { w with flags := { w.flags with lastConnective := true, lastBlock := false } }.skipBlanks

def join (w : Walk) (connective : Connective) : Except Halt (Bool × Walk) :=
  match (w.pushJoining connective).rest with
  | [] | ')' :: _ => (w.pushJoining connective).refuse .expressionExpectedAfterConnective
  | _             => .ok (true, w.pushJoining connective)

def proceed (w : Walk) : Except Halt (Bool × Walk) :=
  match w.rest with
  | []     => .ok (false, w)
  | c :: _ =>
    if w.flags.lastBlock && isOperandStart c && !nextJoins w.rest then w.refuse .missingConnective
    else match joining? w.rest with
      | some connective => w.join connective
      | none            => .ok (if c = ')' || w.flags.depth = 0 then (false, w) else (true, w))

-- Goes on behind a block. Does another one follow?
def next (w : Walk) : Except Halt (Bool × Walk) :=
  w.skipBlanks.proceed

def loop (block : Walk → Passage) (w : Walk) : Passage :=
  match block w with
  | .error halt => .error halt
  | .ok w' =>
    match w'.next with
    | .error halt    => .error halt
    | .ok (false, w'')  => .ok w''
    | .ok (true, w'')   => if w''.rest.length < w.rest.length then loop block w'' else .ok w''
termination_by w.rest.length

-- There is always room for a group that the limit admits.
def expression (limit : Nat) : Nat → Walk → Passage
  | 0        => recorded .expression (loop (block limit (·.refuse .malformedExpression)))
  | room + 1 => recorded .expression (loop (block limit (expression limit room)))

def finish (w : Walk) : Passage :=
  if !w.rest.isEmpty then w.refuse .trailingCharacters
  else if w.flags.depth ≠ 0 then w.refuse .unbalancedParens
  else .ok w

def ofText (limit : Nat) (text : List Char) : Passage :=
  expression limit limit (start text).skipBlanks >>= fun w => w.skipBlanks.finish

end Walk

def Passage.last : Passage → Walk
  | .ok w          => w
  | .error halt => halt.walk

-- What is reported of a walk through the text.
def Passage.report (text : List Char) : Passage → Except Violation Flags
  | .ok w          => .ok w.flags
  | .error halt => .error ⟨halt.kind, byteLength text - byteLength halt.walk.rest⟩

def Progress.flags (progress : Progress) : Flags where
  depth := progress.depth
  sawPlain := progress.form = some .plain
  sawKeyed := progress.form = some .keyed
  lastConnective := progress.latest = .connective
  lastBlock := progress.latest = .block

namespace Reading

variable {r s : Reading} {record : List Moment} {limit : Nat}

def walk (r : Reading) (record : List Moment) : Walk where
  parts := r.parts
  rest := r.rest
  flags := r.progress.flags
  record := record

theorem walk_start (text : List Char) : (start text).walk [] = Walk.start text := rfl

@[simp] theorem rest_walk : (r.walk record).rest = r.rest := rfl

@[simp] theorem flags_walk : (r.walk record).flags = r.progress.flags := rfl

@[simp] theorem walk_push (kind : TokenKind) (text rest : List Char) :
    (r.walk record).push kind text rest = (r.push kind text rest).walk record := rfl

@[simp] theorem walk_skipBlanks : (r.walk record).skipBlanks = r.skipBlanks.walk record := rfl

theorem walk_note (routine : Routine) (event : Event) : (r.walk record).note routine event =
    r.walk (⟨routine, event, r.lexemes, r.progress.flags⟩ :: record) := rfl

-- The passage that a walk takes where a reading has this outcome, with nothing recorded on the way.
def passage (record : List Moment) : Outcome → Passage
  | .ok r            => .ok (r.walk record)
  | .error rejection => .error ⟨rejection.kind, rejection.reading.walk record⟩

@[simp] theorem passage_ok : passage record (.ok r) = .ok (r.walk record) := rfl

@[simp] theorem passage_reject (kind : ViolationKind) :
    passage record (r.reject kind) = (r.walk record).refuse kind := rfl

theorem walk_refuseConnective :
    (r.walk record).refuseConnective = passage record r.refuseConnective := by
  rw [Walk.refuseConnective, refuseConnective, rest_walk]
  cases standalone? r.rest
  case none => rfl
  case some => simp [Progress.flags]

theorem walk_value : (r.walk record).value = passage record r.value := by
  simp only [Walk.value, value, rest_walk]
  cases r.rest
  case nil => rfl
  case cons c text =>
    by_cases hq : isQuote c
    case pos =>
      simp only [hq, if_true]
      cases quoted? (c :: text) <;> rfl
    case neg =>
      simp only [hq, Bool.false_eq_true, if_false]
      cases (c :: text).takeWhile isBare <;> rfl

-- Where a key has been seen ahead, going over it again finds the key and its equals sign.
theorem walk_keyValue {head : KeyHead} (h : key? r.rest = some head) :
    (r.walk record).keyValue = passage record (r.pushKey head).value := by
  have ⟨hn, hg, all⟩ := key?_eq_some_iff.mp h
  rw [List.append_assoc] at all
  have stop : ∀ c ∈ (head.blanks ++ '=' :: head.rest).head?, isLetter c = false :=
    isLetter_head?_of_isBlanks hg
  have stop' : ∀ c ∈ ('=' :: head.rest).head?, isBlank c = false := by
    rintro _ ⟨⟩
    decide
  have hskip : (r.push .key head.name (head.blanks ++ '=' :: head.rest)).skipBlanks =
      (r.push .key head.name (head.blanks ++ '=' :: head.rest)).pushBlanks head.blanks
        ('=' :: head.rest) := skipBlanks_eq_along hg stop' rfl
  have named : r.rest.takeWhile isLetter = head.name := by rw [← all, takeWhile_run hn.2 stop]
  have after : r.rest.dropWhile isLetter = head.blanks ++ '=' :: head.rest := by
    rw [← all, dropWhile_run hn.2 stop]
  rw [Walk.keyValue, rest_walk, named]
  split
  case h_1 e => exact absurd hn.1 (by simp [e])
  case h_2 =>
    rw [after, walk_push, walk_skipBlanks, hskip]
    show ((r.pushKey head).walk record).value = _
    exact walk_value

theorem map_settle (outcome : Outcome) :
    (passage record outcome).map Walk.settle =
      passage record (outcome.map (·.setLatest .block)) := by
  cases outcome <;> rfl

theorem walk_seePlain (h : r.progress.form ≠ some .keyed) :
    (r.walk record).seePlain = (r.setForm .plain).walk record := by
  have unseen : decide (r.progress.form = some .keyed) = false := decide_eq_false h
  simp only [Walk.seePlain, walk, Progress.flags, unseen]
  rfl

theorem walk_seeKeyed (h : r.progress.form ≠ some .plain) :
    (r.walk record).seeKeyed = (r.setForm .keyed).walk record := by
  have unseen : decide (r.progress.form = some .plain) = false := decide_eq_false h
  simp only [Walk.seeKeyed, walk, Progress.flags, unseen]
  rfl

-- Since the other flag is refused, setting one of them gives the blocks one form.
theorem walk_leaf : (r.walk record).leaf = passage record r.leaf := by
  rw [Walk.leaf, leaf, formed, rest_walk]
  cases hk : key? r.rest
  case some head =>
    by_cases hf : r.progress.form = some .plain
    case pos => simp [flags_walk, Progress.flags, hf, Except.map, reject, passage, Walk.refuse]
    case neg =>
      have unseen : (r.walk record).flags.sawPlain = false := decide_eq_false hf
      simp only [unseen, hf, Bool.false_eq_true, if_false]
      rw [walk_seeKeyed hf, walk_keyValue (r := r.setForm .keyed) hk, map_settle]
  case none =>
    by_cases hf : r.progress.form = some .keyed
    case pos => simp [flags_walk, Progress.flags, hf, Except.map, reject, passage, Walk.refuse]
    case neg =>
      have unseen : (r.walk record).flags.sawKeyed = false := decide_eq_false hf
      simp only [unseen, hf, Bool.false_eq_true, if_false]
      rw [walk_seePlain hf, walk_value, map_settle]

theorem walk_enter {rest : List Char} (e : '(' :: rest = r.rest) :
    (r.walk record).enter = (r.openGroup rest).walk record := by
  rw [Walk.enter, rest_walk, ← e]
  rfl

theorem walk_leave {rest : List Char} (e : ')' :: rest = r.rest) :
    (r.walk record).leave = (r.closeGroup rest).walk record := by
  rw [Walk.leave, rest_walk, ← e]
  rfl

theorem walk_groupEnd : (r.walk record).groupEnd = passage record r.groupEnd := by
  rw [Walk.groupEnd, groupEnd, walk_skipBlanks, rest_walk]
  generalize r.skipBlanks = s
  cases hs : s.rest
  case nil => rfl
  case cons c rest =>
    by_cases hc : c = ')'
    case pos =>
      subst hc
      exact congrArg Except.ok (walk_leave hs.symm)
    case neg => simp [hc]

theorem walk_clearConnective (r : Reading) : (r.walk record).clearConnective =
    (r.setLatest (if r.progress.latest = .connective then .neither else r.progress.latest)).walk
      record := by
  obtain ⟨parts, rest, depth, form, latest⟩ := r
  cases latest <;> rfl

theorem walk_pushNot : (r.walk record).pushNot = r.pushNot.walk record :=
  walk_clearConnective (r.pushConnective .not).skipBlanks

theorem walk_negation : (r.walk record).negation = passage record r.negation := by
  simp only [Walk.negation, negation, rest_walk, walk_pushNot]
  split
  case isFalse => rfl
  case isTrue =>
    split
    case isTrue => rfl
    case isFalse => exact walk_refuseConnective

theorem walk_pushJoining (connective : Connective) :
    (r.walk record).pushJoining connective = (r.pushJoining connective).walk record := rfl

def passageNext (record : List Moment) : Except Rejection Next → Except Halt (Bool × Walk)
  | .ok (.done r)    => .ok (false, r.walk record)
  | .ok (.more r)    => .ok (true, r.walk record)
  | .error rejection => .error ⟨rejection.kind, rejection.reading.walk record⟩

theorem walk_join (connective : Connective) :
    (r.walk record).join connective = passageNext record (r.join connective) := by
  rw [Walk.join, join, walk_pushJoining, rest_walk]
  generalize r.pushJoining connective = s
  cases hs : s.rest
  case nil => rfl
  case cons c rest =>
    by_cases hc : c = ')'
    case pos => subst hc; rfl
    case neg => simp [hc, passageNext]

@[simp] theorem depth_flags (progress : Progress) : progress.flags.depth = progress.depth := rfl

theorem walk_proceed : (r.walk record).proceed = passageNext record r.proceed := by
  rw [Walk.proceed, proceed, rest_walk]
  cases hr : r.rest
  case nil => rfl
  case cons c rest =>
    have latest : (r.walk record).flags.lastBlock = decide (r.progress.latest = .block) := rfl
    dsimp only
    rw [latest]
    by_cases missing :
      decide (r.progress.latest = .block) && isOperandStart c && !nextJoins (c :: rest)
    case pos =>
      rw [if_pos missing, if_pos missing]
      rfl
    case neg =>
      rw [if_neg missing, if_neg missing]
      cases hj : joining? (c :: rest)
      case some connective => exact walk_join connective
      case none =>
        show Except.ok (if c = ')' || r.progress.depth = 0 then (false, r.walk record)
          else (true, r.walk record)) =
            passageNext record (.ok (if c = ')' || r.progress.depth = 0 then .done r else .more r))
        split <;> rfl

theorem walk_next : (r.walk record).next = passageNext record r.next := by
  rw [Walk.next, next, walk_skipBlanks, walk_proceed]

theorem walk_finish : (r.walk record).finish = passage record r.finish := by
  rw [Walk.finish, finish, rest_walk, flags_walk, depth_flags]
  by_cases hr : r.rest.isEmpty
  case neg => simp [hr]
  case pos =>
    by_cases hd : r.progress.depth = 0
    case neg => simp [hr, hd]
    case pos => simp [hr, hd]

-- What a walk does besides what it records.
inductive Tick (limit : Nat) : Reading × List Moment → Reading × List Moment → Prop
  | step {r s : Reading} {record : List Moment} (step : Step limit r s) :
    Tick limit (r, record) (s, record)
  -- A routine that passes has read a block at its end, and left the groups that it has entered.
  | note {r : Reading} {record : List Moment} (routine : Routine) {event : Event}
    (settled : ∀ entry, event = .passed entry →
      r.progress.depth = entry.depth ∧ r.progress.latest = .block) :
    Tick limit (r, record) (r, ⟨routine, event, r.lexemes, r.progress.flags⟩ :: record)

abbrev Ticks (limit : Nat) : Reading × List Moment → Reading × List Moment → Prop :=
  Relation.ReflTransGen (Tick limit)

theorem Steps.ticks (h : Steps limit r s) : Ticks limit (r, record) (s, record) :=
  h.lift (·, record) fun _ _ step => .step step

-- The moments of routines that have been called and have returned, the latest one first.
inductive Returned : List Moment → Prop
  | nil : Returned []
  | run {inner earlier : List Moment} (call last : Moment) (called : call.event = .called)
    (returned : last.event ≠ .called) (same : last.routine = call.routine)
    (entered : ∀ entry, last.event = .passed entry → entry = call.flags) (hi : Returned inner)
    (he : Returned earlier) : Returned (last :: (inner ++ call :: earlier))

theorem Returned.append {others : List Moment} (h : Returned record) (h' : Returned others) :
    Returned (record ++ others) := by
  induction h
  case nil => exact h'
  case run call last called returned same entered hi _ _ he =>
    simpa using Returned.run call last called returned same entered hi he

-- The walk takes a passage that fits the outcome of the reading, and what it records are moments of
-- the reading, of routines that have returned.
inductive Follows (limit : Nat) (r : Reading) (record : List Moment) : Outcome → Passage → Prop
  | ok {s : Reading} (new : List Moment) (ticks : Ticks limit (r, record) (s, new ++ record))
    (returned : Returned new) : Follows limit r record (.ok s) (.ok (s.walk (new ++ record)))
  | error {kind : ViolationKind} {s : Reading} (new : List Moment)
    (ticks : Ticks limit (r, record) (s, new ++ record)) (returned : Returned new) :
    Follows limit r record (.error ⟨kind, s⟩) (.error ⟨kind, s.walk (new ++ record)⟩)

theorem follows_passage {outcome : Outcome} (h : Reaches limit r outcome) :
    Follows limit r record outcome (passage record outcome) := by
  cases h
  case ok steps      => exact .ok [] steps.ticks .nil
  case error steps _ => exact .error [] steps.ticks .nil

theorem Follows.trans (new : List Moment) {outcome : Outcome} {passage : Passage}
    (h : Ticks limit (r, record) (s, new ++ record)) (hn : Returned new)
    (hf : Follows limit s (new ++ record) outcome passage) :
    Follows limit r record outcome passage := by
  cases hf
  case ok newer ticks returned =>
    rw [← List.append_assoc] at ticks ⊢
    exact .ok (newer ++ new) (h.trans ticks) (returned.append hn)
  case error newer ticks returned =>
    rw [← List.append_assoc] at ticks ⊢
    exact .error (newer ++ new) (h.trans ticks) (returned.append hn)

theorem Follows.after {outcome : Outcome} {passage : Passage} (h : Steps limit r s)
    (hf : Follows limit s record outcome passage) : Follows limit r record outcome passage :=
  .trans [] h.ticks .nil hf

theorem Follows.bind {outcome : Outcome} {passage : Passage} {read : Reading → Outcome}
    {walk : Walk → Passage} (h : Follows limit r record outcome passage)
    (hf : ∀ s record', outcome = .ok s →
      Follows limit s record' (read s) (walk (s.walk record'))) :
    Follows limit r record (outcome >>= read) (passage >>= walk) := by
  cases h
  case ok s new ticks returned    => exact .trans new ticks returned (hf s (new ++ record) rfl)
  case error s new ticks returned => exact .error new ticks returned

-- A routine that passes leaves the depth as it was, with a block as the latest.
def Settles (read : Reading → Outcome) : Prop :=
  ∀ r s, read r = .ok s → s.progress.depth = r.progress.depth ∧ s.progress.latest = .block

theorem Reads.settles {read : Reading → Outcome}
    {phrase : Bool → Form → List Lexeme → List Char → Prop} (h : Reads read phrase) :
    Settles read := by
  intro r s hs
  have ⟨_, _, _, _, _, _, e⟩ := (h r s).mp hs
  rw [e]
  exact ⟨rfl, rfl⟩

theorem Follows.recorded {outcome : Outcome} {run : Walk → Passage} (routine : Routine)
    (h : ∀ record, Follows limit r record outcome (run (r.walk record)))
    (settled : ∀ s, outcome = .ok s → s.progress.depth = r.progress.depth ∧
      s.progress.latest = .block) :
    Follows limit r record outcome (Walk.recorded routine run (r.walk record)) := by
  let called : Moment := ⟨routine, .called, r.lexemes, r.progress.flags⟩
  have call : Ticks limit (r, record) (r, called :: record) := .single (.note routine nofun)
  have all (last : Moment) (new : List Moment) :
      last :: (new ++ called :: record) = (last :: (new ++ [called])) ++ record := by simp
  have h := h (called :: record)
  rw [Walk.recorded, walk_note]
  generalize run (r.walk _) = passage at h
  cases h
  case ok s new ticks returned =>
    let last : Moment := ⟨routine, .passed r.progress.flags, s.lexemes, s.progress.flags⟩
    have ticks : Ticks limit (r, record) (s, last :: (new ++ called :: record)) := by
      refine (call.trans ticks).tail (.note routine ?_)
      rintro _ ⟨⟩
      exact settled s rfl
    show Follows limit r record (.ok s) (.ok (s.walk (last :: (new ++ called :: record))))
    rw [all] at ticks ⊢
    refine .ok _ ticks (.run called last rfl nofun rfl ?_ returned .nil)
    rintro _ ⟨⟩
    rfl
  case error kind s new ticks returned =>
    let last : Moment := ⟨routine, .failed kind, s.lexemes, s.progress.flags⟩
    have ticks : Ticks limit (r, record) (s, last :: (new ++ called :: record)) :=
      (call.trans ticks).tail (.note routine nofun)
    show Follows limit r record (.error ⟨kind, s⟩)
      (.error ⟨kind, s.walk (last :: (new ++ called :: record))⟩)
    rw [all] at ticks ⊢
    exact .error _ ticks (.run called last rfl nofun rfl nofun returned .nil)

theorem settled_of_groupEnd (h : r.groupEnd = .ok s) :
    s.progress.depth = r.progress.depth - 1 ∧ s.progress.latest = .block := by
  rw [groupEnd] at h
  split at h
  case h_1 => cases h; exact ⟨rfl, rfl⟩
  case h_2 => cases h

-- Does the walk follow the readings with this many groups open?
def FollowsAt (limit depth : Nat) (read : Reading → Outcome) (walk : Walk → Passage) : Prop :=
  ∀ (r : Reading) (record : List Moment), r.progress.depth = depth →
    Follows limit r record (read r) (walk (r.walk record))

theorem follows_group {inside : Option (Reading → Outcome)} {walk : Walk → Passage}
    {rest : List Char} (e : '(' :: rest = r.rest) (hi : ReadsInside limit r.progress.depth inside)
    (hf : ∀ read ∈ inside, FollowsAt limit (r.progress.depth + 1) read walk) :
    Follows limit r record (r.group inside rest) ((r.walk record).group limit walk) := by
  apply Follows.recorded .group
  case h =>
    intro record
    cases inside
    case none =>
      rw [flags_walk, depth_flags, if_pos (Nat.le_of_eq (hi.full rfl).symm)]
      exact follows_passage (.error .refl ⟨by decide, fun _ => ⟨hi.full rfl, rest, e⟩⟩)
    case some read =>
      have room := hi.room read rfl
      have enter : Steps limit r (r.openGroup rest) := .single (.openGroup e room)
      rw [flags_walk, depth_flags, if_neg (Nat.not_le.mpr room), walk_enter e, walk_skipBlanks]
      refine .after enter (.after (steps_skipBlanks _) ?_)
      refine (hf read rfl _ record rfl).bind fun s record' hs => ?_
      rw [walk_groupEnd]
      apply follows_passage (reaches_groupEnd ?_)
      rw [hi.keeps read rfl _ _ hs]
      exact Nat.succ_ne_zero _
  case settled =>
    intro s hs
    cases inside
    case none => cases hs
    case some read =>
      have ⟨t, ht, hs⟩ := bind_eq_ok_iff.mp hs
      have ⟨hd, hl⟩ := settled_of_groupEnd hs
      rw [hi.keeps read rfl _ _ ht] at hd
      exact ⟨hd, hl⟩

theorem follows_operand {inside : Option (Reading → Outcome)} {walk : Walk → Passage}
    (hi : ReadsInside limit r.progress.depth inside)
    (hf : ∀ read ∈ inside, FollowsAt limit (r.progress.depth + 1) read walk) :
    Follows limit r record (r.operand inside) ((r.walk record).operand limit walk) := by
  have hleaf : Follows limit r record r.leaf (r.walk record).leaf := by
    rw [walk_leaf]
    exact follows_passage (reaches_leaf r)
  rw [Walk.operand, operand, rest_walk]
  cases hr : r.rest
  case nil => exact hleaf
  case cons c rest =>
    by_cases hc : c = '('
    case pos =>
      subst hc
      exact follows_group hr.symm hi hf
    case neg => simpa [hc] using hleaf

-- A block is settled if it is read.
theorem follows_block {room depth : Nat} {walk : Walk → Passage} (h : depth + room = limit)
    (hf : ∀ read ∈ insideOf room, FollowsAt limit (depth + 1) read walk) :
    FollowsAt limit depth (block (insideOf room)) (Walk.block limit walk) := by
  intro r record hd
  subst hd
  apply Follows.recorded .block
  case settled =>
    exact (reads_nested_block room).settles r
  case h =>
    intro record
    rw [block, walk_skipBlanks, rest_walk]
    split
    case isTrue => exact follows_passage (.reject (steps_skipBlanks r) (by decide))
    case isFalse =>
      refine .after (steps_skipBlanks r) (.bind (.bind ?_ fun s record' _ => ?_) ?_)
      · rw [walk_refuseConnective]
        exact follows_passage (reaches_refuseConnective _)
      · rw [walk_negation]
        exact follows_passage (reaches_negation s)
      · intro s record' hs
        have hd := depth_of_refuseConnective_negation hs
        apply follows_operand
        · rw [hd]
          exact readsInside_insideOf h
        · rwa [hd]

-- By induction on the run.
theorem follows_loop {read : Reading → Outcome} {walk : Walk → Passage} {depth : Nat}
    (ha : Advances read) (keeps : KeepsDepth read) (hf : FollowsAt limit depth read walk) :
    FollowsAt limit depth (sequence read) (Walk.loop walk) := by
  intro r
  induction r using sequence_induction ha with
  | step r hi =>
    intro record hd
    have h := hf r record hd
    rw [sequence_eq_bind ha, Walk.loop]
    generalize hr : read r = outcome at h
    generalize walk (r.walk record) = passage at h
    cases h
    case error new ticks returned => exact .error new ticks returned
    case ok s new ticks returned =>
      refine .trans new ticks returned ?_
      show Follows limit s _ (continued read s) _
      dsimp only
      rw [continued, walk_next]
      have reaches : Reaches limit s (s.next.map Next.reading) := reaches_next s
      cases hn : s.next with
      | error rejection =>
        rw [hn] at reaches
        exact follows_passage reaches
      | ok next =>
        cases next with
        | done t =>
          have steps : Steps limit s t := steps_next hn
          exact follows_passage (.ok steps)
        | more t =>
          have steps : Steps limit s t := steps_next hn
          have shorter : (t.walk (new ++ record)).rest.length < (r.walk record).rest.length :=
            Nat.lt_of_le_of_lt (length_rest_le_of_next hn) (ha _ _ hr)
          simp only [passageNext, if_pos shorter]
          refine .after steps (hi s t hr hn _ ?_)
          exact (depth_of_next hn).trans ((keeps _ _ hr).trans hd)

theorem follows_sequence {room depth : Nat} {walk : Walk → Passage} (h : depth + room = limit)
    (hf : ∀ read ∈ insideOf room, FollowsAt limit (depth + 1) read walk) :
    FollowsAt limit depth (expression room)
      (Walk.recorded .expression (Walk.loop (Walk.block limit walk))) := by
  intro r record hd
  refine .recorded .expression (fun record => ?_) ((reads_expression room).settles r)
  rw [expression_eq_sequence]
  exact follows_loop (advances_block (advances_insideOf room)) (keepsDepth_block room)
    (follows_block h hf) r record hd

-- By induction on the number of groups that may still be opened.
theorem follows_expression {room depth : Nat} (h : depth + room = limit) :
    FollowsAt limit depth (expression room) (Walk.expression limit room) := by
  induction room generalizing depth
  case zero         => exact follows_sequence h nofun
  case succ room hi =>
    refine follows_sequence h ?_
    rintro _ ⟨⟩
    exact hi (by omega)

-- The walk through a text goes as the reading of the text does.
theorem follows_ofText (maxDepth : Nat) (text : List Char) :
    Follows maxDepth (start text) [] (ofText maxDepth text) (Walk.ofText maxDepth text) := by
  rw [ofText, Walk.ofText, ← walk_start, walk_skipBlanks]
  refine .after (steps_skipBlanks _) (.bind ?_ fun s record hs => ?_)
  · exact follows_expression (Nat.zero_add maxDepth) _ _ rfl
  · have hd := (reads_expression maxDepth).keepsDepth _ _ hs
    rw [walk_skipBlanks, walk_finish]
    exact .after (steps_skipBlanks s) (follows_passage (reaches_finish (r := s.skipBlanks) hd))

end Reading

open Reading

theorem report_ofText (maxDepth : Nat) (text : List Char) :
    (Walk.ofText maxDepth text).report text = (validate maxDepth text).map Progress.flags := by
  have follows := follows_ofText maxDepth text
  rw [validate]
  generalize ofText maxDepth text = outcome at follows
  generalize Walk.ofText maxDepth text = passage at follows
  cases follows
  case ok    => rfl
  case error => rfl

-- What is recorded where an operand is missing in a group.
example : (Walk.ofText 1 "(".toList).last.record.reverse.map (fun m => (m.routine, m.event)) =
    [(.expression, .called), (.block, .called), (.group, .called), (.expression, .called),
     (.block, .called), (.block, .failed .unexpectedEnd), (.expression, .failed .unexpectedEnd),
     (.group, .failed .unexpectedEnd), (.block, .failed .unexpectedEnd),
     (.expression, .failed .unexpectedEnd)] := by cbv

end BoolSearch
