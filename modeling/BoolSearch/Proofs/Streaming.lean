import BoolSearch.Proofs.Partition

namespace BoolSearch

-- A place in a list of tokens: those in front of it have been given out.
structure TokenCursor where
  tokens : List Token
  position : Nat := 0
  deriving DecidableEq, Repr

namespace TokenCursor

open TokenStream (Request Answer)

def ofList (tokens : List Token) : TokenCursor :=
  { tokens }

def given (c : TokenCursor) : List Token :=
  c.tokens.take c.position

def ahead (c : TokenCursor) : List Token :=
  c.tokens.drop c.position

-- Goes on by this many tokens, but not beyond the last one.
def advance (c : TokenCursor) (count : Nat) : TokenCursor :=
  { c with position := min (c.position + count) c.tokens.length }

-- Where only the next token is known, there are no bounds to the number of those that are left.
def answer (c : TokenCursor) : Request → Answer × TokenCursor
  | .next        => (.token c.tokens[c.position]?, c.advance 1)
  | .nth skipped => (.token c.tokens[c.position + skipped]?, c.advance (skipped + 1))
  | .sizeHint    => (.bounds 0 none, c)
  | .rest        => (.tokens c.ahead, c.advance c.tokens.length)
  | .count       => (.count (c.tokens.length - c.position), c.advance c.tokens.length)
  | .last        => (.token c.ahead.getLast?, c.advance c.tokens.length)

def run (c : TokenCursor) : List Request → List Answer
  | []                  => []
  | request :: requests => (c.answer request).1 :: (c.answer request).2.run requests

def after (c : TokenCursor) : List Request → TokenCursor
  | []                  => c
  | request :: requests => (c.answer request).2.after requests

theorem ahead_advance (c : TokenCursor) (count : Nat) :
    (c.advance count).ahead = c.ahead.drop count := by
  rw [ahead, ahead, List.drop_drop, advance]
  by_cases h : c.position + count ≤ c.tokens.length
  case pos => rw [Nat.min_eq_left h]
  case neg =>
    have beyond : c.tokens.length ≤ c.position + count := Nat.le_of_not_le h
    rw [Nat.min_eq_right beyond, List.drop_length, List.drop_of_length_le beyond]

theorem ahead_advance_length (c : TokenCursor) : (c.advance c.tokens.length).ahead = [] := by
  rw [ahead_advance, List.drop_eq_nil_iff, ahead, List.length_drop]
  exact Nat.sub_le _ _

@[simp] theorem tokens_answer (c : TokenCursor) (request : Request) :
    (c.answer request).2.tokens = c.tokens := by
  cases request <;> rfl

@[simp] theorem tokens_after (c : TokenCursor) (script : List Request) :
    (c.after script).tokens = c.tokens := by
  induction script generalizing c
  case nil                    => rfl
  case cons request script hi => rw [after, hi, tokens_answer]

theorem given_append_ahead (c : TokenCursor) : c.given ++ c.ahead = c.tokens :=
  List.take_append_drop _ _

end TokenCursor

namespace TokenStream

def Answer.IsEmpty : Answer → Prop
  | .token given    => given = none
  | .tokens given   => given = []
  | .count n        => n = 0
  | .bounds lower _ => lower = 0

-- Can so many tokens have been left when the answer was given?
def Answer.Allows (left : Nat) : Answer → Prop
  | .token given        => given.isSome → 0 < left
  | .tokens given       => given.length = left
  | .count n            => n = left
  | .bounds lower upper => lower ≤ left ∧ ∀ most ∈ upper, left ≤ most

def after (s : TokenStream) : List Request → TokenStream
  | []                  => s
  | request :: requests => (s.answer request).2.after requests

-- The first stream gives these tokens out, one after the other, and is then the second one.
inductive Gives : TokenStream → List Token → TokenStream → Prop
  | nil : Gives s [] s
  | cons (step : s.next? = some (token, t)) (tail : Gives t tokens u) : Gives s (token :: tokens) u

variable {s t u : TokenStream} {given others : List Token} {c : TokenCursor}

theorem Gives.append (h : Gives s given t) (ht : Gives t others u) :
    Gives s (given ++ others) u := by
  induction h
  case nil            => exact ht
  case cons step _ hi => exact .cons step (hi ht)

theorem Gives.toList_eq (h : Gives s given t) : s.toList = given ++ t.toList := by
  induction h
  case nil            => rfl
  case cons step _ hi => rw [toList_of_next?_eq_some step, hi, List.cons_append]

theorem gives_finish (s : TokenStream) : Gives s s.toList s.finish := by
  fun_induction toList s <;> rw [finish.eq_def]
  case case1 s h =>
    split
    case h_1   => exact .nil
    case h_2 e => simp [h] at e
  case case2 s token t h hi =>
    split
    case h_1 e => simp [h] at e
    case h_2 e =>
      rw [h] at e
      cases e
      exact .cons h hi

theorem toList_finish (s : TokenStream) : s.finish.toList = [] := by
  have whole := (gives_finish s).toList_eq
  simpa using whole

-- Skipping stops at the last token, if there are not enough.
theorem gives_nth (s : TokenStream) (n : Nat) : Gives s (s.toList.take (n + 1)) (s.nth n).2 := by
  induction n generalizing s <;> rw [nth.eq_def] <;> cases h : s.next?
  case zero.none   => simpa [toList_of_next?_eq_none h] using Gives.nil
  case zero.some   => simpa [toList_of_next?_eq_some h] using Gives.cons h .nil
  case succ.none   => simpa [toList_of_next?_eq_none h] using Gives.nil
  case succ.some n hi p =>
    rw [toList_of_next?_eq_some h, List.take_succ_cons]
    exact .cons h (hi p.2)

theorem toList_nth (s : TokenStream) (n : Nat) : (s.nth n).2.toList = s.toList.drop (n + 1) := by
  have whole := (gives_nth s n).toList_eq
  exact List.append_cancel_left (whole.symm.trans (List.take_append_drop _ _).symm)

theorem exists_gives_answer (s : TokenStream) (request : Request) :
    ∃ given, Gives s given (s.answer request).2 := by
  cases request
  case next        => exact ⟨_, gives_nth s 0⟩
  case nth skipped => exact ⟨_, gives_nth s skipped⟩
  case sizeHint    => exact ⟨_, .nil⟩
  case rest        => exact ⟨_, gives_finish s⟩
  case count       => exact ⟨_, gives_finish s⟩
  case last        => exact ⟨_, gives_finish s⟩

theorem exists_gives_after (s : TokenStream) (script : List Request) :
    ∃ given, Gives s given (s.after script) := by
  induction script generalizing s
  case nil => exact ⟨[], .nil⟩
  case cons request script hi =>
    have ⟨given, step⟩ := s.exists_gives_answer request
    have ⟨others, tail⟩ := hi (s.answer request).2
    exact ⟨given ++ others, step.append tail⟩

-- One request: what lies ahead of the cursor is what the stream is still going to give.
theorem answer_eq (h : s.toList = c.ahead) (request : Request) :
    (s.answer request).1 = (c.answer request).1 ∧
      (s.answer request).2.toList = (c.answer request).2.ahead := by
  have token (n : Nat) : (s.nth n).1 = c.tokens[c.position + n]? := by
    rw [fst_nth, h, TokenCursor.ahead, List.getElem?_drop]
  have rest (n : Nat) : (s.nth n).2.toList = (c.advance (n + 1)).ahead := by
    rw [toList_nth, h, TokenCursor.ahead_advance]
  have stop : s.finish.toList = (c.advance c.tokens.length).ahead := by
    rw [toList_finish, TokenCursor.ahead_advance_length]
  have length : s.toList.length = c.tokens.length - c.position := by
    rw [h, TokenCursor.ahead, List.length_drop]
  cases request
  case next        => exact ⟨congrArg Answer.token (token 0), rest 0⟩
  case nth skipped => exact ⟨congrArg Answer.token (token skipped), rest skipped⟩
  case sizeHint    => exact ⟨rfl, h⟩
  case rest        => exact ⟨congrArg Answer.tokens h, stop⟩
  case count       => exact ⟨congrArg Answer.count length, stop⟩
  case last        => exact ⟨congrArg Answer.token (congrArg List.getLast? h), stop⟩

theorem run_eq (h : s.toList = c.ahead) (script : List Request) :
    s.run script = c.run script ∧ (s.after script).toList = (c.after script).ahead := by
  induction script generalizing s c
  case nil => exact ⟨rfl, h⟩
  case cons request script hi =>
    have ⟨same, behind⟩ := answer_eq h request
    have ⟨others, last⟩ := hi behind
    refine ⟨?_, last⟩
    rw [run, TokenCursor.run, ← same, ← others]

theorem allows_cursor_answer (c : TokenCursor) (request : Request) :
    (c.answer request).1.Allows c.ahead.length := by
  have length : c.ahead.length = c.tokens.length - c.position := List.length_drop
  have token (n : Nat) (h : c.tokens[c.position + n]?.isSome) : 0 < c.ahead.length := by
    have inside : c.position + n < c.tokens.length := by simpa using h
    rw [length]
    exact Nat.sub_pos_of_lt (Nat.lt_of_le_of_lt (Nat.le_add_right _ _) inside)
  cases request
  case next        => exact token 0
  case nth skipped => exact token skipped
  case sizeHint    => exact ⟨Nat.zero_le _, nofun⟩
  case rest        => rfl
  case count       => exact length.symm
  case last        => exact fun h => List.length_pos_iff.mpr (by simpa using h)

theorem allows_answer (s : TokenStream) (request : Request) :
    (s.answer request).1.Allows s.toList.length := by
  have here : s.toList = (TokenCursor.ofList s.toList).ahead := rfl
  rw [(answer_eq here request).1]
  exact allows_cursor_answer _ request

theorem Answer.isEmpty_of_allows {answer : Answer} (h : answer.Allows 0) : answer.IsEmpty := by
  cases answer
  case token given =>
    cases given
    case none => rfl
    case some => exact absurd (h rfl) (Nat.lt_irrefl 0)
  case tokens given       => exact List.length_eq_zero_iff.mp h
  case count n            => exact h
  case bounds lower upper => exact Nat.le_zero.mp h.1

theorem isEmpty_answer (h : s.toList = []) (request : Request) :
    (s.answer request).1.IsEmpty ∧ (s.answer request).2.toList = [] := by
  have allowed := allows_answer s request
  have ⟨given, gives⟩ := s.exists_gives_answer request
  have whole := gives.toList_eq
  rw [h] at allowed whole
  exact ⟨Answer.isEmpty_of_allows allowed, (List.append_eq_nil_iff.mp whole.symm).2⟩

theorem isEmpty_of_mem_run (h : s.toList = []) {script : List Request} {answer : Answer}
    (ha : answer ∈ s.run script) : answer.IsEmpty := by
  induction script generalizing s
  case nil => cases ha
  case cons request script hi =>
    have ⟨empty, behind⟩ := isEmpty_answer h request
    cases ha
    case head    => exact empty
    case tail ha => exact hi behind ha

end TokenStream

open TokenStream

-- Whatever is asked of the stream of a text, it answers as a cursor into the list of its tokens
-- does. What it has given out by then is what lies in front of the cursor, and the rest of the list
-- is still to come. No answer of either is wrong about how many tokens are left. Behind the end
-- there is nothing in any answer.
theorem stream_answers_as_list (text : List Char) (script : List Request) :
    let stream := (ofText text).after script
    let cursor := (TokenCursor.ofList (tokenize text)).after script
    (ofText text).run script = (TokenCursor.ofList (tokenize text)).run script ∧
    Gives (ofText text) cursor.given stream ∧
    cursor.given <+: tokenize text ∧
    stream.toList = cursor.ahead ∧
    (∀ request, (stream.answer request).1.Allows stream.toList.length ∧
      (cursor.answer request).1.Allows cursor.ahead.length) ∧
    (stream.next? = none → ∀ others, ∀ answer ∈ stream.run others, answer.IsEmpty) := by
  intro stream cursor
  have start : (ofText text).toList = (TokenCursor.ofList (tokenize text)).ahead :=
    toList_ofText text
  have ⟨same, behind⟩ := run_eq start script
  have whole : cursor.given ++ cursor.ahead = tokenize text := by
    rw [cursor.given_append_ahead, TokenCursor.tokens_after, TokenCursor.ofList]
  refine ⟨same, ?given, ⟨_, whole⟩, behind, ?left, ?ends⟩
  case given =>
    have ⟨given, gives⟩ := (ofText text).exists_gives_after script
    have list := gives.toList_eq
    rw [toList_ofText, ← whole, behind] at list
    rwa [List.append_cancel_right list]
  case left => exact fun request => ⟨allows_answer _ request, allows_cursor_answer _ request⟩
  case ends =>
    intro h others answer ha
    exact isEmpty_of_mem_run (toList_of_next?_eq_none h) ha

-- A stream that is left between a key and its value.
example : (ofText "ab= c".toList).run [.nth 1, .next, .next, .count, .next] =
    [.token (some ⟨.equals, ⟨2, 3⟩⟩), .token (some ⟨.blank, ⟨3, 4⟩⟩),
     .token (some ⟨.bare, ⟨4, 5⟩⟩), .count 0, .token none] := by cbv

end BoolSearch
