import BoolSearch.Query.Tokenize

namespace BoolSearch

structure TokenStream where
  offset : Nat
  -- Parts that have been taken from the text, but not given out.
  pending : List Lexeme
  previous : Option TokenKind
  rest : List Char
  deriving DecidableEq, Repr

namespace TokenStream

def ofText (text : List Char) : TokenStream where
  offset := 0
  pending := []
  previous := none
  rest := text

def give (s : TokenStream) (lexeme : Lexeme) (pending : List Lexeme) (rest : List Char) :
    Token × TokenStream :=
  let stop := s.offset + byteLength lexeme.text
  (⟨lexeme.kind, ⟨s.offset, stop⟩⟩,
    { offset := stop, pending, previous := some lexeme.kind, rest })

def next? (s : TokenStream) : Option (Token × TokenStream) :=
  match s.pending, s.rest with
  | lexeme :: pending, rest => some (s.give lexeme pending rest)
  | [], c :: text =>
    let scan := Scan.next s.previous c text
    some (s.give scan.head scan.more scan.rest)
  | [], [] => none

-- A token that is given out makes the text or the row of pending parts shorter.
theorem next?_decreases {s t : TokenStream} {token : Token} (h : s.next? = some (token, t)) :
    t.rest.length < s.rest.length ∨
      t.rest.length = s.rest.length ∧ t.pending.length < s.pending.length := by
  unfold next? at h
  split at h
  next pending e =>
    simp [give] at h
    right
    simp [← h.2, e]
  next c text _ e =>
    simp [give] at h
    left
    rw [← h.2, e]
    exact Scan.length_rest_next_lt _ _ _
  next => simp at h

def toList (s : TokenStream) : List Token :=
  match _h : s.next? with
  | none            => []
  | some (token, t) => token :: t.toList
termination_by (s.rest.length, s.pending.length)
decreasing_by
  rcases next?_decreases _h with h | ⟨h, h'⟩
  · exact Prod.Lex.left _ _ h
  · rw [h]
    exact Prod.Lex.right _ h'

def finish (s : TokenStream) : TokenStream :=
  match _h : s.next? with
  | none        => s
  | some (_, t) => t.finish
termination_by (s.rest.length, s.pending.length)
decreasing_by
  rcases next?_decreases _h with h | ⟨h, h'⟩
  · exact Prod.Lex.left _ _ h
  · rw [h]
    exact Prod.Lex.right _ h'

def nth (s : TokenStream) (skipped : Nat) : Option Token × TokenStream :=
  match s.next?, skipped with
  | none, _                      => (none, s)
  | some (token, t), 0           => (some token, t)
  | some (_, t), skipped + 1     => t.nth skipped

inductive Request
  | next
  | nth (skipped : Nat)
  | sizeHint
  | rest
  | count
  | last
  deriving DecidableEq, Repr

inductive Answer
  | token (token : Option Token)
  | tokens (tokens : List Token)
  | count (count : Nat)
  -- Bounds of the number of tokens to come; there may be no upper one.
  | bounds (lower : Nat) (upper : Option Nat)
  deriving DecidableEq, Repr

-- Answers one request. The bounds are those that hold of every stream.
def answer (s : TokenStream) : Request → Answer × TokenStream
  | .next =>
    let (token, t) := s.nth 0
    (.token token, t)
  | .nth skipped =>
    let (token, t) := s.nth skipped
    (.token token, t)
  | .sizeHint => (.bounds 0 none, s)
  | .rest     => (.tokens s.toList, s.finish)
  | .count    => (.count s.toList.length, s.finish)
  | .last     => (.token s.toList.getLast?, s.finish)

def run (s : TokenStream) : List Request → List Answer
  | [] => []
  | request :: requests =>
    let (answer, t) := s.answer request
    answer :: t.run requests

end TokenStream

end BoolSearch
