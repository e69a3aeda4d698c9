import BoolSearch.Query.Reading

namespace BoolSearch

namespace Reading

-- Behind a connective, another one is a duplicate.
def refuseConnective (r : Reading) : Outcome :=
  match standalone? r.rest with
  | none   => .ok r
  | some _ =>
    r.reject (if r.progress.latest = .connective then .duplicateConnective else .valueExpected)

def value (r : Reading) : Outcome :=
  match r.rest with
  | [] => r.reject .valueExpected
  | c :: _ =>
    if isQuote c then
      match quoted? r.rest with
      | some (text, rest) => .ok (r.push .quoted text rest)
      | none              => r.reject .unterminatedQuote
    else
      match r.rest.takeWhile isBare with
      | []   => r.reject .valueExpected
      | text => .ok (r.push .bare text (r.rest.dropWhile isBare))

def formed (r : Reading) : Outcome :=
  match key? r.rest with
  | some head =>
    if r.progress.form = some .plain then r.reject .mixedExpressionTypes
    else ((r.setForm .keyed).pushKey head).value
  | none =>
    if r.progress.form = some .keyed then r.reject .mixedExpressionTypes
    else (r.setForm .plain).value

def leaf (r : Reading) : Outcome :=
  r.formed.map (·.setLatest .block)

def groupEnd (r : Reading) : Outcome :=
  match r.skipBlanks.rest with
  | ')' :: rest => .ok (r.skipBlanks.closeGroup rest)
  | _           => r.skipBlanks.reject .missingClosingParen

-- Reads a group whose opening parenthesis is followed by `rest`. The expression in it is for
-- `inside` to read; without one, no further group may be opened.
def group (inside : Option (Reading → Outcome)) (r : Reading) (rest : List Char) : Outcome :=
  match inside with
  | none            => r.reject .malformedExpression
  | some expression => expression (r.openGroup rest).skipBlanks >>= groupEnd

def operand (inside : Option (Reading → Outcome)) (r : Reading) : Outcome :=
  match r.rest with
  | '(' :: rest => r.group inside rest
  | _           => r.leaf

def negation (r : Reading) : Outcome :=
  if keyword? r.rest = some .not then
    if r.pushNot.rest.isEmpty then r.pushNot.reject .valueExpected
    else r.pushNot.refuseConnective
  else .ok r

def block (inside : Option (Reading → Outcome)) (r : Reading) : Outcome :=
  if r.skipBlanks.rest.isEmpty then r.skipBlanks.reject .unexpectedEnd
  else r.skipBlanks.refuseConnective >>= negation >>= operand inside

inductive Next
  | done (r : Reading)
  | more (r : Reading)
  deriving DecidableEq, Repr

def join (r : Reading) (connective : Connective) : Except Rejection Next :=
  match (r.pushJoining connective).rest with
  | [] | ')' :: _ => (r.pushJoining connective).reject .expressionExpectedAfterConnective
  | _             => .ok (.more (r.pushJoining connective))

-- In a group, but not outside, a block may also follow a block directly, if it starts with neither
-- a letter nor a quote.
def proceed (r : Reading) : Except Rejection Next :=
  match r.rest with
  | []     => .ok (.done r)
  | c :: _ =>
    if r.progress.latest = .block && isOperandStart c && !nextJoins r.rest then
      r.reject .missingConnective
    else match joining? r.rest with
      | some connective => r.join connective
      | none => .ok (if c = ')' || r.progress.depth = 0 then .done r else .more r)

def next (r : Reading) : Except Rejection Next :=
  r.skipBlanks.proceed

-- Reads blocks with `read` for as long as there is a next one. Every block takes some text, so
-- this comes to an end.
def sequence (read : Reading → Outcome) (r : Reading) : Outcome :=
  match read r with
  | .error rejection => .error rejection
  | .ok r' =>
    match r'.next with
    | .error rejection => .error rejection
    | .ok (.done r'')  => .ok r''
    | .ok (.more r'')  => if r''.rest.length < r.rest.length then sequence read r'' else .ok r''
termination_by r.rest.length

-- Reads an expression in which at most `room` groups may be open at a time.
--
--     expression := block (connective block)*
--     block      := NOT? ('(' expression ')' | key '=' value | value)
--
-- Two rules look across the whole expression: its leaf blocks are all keyed or all plain, and a
-- connective never follows a connective.
def expression : Nat → Reading → Outcome
  | 0,        r => sequence (block none) r
  | room + 1, r => sequence (block (some (expression room))) r

-- A reading of a whole text has nothing left and no group open.
def finish (r : Reading) : Outcome :=
  if !r.rest.isEmpty then r.reject .trailingCharacters
  else if r.progress.depth ≠ 0 then r.reject .unbalancedParens
  else .ok r

def ofText (maxDepth : Nat) (text : List Char) : Outcome :=
  expression maxDepth (start text).skipBlanks >>= fun r => r.skipBlanks.finish

end Reading

def validate (maxDepth : Nat) (text : List Char) : Except Violation Progress :=
  match Reading.ofText maxDepth text with
  | .ok r            => .ok r.progress
  | .error rejection => .error (rejection.violation text)

def defaultMaxDepth : Nat := 256

end BoolSearch
