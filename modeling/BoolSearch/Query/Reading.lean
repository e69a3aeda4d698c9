import BoolSearch.Query.Lookahead
import BoolSearch.Query.Violation

namespace BoolSearch

inductive Form
  | plain
  | keyed
  deriving DecidableEq, Repr

inductive Latest
  | neither
  | connective
  | block
  deriving DecidableEq, Repr

structure Progress where
  depth : Nat := 0
  form : Option Form := none
  latest : Latest := .neither
  deriving DecidableEq, Repr

structure Reading where
  -- What has been read, the latest part first. Each blank is a part of its own, each value is
  -- one part.
  parts : List Lexeme
  rest : List Char
  progress : Progress
  deriving DecidableEq, Repr

-- A reading that stops at a violation, which lies at the start of what is left.
structure Rejection where
  kind : ViolationKind
  reading : Reading
  deriving DecidableEq, Repr

abbrev Outcome := Except Rejection Reading

namespace Reading

def start (text : List Char) : Reading where
  parts := []
  rest := text
  progress := {}

def lexemes (r : Reading) : List Lexeme :=
  r.parts.reverse

def reject (r : Reading) (kind : ViolationKind) : Except Rejection α :=
  .error ⟨kind, r⟩

def push (r : Reading) (kind : TokenKind) (text rest : List Char) : Reading :=
  { r with parts := ⟨kind, text⟩ :: r.parts, rest }

-- Each of these characters is a blank of its own.
def pushBlanks (r : Reading) (blanks rest : List Char) : Reading :=
  { r with parts := (blanks.map fun c => ⟨.blank, [c]⟩).reverse ++ r.parts, rest }

def skipBlanks (r : Reading) : Reading :=
  r.pushBlanks (r.rest.takeWhile isBlank) (BoolSearch.skipBlanks r.rest)

def setLatest (r : Reading) (latest : Latest) : Reading :=
  { r with progress := { r.progress with latest } }

def setForm (r : Reading) (form : Form) : Reading :=
  { r with progress := { r.progress with form := some form } }

def pushConnective (r : Reading) (connective : Connective) : Reading :=
  r.push (.connective connective) (r.rest.take connective.width) (r.rest.drop connective.width)

-- Reads a `NOT` and the blanks behind it. A connective in front of it is no longer the latest part.
def pushNot (r : Reading) : Reading :=
  (r.pushConnective .not).skipBlanks.setLatest
    (if r.progress.latest = .connective then .neither else r.progress.latest)

def pushJoining (r : Reading) (connective : Connective) : Reading :=
  ((r.pushConnective connective).setLatest .connective).skipBlanks

def pushKey (r : Reading) (head : KeyHead) : Reading :=
  let named := r.push .key head.name (head.blanks ++ '=' :: head.rest)
  let spaced := named.pushBlanks head.blanks ('=' :: head.rest)
  (spaced.push .equals ['='] head.rest).skipBlanks

def openGroup (r : Reading) (rest : List Char) : Reading :=
  let r := r.push (.paren .opening) ['('] rest
  { r with progress := { r.progress with depth := r.progress.depth + 1 } }

def closeGroup (r : Reading) (rest : List Char) : Reading :=
  let r := r.push (.paren .closing) [')'] rest
  { r with progress := { r.progress with depth := r.progress.depth - 1, latest := .block } }

@[simp] theorem rest_push (r : Reading) (kind : TokenKind) (text rest : List Char) :
    (r.push kind text rest).rest = rest := rfl

@[simp] theorem rest_skipBlanks (r : Reading) :
    r.skipBlanks.rest = BoolSearch.skipBlanks r.rest := rfl

@[simp] theorem rest_setLatest (r : Reading) (latest : Latest) :
    (r.setLatest latest).rest = r.rest := rfl

@[simp] theorem rest_setForm (r : Reading) (form : Form) : (r.setForm form).rest = r.rest := rfl

end Reading

def Rejection.violation (rejection : Rejection) (text : List Char) : Violation where
  kind := rejection.kind
  offset := byteLength text - byteLength rejection.reading.rest

end BoolSearch
