import BoolSearch.Text.Bytes

namespace BoolSearch

inductive Connective
  | and
  | or
  | not
  deriving DecidableEq, Repr

namespace Connective

def spelling : Connective → List Char
  | and => ['A', 'N', 'D']
  | or  => ['O', 'R']
  | not => ['N', 'O', 'T']

def width (connective : Connective) : Nat :=
  connective.spelling.length

end Connective

inductive Paren
  | opening
  | closing
  deriving DecidableEq, Repr

-- What a part of an expression is. A `bare` part is one character or, as the value of a key, a
-- run of them.
inductive TokenKind
  | blank
  | connective (connective : Connective)
  | paren (paren : Paren)
  | key
  | equals
  | quoted
  | bare
  deriving DecidableEq, Repr

-- A part of an expression with its text. A quoted value includes both quotes.
structure Lexeme where
  kind : TokenKind
  text : List Char
  deriving DecidableEq, Repr

-- A range of bytes; `stop` is not in it.
structure Span where
  start : Nat
  stop : Nat
  deriving DecidableEq, Repr

namespace Span

def length (span : Span) : Nat :=
  span.stop - span.start

def isEmpty (span : Span) : Bool :=
  span.start == span.stop

end Span

structure Token where
  kind : TokenKind
  span : Span
  deriving DecidableEq, Repr

def TokenKind.display (kind : TokenKind) (text : List Char) : List Char :=
  match kind with
  | .connective c => c.spelling
  | _             => text

def Lexeme.display (lexeme : Lexeme) : List Char :=
  lexeme.kind.display lexeme.text

namespace Token

def text? (token : Token) (source : List Char) : Option (List Char) :=
  sliceBytes? source token.span.start token.span.stop

-- A connective is shown without a look at the source.
def display? (token : Token) (source : List Char) : Option (List Char) :=
  match token.kind with
  | .connective c => some c.spelling
  | _             => token.text? source

-- The lexemes as tokens, the first of them at byte `offset`.
def layout (offset : Nat) : List Lexeme → List Token
  | [] => []
  | lexeme :: lexemes =>
    let stop := offset + byteLength lexeme.text
    ⟨lexeme.kind, ⟨offset, stop⟩⟩ :: layout stop lexemes

@[simp] theorem layout_nil (offset : Nat) : layout offset [] = [] := rfl

theorem map_kind_layout (offset : Nat) (lexemes : List Lexeme) :
    (layout offset lexemes).map kind = lexemes.map Lexeme.kind := by
  induction lexemes generalizing offset with
  | nil => rfl
  | cons lexeme lexemes ih => simp [layout, ih]

theorem layout_append (offset : Nat) (before after : List Lexeme) :
    layout offset (before ++ after) =
      layout offset before ++ layout (offset + byteLength (before.flatMap Lexeme.text)) after := by
  induction before generalizing offset with
  | nil => simp
  | cons lexeme before ih => simp [layout, ih, Nat.add_assoc]

end Token

end BoolSearch
