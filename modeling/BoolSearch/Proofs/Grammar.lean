import BoolSearch.Query.Reading
import BoolSearch.Query.Tokenize

namespace BoolSearch

def textOf (parts : List Lexeme) : List Char :=
  parts.flatMap Lexeme.text

@[simp] theorem textOf_nil : textOf [] = [] := rfl

@[simp] theorem textOf_cons (part : Lexeme) (parts : List Lexeme) :
    textOf (part :: parts) = part.text ++ textOf parts := rfl

@[simp] theorem textOf_append (parts others : List Lexeme) :
    textOf (parts ++ others) = textOf parts ++ textOf others :=
  List.flatMap_append

@[simp] theorem textOf_blanks (text : List Char) : textOf (Scan.blanks text) = text :=
  Scan.flatMap_text_blanks text

theorem cases_of_append_eq {α : Type} {as bs front back : List α} {a : α}
    (h : as ++ bs = front ++ a :: back) :
    (∃ before, as ++ before = front ∧ bs = before ++ a :: back) ∨
      ∃ ahead, as = front ++ a :: ahead ∧ ahead ++ bs = back := by
  obtain ⟨before, e, e'⟩ | ⟨ahead, e, e'⟩ := List.append_eq_append_iff.mp h
  case inl => exact .inl ⟨before, e.symm, e'⟩
  case inr =>
    cases ahead
    case nil => exact .inl ⟨[], by simpa using e, e'.symm⟩
    case cons =>
      cases e'
      exact .inr ⟨_, e, rfl⟩

theorem exists_part_of_textOf_eq {parts : List Lexeme} {before after : List Char} {c : Char}
    (h : textOf parts = before ++ c :: after) : ∃ front part back text text',
      front ++ part :: back = parts ∧ text ++ c :: text' = part.text ∧
      textOf front ++ text = before ∧ text' ++ textOf back = after := by
  induction parts generalizing before
  case nil => simp at h
  case cons part parts hi =>
    obtain ⟨before, rfl, e⟩ | ⟨text', e, rfl⟩ := cases_of_append_eq h
    case inl =>
      obtain ⟨front, part', back, text, text', rfl, et, rfl, rfl⟩ := hi e
      exact ⟨part :: front, part', back, text, text', rfl, et, by simp, rfl⟩
    case inr => exact ⟨[], part, parts, before, text', rfl, e.symm, rfl, rfl⟩

namespace Grammar

def Spells (connective : Connective) (word : List Char) : Prop :=
  word.map Char.toLower = connective.spelling.map Char.toLower

def Begins (connective : Connective) (text : List Char) : Prop :=
  ∃ word rest, word ++ rest = text ∧ Spells connective word

def StandsAlone (text : List Char) : Prop :=
  ∃ connective word rest, connective ≠ .not ∧ Spells connective word ∧ word ++ rest = text ∧
    ∀ c ∈ rest.head?, endsWord c ∨ isQuote c

def IsBlanks (text : List Char) : Prop :=
  ∀ c ∈ text, isBlank c

def IsKeyName (name : List Char) : Prop :=
  2 ≤ name.length ∧ ∀ c ∈ name, isLetter c

-- Does the text start with a key and its equals sign? No letter is left out of the key, since
-- only blanks may follow it.
def BeginsKeyed (text : List Char) : Prop :=
  ∃ name gap rest, IsKeyName name ∧ IsBlanks gap ∧ name ++ gap ++ '=' :: rest = text

-- The rest of a quoted value behind its opening quote. A backslash takes any character along.
inductive Enclosed (opening : Char) : List Char → Prop
  | close {c : Char} (closing : closes opening c) : Enclosed opening [c]
  | escape {c : Char} {text : List Char} (tail : Enclosed opening text) :
    Enclosed opening ('\\' :: c :: text)
  | inner {c : Char} {text : List Char} (plain : c ≠ '\\') (inside : closes opening c = false)
    (tail : Enclosed opening text) : Enclosed opening (c :: text)

inductive IsQuoted : List Char → Prop
  | mk {opening : Char} {text : List Char} (quote : isQuote opening)
    (tail : Enclosed opening text) : IsQuoted (opening :: text)

-- A bare value in front of `rest` is a whole run of bare characters. It does not start with a
-- quote, but quotes may follow.
structure IsBare (text rest : List Char) : Prop where
  nonempty : text ≠ []
  bare : ∀ c ∈ text, isBare c
  unquoted : ∀ c ∈ text.head?, isQuote c = false
  whole : ∀ c ∈ rest.head?, isBare c = false

inductive IsValue : Lexeme → List Char → Prop
  | quoted {text rest : List Char} (h : IsQuoted text) : IsValue ⟨.quoted, text⟩ rest
  | bare {text rest : List Char} (h : IsBare text rest) : IsValue ⟨.bare, text⟩ rest

-- A block without groups. Where a key stands, it belongs to the block.
inductive IsLeaf : Form → List Lexeme → List Char → Prop
  | keyed {name gap gap' rest : List Char} {value : Lexeme}
    (hn : IsKeyName name) (hg : IsBlanks gap) (hg' : IsBlanks gap') (hv : IsValue value rest) :
    IsLeaf .keyed
      (⟨.key, name⟩ :: Scan.blanks gap ++ ⟨.equals, ['=']⟩ :: Scan.blanks gap' ++ [value]) rest
  | plain {value : Lexeme} {rest : List Char}
    (hv : IsValue value rest) (unkeyed : ¬BeginsKeyed (value.text ++ rest)) :
    IsLeaf .plain [value] rest

inductive Phrase
  | operand
  | block
  | expression (grouped : Bool)

-- In front of `rest`, these parts are such a phrase with values of this form and at most `room`
-- groups inside each other. What follows counts because some rules look ahead: a bare value ends
-- where no further character could belong to it, a connective is a whole word, and a value stands
-- where no key does.
inductive Derives (form : Form) : Phrase → Nat → List Lexeme → List Char → Prop
  | leaf {parts : List Lexeme} {rest : List Char} {room : Nat} (leaf : IsLeaf form parts rest) :
    Derives form .operand room parts rest
  | group {gap gap' rest : List Char} {parts : List Lexeme} {room : Nat}
    (hg : IsBlanks gap) (hg' : IsBlanks gap')
    (inside : Derives form (.expression true) room parts (gap' ++ ')' :: rest)) :
    Derives form .operand (room + 1)
      (⟨.paren .opening, ['(']⟩ ::
        (Scan.blanks gap ++ (parts ++ (Scan.blanks gap' ++ [⟨.paren .closing, [')']⟩])))) rest
  -- A `NOT` at the start of a block always negates.
  | asserted {parts : List Lexeme} {rest : List Char} {room : Nat}
    (unjoined : ¬StandsAlone (textOf parts ++ rest))
    (unnegated : ¬Begins .not (textOf parts ++ rest))
    (operand : Derives form .operand room parts rest) : Derives form .block room parts rest
  | negated {word gap rest : List Char} {parts : List Lexeme} {room : Nat}
    (spells : Spells .not word) (hg : IsBlanks gap) (unjoined : ¬StandsAlone (textOf parts ++ rest))
    (operand : Derives form .operand room parts rest) :
    Derives form .block room (⟨.connective .not, word⟩ :: (Scan.blanks gap ++ parts)) rest
  | single {parts : List Lexeme} {rest : List Char} {room : Nat} {grouped : Bool}
    (block : Derives form .block room parts rest) :
    Derives form (.expression grouped) room parts rest
  | joined {connective : Connective} {word gap gap' rest : List Char} {parts others : List Lexeme}
    {room : Nat} {grouped : Bool}
    (block : Derives form .block room parts (gap ++ (word ++ (gap' ++ (textOf others ++ rest)))))
    (hg : IsBlanks gap) (joins : connective ≠ .not) (spells : Spells connective word)
    (whole : ∀ c ∈ (gap' ++ (textOf others ++ rest)).head?, endsWord c) (hg' : IsBlanks gap')
    (tail : Derives form (.expression grouped) room others rest) :
    Derives form (.expression grouped) room
      (parts ++ (Scan.blanks gap ++
        (⟨.connective connective, word⟩ :: (Scan.blanks gap' ++ others))))
      rest
  -- Inside a group a block may follow another one without a connective.
  | adjoined {gap rest : List Char} {parts others : List Lexeme} {room : Nat}
    (block : Derives form .block room parts (gap ++ (textOf others ++ rest))) (hg : IsBlanks gap)
    (apart : ∀ c ∈ (textOf others).head?, isOperandStart c = false)
    (tail : Derives form (.expression true) room others rest) :
    Derives form (.expression true) room (parts ++ (Scan.blanks gap ++ others)) rest

inductive Sentence (form : Form) (room : Nat) : List Lexeme → Prop
  | mk {gap gap' : List Char} {parts : List Lexeme} (hg : IsBlanks gap) (hg' : IsBlanks gap')
    (expression : Derives form (.expression false) room parts gap') :
    Sentence form room (Scan.blanks gap ++ (parts ++ Scan.blanks gap'))

def Accepts (room : Nat) (text : List Char) : Prop :=
  ∃ form parts, Sentence form room parts ∧ textOf parts = text

end Grammar

end BoolSearch
