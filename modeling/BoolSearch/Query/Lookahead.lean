import BoolSearch.Query.Character
import BoolSearch.Query.Token

namespace BoolSearch

def startsWith (word text : List Char) : Bool :=
  match word, text with
  | [], _ => true
  | _ :: _, [] => false
  | w :: word, c :: text => w.toLower == c.toLower && startsWith word text

-- The word may go on behind the connective.
def keyword? (text : List Char) : Option Connective :=
  [.and, .or, .not].find? fun connective => startsWith connective.spelling text

def joining? (text : List Char) : Option Connective :=
  (keyword? text).filter (· != .not)

-- The end, a blank, a parenthesis or a quote follows.
def standalone? (text : List Char) : Option Connective :=
  (joining? text).filter fun connective =>
    (text.drop connective.width).head?.all fun c => endsWord c || isQuote c

structure KeyHead where
  name : List Char
  blanks : List Char
  rest : List Char
  deriving DecidableEq, Repr

-- The key that the text starts with: two letters or more, as many as there are, then blanks and
-- an equals sign.
def key? (text : List Char) : Option KeyHead :=
  let name := text.takeWhile isLetter
  let after := text.dropWhile isLetter
  if name.length < 2 then none
  else match skipBlanks after with
    | '=' :: rest => some ⟨name, after.takeWhile isBlank, rest⟩
    | _           => none

-- The text up to the quote that closes what `opening` began, and the text after it. A backslash
-- takes the character behind it along; `escaped` says that one has just been read.
def closing? (opening : Char) (escaped : Bool) : List Char → Option (List Char × List Char)
  | [] => none
  | c :: text =>
    if !escaped && closes opening c then some ([c], text)
    else (closing? opening (!escaped && c == '\\') text).map fun (inner, rest) => (c :: inner, rest)

def quoted? : List Char → Option (List Char × List Char)
  | [] => none
  | c :: text =>
    if isQuote c then (closing? c false text).map fun (inner, rest) => (c :: inner, rest)
    else none

-- The word at the start of the text: up to a blank or a parenthesis. A parenthesis at the start
-- is a word by itself.
def firstWord : List Char → List Char
  | [] => []
  | c :: text => if isParen c then [c] else (c :: text).takeWhile (!endsWord ·)

def nextJoins (text : List Char) : Bool :=
  let word := (firstWord text).map Char.toLower
  word == ['a', 'n', 'd'] || word == ['o', 'r']

theorem append_of_closing? {opening : Char} {escaped : Bool} {text inner rest : List Char}
    (h : closing? opening escaped text = some (inner, rest)) : inner ++ rest = text := by
  induction text generalizing escaped inner rest with
  | nil => simp [closing?] at h
  | cons c text ih =>
    rw [closing?] at h
    split at h
    · simp at h
      simp [← h.1, ← h.2]
    · obtain ⟨⟨inner', rest'⟩, h', e⟩ := Option.map_eq_some_iff.mp h
      simp at e
      simp [← e.1, ← e.2, ih h']

theorem append_of_quoted? {text value rest : List Char} (h : quoted? text = some (value, rest)) :
    value ++ rest = text := by
  cases text with
  | nil => simp [quoted?] at h
  | cons c text =>
    rw [quoted?] at h
    split at h
    · obtain ⟨⟨inner, rest'⟩, h', e⟩ := Option.map_eq_some_iff.mp h
      simp at e
      simp [← e.1, ← e.2, append_of_closing? h']
    · simp at h

theorem append_of_key? {text : List Char} {head : KeyHead} (h : key? text = some head) :
    head.name ++ head.blanks ++ '=' :: head.rest = text := by
  simp only [key?] at h
  split at h
  · simp at h
  · split at h
    next rest e =>
      simp at h
      subst h
      rw [← e, List.append_assoc, takeWhile_append_skipBlanks, List.takeWhile_append_dropWhile]
    · simp at h

theorem two_le_length_of_key? {text : List Char} {head : KeyHead} (h : key? text = some head) :
    2 ≤ head.name.length := by
  simp only [key?] at h
  split at h
  · simp at h
  · split at h
    · simp at h
      subst h
      simpa using Nat.le_of_not_lt ‹_›
    · simp at h

theorem startsWith_length {word text : List Char} (h : startsWith word text) :
    word.length ≤ text.length := by
  fun_induction startsWith word text <;> simp_all

theorem startsWith_of_keyword? {text : List Char} {connective : Connective}
    (h : keyword? text = some connective) : startsWith connective.spelling text := by
  simpa using List.find?_some h

theorem width_pos (connective : Connective) : 0 < connective.width := by
  cases connective <;> decide

end BoolSearch
