import BoolSearch.Text.Ranges

namespace BoolSearch

-- The ranges of the Unicode property `White_Space`, ends included.
def blankRanges : List (Nat × Nat) :=
  [(0x09, 0x0D), (0x20, 0x20), (0x85, 0x85), (0xA0, 0xA0), (0x1680, 0x1680), (0x2000, 0x200A),
   (0x2028, 0x2029), (0x202F, 0x202F), (0x205F, 0x205F), (0x3000, 0x3000)]

def isBlank (c : Char) : Bool :=
  inRanges blankRanges c

def skipBlanks (text : List Char) : List Char :=
  text.dropWhile isBlank

@[simp] theorem skipBlanks_nil : skipBlanks [] = [] := rfl

theorem skipBlanks_cons_of_blank {c : Char} {text : List Char} (h : isBlank c) :
    skipBlanks (c :: text) = skipBlanks text := by
  simp [skipBlanks, h]

theorem skipBlanks_cons_of_not_blank {c : Char} {text : List Char} (h : isBlank c = false) :
    skipBlanks (c :: text) = c :: text := by
  simp [skipBlanks, h]

def trimBlanks (text : List Char) : List Char :=
  (skipBlanks (skipBlanks text).reverse).reverse

theorem takeWhile_append_skipBlanks (text : List Char) :
    text.takeWhile isBlank ++ skipBlanks text = text :=
  List.takeWhile_append_dropWhile

theorem length_skipBlanks_le (text : List Char) : (skipBlanks text).length ≤ text.length :=
  (List.dropWhile_suffix _).length_le

end BoolSearch
