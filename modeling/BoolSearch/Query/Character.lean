import BoolSearch.Text.Blank

namespace BoolSearch

-- The quotes, each with a quote that closes it. A straight quote closes itself only; either curly
-- quote closes a value that either curly quote opened.
def quotePairs : List (Char × Char) :=
  [('"', '"'), ('\x27', '\x27'), ('“', '”'), ('”', '“'), ('“', '“'), ('”', '”')]

def bareStops : List Char :=
  [')', '=', '(', '\\']

def isQuote (c : Char) : Bool :=
  quotePairs.any fun (opening, _) => opening == c

def closes (opening closing : Char) : Bool :=
  quotePairs.contains (opening, closing)

-- A quote may stand in a bare value.
def isBare (c : Char) : Bool :=
  !isBlank c && !bareStops.contains c

def isLetter (c : Char) : Bool :=
  ('A' ≤ c && c ≤ 'Z') || ('a' ≤ c && c ≤ 'z')

def isParen (c : Char) : Bool :=
  c == '(' || c == ')'

-- Does `c` look like the start of another operand?
def isOperandStart (c : Char) : Bool :=
  isLetter c || isQuote c

def endsWord (c : Char) : Bool :=
  isBlank c || isParen c

theorem isQuote_iff {c : Char} : isQuote c ↔ c = '"' ∨ c = '\x27' ∨ c = '“' ∨ c = '”' := by
  simp only [isQuote, quotePairs, List.any_cons, List.any_nil, Bool.or_eq_true, beq_iff_eq,
    Bool.false_eq_true, or_false]
  grind

theorem isQuote_of_closes {opening closing : Char} (h : closes opening closing) :
    isQuote closing := by
  rw [isQuote_iff]
  simp only [closes, quotePairs, List.contains_eq_mem, List.mem_cons, Prod.mk.injEq,
    decide_eq_true_eq] at h
  grind

theorem closes_backslash (opening : Char) : closes opening '\\' = false := by
  simp [closes, quotePairs]

theorem isBlank_of_isLetter {c : Char} (h : isLetter c) : isBlank c = false := by
  simp only [isLetter, Bool.or_eq_true, Bool.and_eq_true, decide_eq_true_eq, Char.le_def,
    UInt32.le_iff_toNat_le] at h
  have : c.val.toNat = c.toNat := rfl
  simp [isBlank, blankRanges, inRanges]
  simp at h
  omega

end BoolSearch
