import BoolSearch.Json.Scan
import BoolSearch.Text.Decimal
import BoolSearch.Text.DoubleRange

namespace BoolSearch

namespace Json

-- The parts of a number. There are no fraction digits where there is no point.
structure Numeral where
  negative : Bool
  whole : List Char
  fraction : List Char
  exponent : Option (Bool × List Char)
  deriving DecidableEq, Repr

namespace Numeral

-- A run of one digit or more. In a text that is only passed over, the end is no better than any
-- other character in its place.
def digits (strict : Bool) (text : List Char) : Scanned (List Char) :=
  match text.takeWhile Char.isDigit with
  | []  => .error (if strict then faultAt text else .malformed)
  | run => .ok (run, text.dropWhile Char.isDigit)

def wholePart (strict : Bool) (text : List Char) : Scanned (List Char) :=
  (digits strict text).andThen fun run rest =>
    if run.head? = some '0' ∧ run.length ≠ 1 then .error .malformed else .ok (run, rest)

def fractionPart (strict : Bool) : List Char → Scanned (List Char)
  | '.' :: text => digits strict text
  | text        => .ok ([], text)

def signed : List Char → Bool × List Char
  | '-' :: text => (true, text)
  | '+' :: text => (false, text)
  | text        => (false, text)

def exponentPart (strict : Bool) : List Char → Scanned (Option (Bool × List Char))
  | []        => .ok (none, [])
  | c :: text =>
    if c = 'e' ∨ c = 'E' then
      (digits strict (signed text).2).map fun run => some ((signed text).1, run)
    else .ok (none, c :: text)

def unsigned (strict negative : Bool) (text : List Char) : Scanned Numeral :=
  (wholePart strict text).andThen fun whole rest =>
    (fractionPart strict rest).andThen fun fraction rest =>
      (exponentPart strict rest).map fun exponent => { negative, whole, fraction, exponent }

def scan (strict : Bool) : List Char → Scanned Numeral
  | '-' :: text => unsigned strict true text
  | text        => unsigned strict false text

-- Appends digits to a number for as long as it fits into 64 bits. Also says how many digits
-- are left over.
def absorb (n : Nat) : List Char → Nat × Nat
  | []          => (n, 0)
  | d :: digits =>
    let longer := n * 10 + (d.toNat - '0'.toNat)
    if longer < wordLimit then absorb longer digits else (n, digits.length + 1)

-- The digits of the number that fit into 64 bits, and the power of ten by which they have to be
-- multiplied when there is no exponent.
def significand (numeral : Numeral) : Nat × Int :=
  let (n, wholeLeft) := absorb 0 numeral.whole
  let (n, fractionLeft) := absorb n numeral.fraction
  (n, (wholeLeft : Int) - (numeral.fraction.length - fractionLeft : Nat))

def exponentLimit : Nat := 0x80000000

def inRange (numeral : Numeral) : Bool :=
  let (n, scale) := numeral.significand
  let reaches (power : Int) : Bool := match scale + power with
    | .ofNat up  => isFiniteProduct n up
    | .negSucc _ => true
  n == 0 || match numeral.exponent with
    | none                 => reaches 0
    | some (true, digits)  => exponentLimit ≤ ofDecimal digits || reaches (-ofDecimal digits)
    | some (false, digits) => ofDecimal digits < exponentLimit && reaches (ofDecimal digits)

def plain? (numeral : Numeral) : Option Nat :=
  let n := ofDecimal numeral.whole
  if numeral.negative ∨ numeral.fraction ≠ [] ∨ numeral.exponent.isSome ∨ wordLimit ≤ n then none
  else some n

def written (numeral : Numeral) : List Char :=
  (if numeral.negative then ['-'] else []) ++ numeral.whole
    ++ (if numeral.fraction.isEmpty then [] else '.' :: numeral.fraction)
    ++ match numeral.exponent with
      | none                    => []
      | some (negative, digits) => 'e' :: (if negative then '-' :: digits else digits)

end Numeral

-- A number. One that is out of range is refused, unless it is only passed over.
def number (strict : Bool) (text : List Char) : Scanned Json :=
  (Numeral.scan strict text).andThen fun numeral rest =>
    match numeral.plain? with
    | some n => .ok (nat n, rest)
    | none   =>
      if strict && !numeral.inRange then .error .malformed else .ok (real numeral.written, rest)

end Json

end BoolSearch
