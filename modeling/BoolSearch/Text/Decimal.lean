namespace BoolSearch

def decimal (n : Nat) : List Char :=
  Nat.toDigits 10 n

def ofDecimal (digits : List Char) : Nat :=
  Nat.ofDigitChars 10 digits 0

-- The first number that does not fit into 64 bits: two to the power of 64.
def wordLimit : Nat := 0x10000000000000000

-- A number of 64 bits in digits, perhaps behind a plus sign.
def size? (text : List Char) : Option Nat :=
  let digits := match text with
    | '+' :: digits => digits
    | _             => text
  if digits.isEmpty || !digits.all Char.isDigit then none
  else if ofDecimal digits < wordLimit then some (ofDecimal digits)
  else none

@[simp] theorem ofDecimal_decimal (n : Nat) : ofDecimal (decimal n) = n :=
  Nat.ofDigitChars_toDigits (by decide) (by decide)

theorem isDigit_of_mem_decimal {n : Nat} {c : Char} (h : c ∈ decimal n) : c.isDigit :=
  Nat.isDigit_of_mem_toDigits (by decide) (by decide) h

end BoolSearch
