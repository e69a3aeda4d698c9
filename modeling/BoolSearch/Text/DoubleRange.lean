namespace BoolSearch

def roundTo (unit n : Nat) : Nat :=
  let below := n / unit
  let twice := 2 * (n % unit)
  let multiple := if twice < unit ∨ (twice = unit ∧ below % 2 = 0) then below else below + 1
  multiple * unit

-- A number of double precision has 53 binary digits in front of its zeros. What lies half a unit
-- above the largest one is rounded to infinity.
def nearestDouble (n : Nat) : Nat :=
  roundTo (Nat.pow 2 (Nat.log2 n - 52)) n

def infinityBound : Nat :=
  Nat.pow 2 1024 - Nat.pow 2 970

def isFiniteProduct (n power : Nat) : Bool :=
  power ≤ 308 && nearestDouble n * nearestDouble (Nat.pow 10 power) < infinityBound

end BoolSearch
