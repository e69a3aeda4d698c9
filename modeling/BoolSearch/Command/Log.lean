import BoolSearch.Command.Arguments
import BoolSearch.Highlight

namespace BoolSearch

def version : String := "0.1.0"

namespace Command

inductive Level
  | error
  | warn
  | info
  | debug
  | trace
  deriving DecidableEq, Repr

namespace Level

def name : Level → String
  | error => "ERROR"
  | warn  => "WARN"
  | info  => "INFO"
  | debug => "DEBUG"
  | trace => "TRACE"

-- How much is shown at this level: whatever has the same rank or a lower one.
def rank : Level → Nat
  | error => 1
  | warn  => 2
  | info  => 3
  | debug => 4
  | trace => 5

end Level

inductive Target
  | command
  | highlight
  deriving DecidableEq, Repr

def Target.name : Target → String
  | command   => "bibquery"
  | highlight => "bibquery::highlight"

structure LogLine where
  level : Level
  target : Target
  message : List Char
  deriving DecidableEq, Repr

-- The character as it is written in the log: by its code point when it could steer a terminal.
def harmless (c : Char) : List Char :=
  let n := c.toNat
  if n = 0x07 ∨ n = 0x08 ∨ n = 0x0C ∨ n = 0x1B ∨ n = 0x7F then
    ['\\', 'x', Nat.digitChar (n / 16), Nat.digitChar (n % 16)]
  else if 0x80 ≤ n ∧ n ≤ 0x9F then '\\' :: 'u' :: '{' :: Nat.toDigits 16 n ++ ['}']
  else [c]

def LogLine.render (line : LogLine) : List Char :=
  line.level.name.toList ++ ' ' :: line.target.name.toList ++ ':' :: ' ' ::
    line.message.flatMap harmless

end Command

end BoolSearch
