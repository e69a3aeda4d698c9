import BoolSearch.Command.Log
import BoolSearch.Text.Alphanumeric
import BoolSearch.Text.Bytes

namespace BoolSearch.Command

structure Directive where
  target : Option (List Char) := none
  -- A directive about spans says nothing about lines.
  isAboutSpans : Bool := false
  field : Option (List Char) := none
  rank : Nat := Level.rank .trace
  deriving DecidableEq, Repr

inductive Unfit
  | malformed
  -- A part starts or ends inside a character.
  | broken
  deriving DecidableEq, Repr

namespace Directive

def rank? (text : List Char) : Option Nat :=
  let name := text.map Char.toLower
  match size? text with
  | some n => if n ≤ 5 then some n else none
  | none   =>
    if name = "off".toList then some 0
    else if name = "error".toList then some 1
    else if name = "warn".toList then some 2
    else if name = "info".toList then some 3
    else if name = "debug".toList then some 4
    else if name = "trace".toList then some 5
    else none

def part (text : List Char) (start stop : Nat) : Except Unfit (List Char) :=
  match sliceBytes? text start stop with
  | none      => .error .broken
  | some part => .ok part

-- No level stands for all levels.
def withLevel (directive : Directive) (text : List Char) (start : Nat) : Except Unfit Directive :=
  match part text start (byteLength text) with
  | .error unfit => .error unfit
  | .ok []       => .ok directive
  | .ok level    =>
    match rank? level with
    | none      => .error .malformed
    | some rank => .ok { directive with rank }

def behindBrackets (directive : Directive) (text : List Char) (start : Nat) :
    List Char → Except Unfit Directive
  | []       => .ok directive
  | '=' :: _ => directive.withLevel text (start + 1)
  | _        => .error .malformed

def inBraces (directive : Directive) (text : List Char) (start : Nat) (rest : List Char) :
    Except Unfit Directive :=
  let stop := start + byteLength (rest.takeWhile (· != '}'))
  match rest.dropWhile (· != '}') with
  | []        => .error .malformed
  | _ :: rest =>
    match part text start stop, rest with
    | .error unfit, _               => .error unfit
    | .ok (c :: field), ']' :: rest =>
      behindBrackets { directive with field := some (c :: field) } text (stop + 2) rest
    | .ok _, _ => .error .malformed

def inBrackets (directive : Directive) (text : List Char) (start : Nat) (rest : List Char) :
    Except Unfit Directive :=
  let stop := start + byteLength (rest.takeWhile fun c => c != ']' && c != '{')
  match rest.dropWhile fun c => c != ']' && c != '{' with
  | []        => .error .malformed
  | c :: rest =>
    match part text start stop with
    | .error unfit => .error unfit
    | .ok span     =>
      if c = ']' then
        behindBrackets { directive with isAboutSpans := true } text (stop + 1) rest
      else
        inBraces { directive with isAboutSpans := !span.isEmpty } text (stop + 1) rest

def ofWord (word : List Char) : Directive :=
  match rank? word with
  | none      => { target := some word }
  | some rank => { rank }

def startsTarget (c : Char) : Bool :=
  isAlphanumeric c || c == '-' || c == ':' || c == '_'

--     directive := level | target? ('[' span? ('{' field '}')? ']')? ('=' level?)?
--
-- Where the parts of a directive lie is counted from its first character that is no blank, but they
-- are taken from the directive with its blanks. So blanks in front shift every part, and a part may
-- then start or end inside a character. No filter can be made of that.
def ofText (text : List Char) : Except Unfit Directive :=
  let trimmed := trimBlanks text
  let stop := byteLength (trimmed.takeWhile fun c => c != '=' && c != '[')
  match trimmed, trimmed.dropWhile fun c => c != '=' && c != '[' with
  | [], _               => .error .malformed
  | '[' :: rest, _      => inBrackets {} text 1 rest
  | c :: _, afterTarget =>
    if !startsTarget c then .error .malformed
    else match afterTarget with
      | []              => .ok (ofWord text)
      | closing :: rest =>
        match part text 0 stop with
        | .error unfit => .error unfit
        | .ok target   =>
          if closing = '=' then withLevel { target := some target } text (stop + 1)
          else inBrackets { target := some target } text (stop + 1) rest

-- Is the directive about lines of this target? All that a line has is its message.
def concerns (directive : Directive) (target : Target) : Bool :=
  !directive.isAboutSpans
    && directive.target.all (·.isPrefixOf target.name.toList)
    && directive.field.all (· == "message".toList)

def weight (directive : Directive) : Nat :=
  2 * (match directive.target with
    | none        => 0
    | some target => target.length + 1)
    + if directive.field.isSome then 1 else 0

-- Of two directives the one that describes more closely counts, of two equal ones the later.
def prefer (earlier later : Directive) : Directive :=
  if later.weight < earlier.weight then earlier else later

def fallback : Directive where
  rank := Level.rank .warn

end Directive

structure Filter where
  directives : List Directive
  deriving DecidableEq, Repr

namespace Filter

def splitCommas (text : List Char) : List (List Char) :=
  text.foldr
    (fun c parts => if c = ',' then [] :: parts else match parts with
      | []            => [[c]]
      | part :: parts => (c :: part) :: parts)
    [[]]

-- There are none, not even the first ones, if a text is broken.
def directives? : List (List Char) → Option (List Directive)
  | []            => some []
  | text :: texts =>
    match Directive.ofText text with
    | .ok directive     => (directives? texts).map (directive :: ·)
    | .error .malformed => directives? texts
    | .error .broken    => none

def ofText? (text : List Char) : Option Filter :=
  (directives? (splitCommas text)).map Filter.mk

def directive (filter : Filter) (target : Target) : Directive :=
  match filter.directives.filter (·.concerns target) with
  | []            => .fallback
  | first :: more => (more.foldl Directive.prefer first).prefer .fallback

def shows (filter : Filter) (line : LogLine) : Bool :=
  line.level.rank ≤ (filter.directive line.target).rank

end Filter

end BoolSearch.Command
