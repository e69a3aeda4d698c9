import BoolSearch.Json.Numeral

namespace BoolSearch

namespace Json

def scalar (strict : Bool) : List Char → Scanned Json
  | []        => .error .truncated
  | c :: text =>
    if c = 'n' then (expect "ull".toList text).map (null, ·)
    else if c = 't' then (expect "rue".toList text).map (bool true, ·)
    else if c = 'f' then (expect "alse".toList text).map (bool false, ·)
    else if c = '"' then (stringRest strict text).map str
    else if c = '-' || c.isDigit then number strict (c :: text)
    else .error .malformed

-- The text at the next item of an array, if there is one. Otherwise the text at the closing
-- bracket.
inductive NextItem
  | item (text : List Char)
  | close (text : List Char)
  deriving DecidableEq, Repr

-- Looks for an item. Behind another item a comma has to come first, and another item has to come
-- behind a comma.
def nextItem (isFirst : Bool) (text : List Char) : Except Fault NextItem :=
  match skipSpace text with
  | []        => .error .truncated
  | c :: text =>
    if c = ']' then .ok (.close (c :: text))
    else if isFirst then .ok (.item (c :: text))
    else if c = ',' then
      match skipSpace text with
      | []        => .error .truncated
      | c :: text => if c = ']' then .error .malformed else .ok (.item (c :: text))
    else .error .malformed

def closing (bracket : Char) (text : List Char) : Except Fault (List Char) :=
  match skipSpace text with
  | []        => .error .truncated
  | c :: text => if c = bracket then .ok text else .error .malformed

def colon (text : List Char) : Except Fault (List Char) :=
  closing ':' text

inductive NextName
  | name (name text : List Char)
  | close (text : List Char)
  deriving DecidableEq, Repr

def nameAt (strict : Bool) (text : List Char) : Scanned (List Char) :=
  match skipSpace text with
  | []        => .error .truncated
  | c :: text => if c = '"' then stringRest strict text else .error .malformed

def nextName (strict isFirst : Bool) (text : List Char) : Except Fault NextName :=
  match skipSpace text with
  | []        => .error .truncated
  | c :: text =>
    if c = '}' then .ok (.close (c :: text))
    else if isFirst then (nameAt strict (c :: text)).bind fun (name, rest) => .ok (.name name rest)
    else if c = ',' then (nameAt strict text).bind fun (name, rest) => .ok (.name name rest)
    else .error .malformed

def items (read : List Char → Scanned α) (isFirst : Bool) (text : List Char) :
    Scanned (List α) :=
  match nextItem isFirst text with
  | .error fault      => .error fault
  | .ok (.close rest) => (closing ']' rest).map ([], ·)
  | .ok (.item rest)  =>
    match read rest with
    | .error fault     => .error fault
    | .ok (item, rest) =>
      if rest.length < text.length then (items read false rest).map (item :: ·)
      else .error .malformed
termination_by text.length

def members (strict : Bool) (read : List Char → Scanned α) (isFirst : Bool) (text : List Char) :
    Scanned (List (List Char × α)) :=
  match nextName strict isFirst text with
  | .error fault          => .error fault
  | .ok (.close rest)     => (closing '}' rest).map ([], ·)
  | .ok (.name name rest) =>
    match colon rest with
    | .error fault => .error fault
    | .ok rest     =>
      match read rest with
      | .error fault      => .error fault
      | .ok (value, rest) =>
        if rest.length < text.length then (members strict read false rest).map ((name, value) :: ·)
        else .error .malformed
termination_by text.length

-- Reads a value. What is in an array or an object is for `inside` to read; without one, the value
-- lies too deep to have parts.
def valueWith (strict : Bool) (inside : Option (List Char → Scanned Json)) (text : List Char) :
    Scanned Json :=
  match skipSpace text with
  | []        => .error .truncated
  | c :: text =>
    if c = '[' then
      match inside with
      | none      => .error .malformed
      | some read => (items read true text).map arr
    else if c = '{' then
      match inside with
      | none      => .error .malformed
      | some read => (members strict read true text).map obj
    else scalar strict (c :: text)

def value (strict : Bool) : Nat → List Char → Scanned Json
  | 0,        text => valueWith strict none text
  | room + 1, text => valueWith strict (some (value strict room)) text

-- The depth to which values are kept.
def maxRoom : Nat := 127

-- Of what is only passed over less is asked than of what is kept: surrogates need no partner,
-- numbers may have any size and values any depth.
def skip (text : List Char) : Except Fault (List Char) :=
  match value false text.length text with
  | .error fault  => .error fault
  | .ok (_, rest) => .ok rest

def complete (scanned : Scanned α) : Except Fault α :=
  match scanned with
  | .error fault  => .error fault
  | .ok (a, rest) => if (skipSpace rest).isEmpty then .ok a else .error .malformed

def ofText (text : List Char) : Except Fault Json :=
  complete (value true maxRoom text)

end Json

end BoolSearch
