import BoolSearch.Json.Value
import BoolSearch.Text.Decimal

namespace BoolSearch

namespace Json

def hexDigit (n : Nat) : Char :=
  n.digitChar

-- Only quotes, backslashes and control characters are escaped.
def escape (c : Char) : List Char :=
  if c = '"' || c = '\\' then ['\\', c]
  else if c = '\x08' then ['\\', 'b']
  else if c = '\t' then ['\\', 't']
  else if c = '\n' then ['\\', 'n']
  else if c = '\x0C' then ['\\', 'f']
  else if c = '\r' then ['\\', 'r']
  else if c.toNat < 0x20 then
    ['\\', 'u', '0', '0', hexDigit (c.toNat / 16), hexDigit (c.toNat % 16)]
  else [c]

def printString (text : List Char) : List Char :=
  '"' :: text.flatMap escape ++ ['"']

mutual

def print : Json → List Char
  | null         => "null".toList
  | bool true    => "true".toList
  | bool false   => "false".toList
  | nat n        => decimal n
  | real written => written
  | str text     => printString text
  | arr items    => '[' :: printItems items ++ [']']
  | obj members  => '{' :: printMembers members ++ ['}']

def printItems : List Json → List Char
  | []            => []
  | item :: items => print item ++ printMoreItems items

def printMoreItems : List Json → List Char
  | []            => []
  | item :: items => ',' :: print item ++ printMoreItems items

def printMembers : List (List Char × Json) → List Char
  | []                       => []
  | (name, value) :: members =>
    printString name ++ ':' :: print value ++ printMoreMembers members

def printMoreMembers : List (List Char × Json) → List Char
  | []                       => []
  | (name, value) :: members =>
    ',' :: printString name ++ ':' :: print value ++ printMoreMembers members

end

-- Puts a member in the order of names; a member of the same name gives way.
def insertMember (name : List Char) (value : Json) :
    List (List Char × Json) → List (List Char × Json)
  | []                         => [(name, value)]
  | (name', value') :: members =>
    if name = name' then (name, value) :: members
    else if name < name' then (name, value) :: (name', value') :: members
    else (name', value') :: insertMember name value members

mutual

-- The value with the members of all its objects in the order of their names. Of members of one
-- name the last one stays.
def sorted : Json → Json
  | arr items   => arr (sortedItems items)
  | obj members => obj (sortedMembers members [])
  | value       => value

def sortedItems : List Json → List Json
  | []            => []
  | item :: items => sorted item :: sortedItems items

def sortedMembers : List (List Char × Json) → List (List Char × Json) → List (List Char × Json)
  | [], placed                       => placed
  | (name, value) :: members, placed =>
    sortedMembers members (insertMember name (sorted value) placed)

end

end Json

end BoolSearch
