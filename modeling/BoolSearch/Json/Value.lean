namespace BoolSearch

-- A JSON value. A natural number that is written with digits alone and fits into 64 bits is a
-- value of its own; of any other number the characters are kept. The members of an object keep
-- their order, and a name may occur more than once.
inductive Json
  | null
  | bool (value : Bool)
  | nat (value : Nat)
  | real (written : List Char)
  | str (text : List Char)
  | arr (items : List Json)
  | obj (members : List (List Char × Json))
  deriving Repr

namespace Json

def ofOption (encode : α → Json) : Option α → Json
  | none   => null
  | some a => encode a

def ofString (s : String) : Json :=
  str s.toList

def ofMembers (members : List (String × Json)) : Json :=
  obj (members.map fun (name, value) => (name.toList, value))

def member? (name : String) : Json → Option Json
  | obj members => (members.reverse.find? fun (key, _) => key == name.toList).map (·.2)
  | _           => none

end Json

end BoolSearch
