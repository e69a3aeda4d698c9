import BoolSearch.Text.Lowercase

namespace BoolSearch

inductive Locale
  | en
  | ru
  deriving DecidableEq, Repr

namespace Locale

def all : List Locale :=
  [en, ru]

def code : Locale → String
  | en => "en"
  | ru => "ru"

def title : Locale → String
  | en => "En"
  | ru => "Ru"

-- The names by which a user may ask for the language, in lowercase.
def names : Locale → List (List Char)
  | en => ["en".toList, "english".toList]
  | ru => ["ru".toList, "russian".toList]

def ofText? (text : List Char) : Option Locale :=
  all.find? fun locale => locale.names.contains (lowercase text)

end Locale

end BoolSearch
