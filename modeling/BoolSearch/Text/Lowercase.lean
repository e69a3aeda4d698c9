import BoolSearch.Text.LetterCase

namespace BoolSearch

def lowercaseChar (c : Char) : List Char :=
  let n := c.toNat
  if c = 'İ' then ['i', '\u0307']
  else match lowercaseRuns.find? fun (first, last, distance, _) =>
      first ≤ n && n ≤ last && (n - first) % distance == 0 with
    | some (first, _, _, lowercase) => [Char.ofNat (lowercase + (n - first))]
    | none => [c]

def startsCased (text : List Char) : Bool :=
  (text.dropWhile isCaseIgnorable).head?.any isCased

-- The lowercase form of a text behind `before`, which is written backwards. A sigma at the end of
-- a word has a form of its own.
def lowercaseBehind (before : List Char) : List Char → List Char
  | [] => []
  | c :: text =>
    let form :=
      if c = 'Σ' && startsCased before && !startsCased text then ['ς'] else lowercaseChar c
    form ++ lowercaseBehind (c :: before) text

def lowercase (text : List Char) : List Char :=
  lowercaseBehind [] text

end BoolSearch
