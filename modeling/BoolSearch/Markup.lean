namespace BoolSearch

inductive Style
  | connective
  | key
  | quotedValue
  | plain
  deriving DecidableEq, Repr

namespace Style

def name : Style → String
  | connective  => "Connective"
  | key         => "Key"
  | quotedValue => "QuotedValue"
  | plain       => "Plain"

def cssClass : Style → Option String
  | connective  => some "logical-operator"
  | key         => some "key"
  | quotedValue => some "quoted-value"
  | plain       => none

end Style

structure Element where
  style : Style
  text : List Char
  deriving DecidableEq, Repr

-- Whatever the text is, it cannot be taken for markup.
def entity (c : Char) : List Char :=
  if c = '&' then "&amp;".toList
  else if c = '<' then "&lt;".toList
  else if c = '>' then "&gt;".toList
  else if c = '"' then "&quot;".toList
  else if c = '\x27' then "&#39;".toList
  else [c]

namespace Element

def openingTag (style : Style) : List Char :=
  match style.cssClass with
  | none          => "<span>".toList
  | some cssClass => "<span class=\"".toList ++ cssClass.toList ++ "\">".toList

def render (element : Element) : List Char :=
  openingTag element.style ++ element.text.flatMap entity ++ "</span>".toList

def renderAll (elements : List Element) : List Char :=
  elements.flatMap render

end Element

end BoolSearch
