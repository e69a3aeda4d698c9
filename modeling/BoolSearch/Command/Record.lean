import BoolSearch.Command.Log

namespace BoolSearch.Command

structure Record where
  isValid : Bool
  -- The line without its end; an expression that is fine may need none.
  line : Option (List Char)
  log : List LogLine
  deriving DecidableEq, Repr

def shown (highlight : Highlight) (text : List Char) : List Char :=
  ((highlight.elements? text).getD []).flatMap Element.text

def plainLine (locale : Locale) (text : List Char) : Highlight → List Char
  | .accepted tokens      => "ok: ".toList ++ shown (.accepted tokens) text
  | .rejected _ violation =>
    "error: ".toList ++ (violation.kind.message locale).toList ++ " (offset ".toList
      ++ decimal violation.offset ++ "): ".toList ++ text

-- The names in the object are in order.
def jsonLine (locale : Locale) (text : List Char) (highlight : Highlight) : List Char :=
  (Json.ofMembers
    [("input", .str text), ("result", highlight.toJson),
     ("message", .ofOption .ofString (highlight.message? locale))]).sorted.print

def htmlLine (locale : Locale) (text : List Char) (highlight : Highlight) : List Char :=
  "<div class=\"highlight\">".toList ++ (highlight.html? text).getD [] ++ "</div>".toList
    ++ match highlight.message? locale with
      | none         => []
      | some message =>
        "<div class=\"error-message\">".toList ++ message.toList ++ "</div>".toList

def formatLine (format : Format) (locale : Locale) (text : List Char) (highlight : Highlight) :
    List Char :=
  match format with
  | .plain => plainLine locale text highlight
  | .json  => jsonLine locale text highlight
  | .html  => htmlLine locale text highlight

def failureLine (failure : Failure) : List Char :=
  "error: ".toList ++ failure.message

def highlightLog : Highlight → LogLine
  | .accepted tokens => ⟨.trace, .highlight,
    "Expression accepted with ".toList ++ decimal tokens.length ++ " tokens".toList⟩
  | .rejected _ violation => ⟨.debug, .highlight,
    "Expression rejected: ".toList ++ violation.kind.name.toList ++ " at offset ".toList
      ++ decimal violation.offset⟩

namespace Record

def ofCheck (settings : Settings) (text : List Char) : Record :=
  match settings.checkText text with
  | .ok _          => ⟨true, none, []⟩
  | .error failure => ⟨false, some (failureLine failure ++ ':' :: ' ' :: text), []⟩

def ofHighlight (settings : Settings) (format : Format) (text : List Char) : Record :=
  match settings.highlight text with
  | .ok highlight =>
    ⟨highlight.isAccepted, some (formatLine format settings.locale text highlight),
      [highlightLog highlight]⟩
  | .error failure =>
    ⟨false, some (failureLine failure),
      [⟨.warn, .command, "Skipping expression: ".toList ++ failure.message⟩]⟩

end Record

end BoolSearch.Command
