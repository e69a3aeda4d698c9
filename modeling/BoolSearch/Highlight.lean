import BoolSearch.Markup
import BoolSearch.Query.Encoding
import BoolSearch.Query.Tokenize
import BoolSearch.Settings

namespace BoolSearch

inductive Highlight
  | accepted (tokens : List Token)
  -- The span is that of the whole text.
  | rejected (raw : Span) (violation : Violation)
  deriving DecidableEq, Repr

namespace Settings

def checkLength (settings : Settings) (text : List Char) : Except Failure Unit :=
  if settings.maxInputLength < text.length then
    .error (.tooLong settings.maxInputLength text.length)
  else .ok ()

def checkText (settings : Settings) (text : List Char) : Except Failure Unit := do
  settings.checkLength text
  match validate settings.maxDepth text with
  | .ok _            => return
  | .error violation => .error (.invalid violation)

def highlight (settings : Settings) (text : List Char) : Except Failure Highlight := do
  settings.checkLength text
  match validate settings.maxDepth text with
  | .ok _            => return .accepted (tokenize text)
  | .error violation => return .rejected ⟨0, byteLength text⟩ violation

end Settings

def TokenKind.style : TokenKind → Style
  | .connective _ => .connective
  | .key => .key
  | .quoted => .quotedValue
  | .blank | .paren _ | .equals | .bare => .plain

namespace Highlight

def isAccepted : Highlight → Bool
  | accepted _   => true
  | rejected _ _ => false

def tokens : Highlight → List Token
  | accepted tokens => tokens
  | rejected _ _    => []

def violation? : Highlight → Option Violation
  | accepted _           => none
  | rejected _ violation => some violation

def message? (highlight : Highlight) (locale : Locale) : Option String :=
  highlight.violation?.map fun violation => violation.kind.message locale

-- The elements that show the text. There are none if a span does not fit the text, which happens
-- only with spans of another text.
def elements? (highlight : Highlight) (text : List Char) : Option (List Element) :=
  match highlight with
  | accepted tokens =>
    tokens.mapM fun token => (token.display? text).map fun shown => ⟨token.kind.style, shown⟩
  | rejected raw _ => (sliceBytes? text raw.start raw.stop).map fun shown => [⟨.plain, shown⟩]

def html? (highlight : Highlight) (text : List Char) : Option (List Char) :=
  (highlight.elements? text).map Element.renderAll

def toJson : Highlight → Json
  | accepted tokens =>
    .ofMembers [("status", .ofString "accepted"), ("tokens", .arr (tokens.map Token.toJson))]
  | rejected raw violation =>
    .ofMembers [("status", .ofString "rejected"), ("raw", raw.toJson), ("error", violation.toJson)]

def acceptedDecoder : Json.Decoder Highlight :=
  .record [.of "tokens" id (fun _ tokens => some tokens) (.list Token.decoder)] none
    (Option.map accepted)

structure RejectedDraft where
  raw : Option Span := none
  violation : Option Violation := none

def RejectedDraft.complete? (draft : RejectedDraft) : Option Highlight := do
  return .rejected (← draft.raw) (← draft.violation)

def rejectedDecoder : Json.Decoder Highlight :=
  .record
    [.of "raw" RejectedDraft.raw ({ · with raw := some · }) Span.decoder,
     .of "error" RejectedDraft.violation ({ · with violation := some · }) Violation.decoder]
    {} RejectedDraft.complete?

def decoder : Json.Decoder Highlight :=
  .tagged "status".toList fun name =>
    if name = "accepted".toList then some acceptedDecoder
    else if name = "rejected".toList then some rejectedDecoder
    else none

end Highlight

end BoolSearch
