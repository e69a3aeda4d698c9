import BoolSearch.Json.Decoder
import BoolSearch.Json.Printer
import BoolSearch.Query.Token
import BoolSearch.Query.Violation

namespace BoolSearch

open Json.Decoder (Variant Field)

namespace Connective

def all : List Connective :=
  [and, or, not]

def name : Connective → String
  | and => "And"
  | or  => "Or"
  | not => "Not"

def toJson (connective : Connective) : Json :=
  .ofString connective.name

def decoder : Json.Decoder Connective :=
  .oneOf (all.map fun connective => .const connective.name connective)

end Connective

namespace Paren

def all : List Paren :=
  [opening, closing]

def name : Paren → String
  | opening => "Open"
  | closing => "Close"

def toJson (paren : Paren) : Json :=
  .ofString paren.name

def decoder : Json.Decoder Paren :=
  .oneOf (all.map fun paren => .const paren.name paren)

end Paren

namespace TokenKind

-- The name of the kind, whatever connective or parenthesis it is.
def name : TokenKind → String
  | blank        => "Whitespace"
  | connective _ => "Connective"
  | paren _      => "Paren"
  | key          => "Key"
  | equals       => "Equals"
  | quoted       => "QuotedValue"
  | bare         => "BareChar"

def toJson (kind : TokenKind) : Json :=
  match kind with
  | connective c => .ofMembers [(kind.name, c.toJson)]
  | paren p      => .ofMembers [(kind.name, p.toJson)]
  | _            => .ofString kind.name

def decoder : Json.Decoder TokenKind :=
  .oneOf
    [.const blank.name blank,
     .of (connective .and).name (Connective.decoder.map connective),
     .of (paren .opening).name (Paren.decoder.map paren),
     .const key.name key,
     .const equals.name equals,
     .const quoted.name quoted,
     .const bare.name bare]

end TokenKind

namespace Span

def toJson (span : Span) : Json :=
  .ofMembers [("start", .nat span.start), ("end", .nat span.stop)]

structure Draft where
  start : Option Nat := none
  stop : Option Nat := none

def Draft.complete? (draft : Draft) : Option Span := do
  return { start := ← draft.start, stop := ← draft.stop }

def decoder : Json.Decoder Span :=
  .record
    [.of "start" Draft.start ({ · with start := some · }) .nat,
     .of "end" Draft.stop ({ · with stop := some · }) .nat]
    {} Draft.complete?

end Span

namespace Token

def toJson (token : Token) : Json :=
  .ofMembers [("kind", token.kind.toJson), ("span", token.span.toJson)]

structure Draft where
  kind : Option TokenKind := none
  span : Option Span := none

def Draft.complete? (draft : Draft) : Option Token := do
  return { kind := ← draft.kind, span := ← draft.span }

def decoder : Json.Decoder Token :=
  .record
    [.of "kind" Draft.kind ({ · with kind := some · }) TokenKind.decoder,
     .of "span" Draft.span ({ · with span := some · }) Span.decoder]
    {} Draft.complete?

end Token

namespace ViolationKind

def toJson (kind : ViolationKind) : Json :=
  .ofString kind.name

def decoder : Json.Decoder ViolationKind :=
  .oneOf (all.map fun kind => .const kind.name kind)

end ViolationKind

namespace Violation

def toJson (violation : Violation) : Json :=
  .ofMembers [("kind", violation.kind.toJson), ("offset", .nat violation.offset)]

structure Draft where
  kind : Option ViolationKind := none
  offset : Option Nat := none

def Draft.complete? (draft : Draft) : Option Violation := do
  return { kind := ← draft.kind, offset := ← draft.offset }

def decoder : Json.Decoder Violation :=
  .record
    [.of "kind" Draft.kind ({ · with kind := some · }) ViolationKind.decoder,
     .of "offset" Draft.offset ({ · with offset := some · }) .nat]
    {} Draft.complete?

end Violation

end BoolSearch
