import BoolSearch.Failure
import BoolSearch.Json.Decoder
import BoolSearch.Json.Printer
import BoolSearch.Query.Validation

namespace BoolSearch

def Locale.toJson (locale : Locale) : Json :=
  .ofString locale.code

def Locale.decoder : Json.Decoder Locale :=
  .oneOf (all.map fun locale => .const locale.code locale)

structure Settings where
  maxInputLength : Nat := 10000
  maxDepth : Nat := defaultMaxDepth
  locale : Locale := .en
  deriving DecidableEq, Repr

namespace Settings

-- Settings under which no expression at all would be valid are refused.
def check (settings : Settings) : Except Failure Unit :=
  if settings.maxInputLength = 0 then .error (.config .zeroInputLength)
  else if settings.maxDepth = 0 then .error (.config .zeroDepth)
  else .ok ()

def toJson (settings : Settings) : Json :=
  .ofMembers
    [("max_input_len", .nat settings.maxInputLength),
     ("max_depth", .nat settings.maxDepth),
     ("locale", settings.locale.toJson)]

structure Draft where
  maxInputLength : Option Nat := none
  maxDepth : Option Nat := none
  locale : Option Locale := none

def Draft.complete (draft : Draft) : Settings :=
  let default : Settings := {}
  { maxInputLength := draft.maxInputLength.getD default.maxInputLength
    maxDepth := draft.maxDepth.getD default.maxDepth
    locale := draft.locale.getD default.locale }

def decoder : Json.Decoder Settings :=
  .record
    [.of "max_input_len" Draft.maxInputLength ({ · with maxInputLength := some · }) .nat,
     .of "max_depth" Draft.maxDepth ({ · with maxDepth := some · }) .nat,
     .of "locale" Draft.locale ({ · with locale := some · }) Locale.decoder]
    {} fun draft => some draft.complete

-- The settings in a JSON text. They are not checked.
def ofText (text : List Char) : Except Failure Settings :=
  (decoder.ofText text).mapError .json

def ofFile : Option ByteArray → Except Failure Settings
  | none       => .error (.file .notFound)
  | some bytes =>
    match String.fromUTF8? bytes with
    | none      => .error (.file .notText)
    | some text => do
      let settings ← ofText text.toList
      settings.check
      return settings

inductive Change
  | reset
  | load (file : Option ByteArray)
  | parse (text : List Char)
  | inputLength (limit : Nat)
  | depth (limit : Nat)
  | language (name : List Char)

-- The settings after a change. A change that fails leaves the settings as they are.
def change (settings : Settings) : Change → Except Failure Settings
  | .reset             => .ok {}
  | .load file         => ofFile file
  | .parse text        => ofText text
  | .inputLength limit => .ok { settings with maxInputLength := limit }
  | .depth limit       => .ok { settings with maxDepth := limit }
  | .language name     => (Locale.ofText name).map fun locale => { settings with locale }

end Settings

end BoolSearch
