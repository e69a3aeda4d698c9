import BoolSearch.Json.Scan
import BoolSearch.Query.Violation

namespace BoolSearch

inductive ConfigFault
  | zeroInputLength
  | zeroDepth
  -- No language has this name, which is given in lowercase.
  | unknownLocale (name : List Char)
  | stated (cause : List Char)
  deriving DecidableEq, Repr

def ConfigFault.message : ConfigFault → List Char
  | zeroInputLength    => "max_input_len must be greater than zero".toList
  | zeroDepth          => "max_depth must be greater than zero".toList
  | unknownLocale name => "Unknown locale '".toList ++ name ++ ['\x27']
  | stated cause       => cause

inductive FileFault
  | notFound
  | notText
  deriving DecidableEq, Repr

def FileFault.message : FileFault → List Char
  | notFound => "No such file or directory (os error 2)".toList
  | notText  => "stream did not contain valid UTF-8".toList

inductive Failure
  | invalid (violation : Violation)
  | tooLong (limit actual : Nat)
  | config (fault : ConfigFault)
  | file (fault : FileFault)
  | json (fault : Json.Fault)
  deriving DecidableEq, Repr

namespace Failure

def message : Failure → List Char
  | invalid violation    => "Invalid expression: ".toList ++ violation.describe
  | tooLong limit actual =>
    "Input too long: ".toList ++ decimal actual ++ " characters, limit is ".toList ++ decimal limit
  | config fault    => "Configuration error: ".toList ++ fault.message
  | file fault      => "IO error: ".toList ++ fault.message
  -- What is wrong with the JSON text, and where, is left out.
  | json _          => "JSON error: ".toList

def violationKind? : Failure → Option ViolationKind
  | invalid violation => some violation.kind
  | _                 => none

end Failure

def Locale.ofText (text : List Char) : Except Failure Locale :=
  match ofText? text with
  | some locale => .ok locale
  | none        => .error (.config (.unknownLocale (lowercase text)))

end BoolSearch
