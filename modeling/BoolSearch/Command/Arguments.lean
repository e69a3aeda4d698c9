import BoolSearch.Text.Decimal

namespace BoolSearch.Command

inductive Format
  | plain
  | json
  | html
  deriving DecidableEq, Repr

def Format.ofText? (text : List Char) : Option Format :=
  if text = "plain".toList then some .plain
  else if text = "json".toList then some .json
  else if text = "html".toList then some .html
  else none

structure Environment where
  locale : Option (List Char) := none
  config : Option (List Char) := none
  maxInputLength : Option (List Char) := none
  log : Option (List Char) := none
  deriving DecidableEq, Repr

structure Request where
  -- The expressions to look at; if there are none, they are read from standard input.
  expressions : List (List Char) := []
  format : Option Format := none
  check : Bool := false
  locale : Option (List Char) := none
  config : Option (List Char) := none
  maxInputLength : Option Nat := none
  deriving DecidableEq, Repr

inductive Refusal
  | bad
  | help
  deriving DecidableEq, Repr

inductive Parameter
  | format
  | locale
  | config
  | maxInputLength
  deriving DecidableEq, Repr

def Parameter.ofName? (name : List Char) : Option Parameter :=
  if name = "format".toList then some .format
  else if name = "locale".toList then some .locale
  else if name = "config".toList then some .config
  else if name = "max-input-len".toList then some .maxInputLength
  else none

namespace Request

def has (request : Request) : Parameter → Bool
  | .format         => request.format.isSome
  | .locale         => request.locale.isSome
  | .config         => request.config.isSome
  | .maxInputLength => request.maxInputLength.isSome

-- A path is never empty.
def put? (request : Request) (parameter : Parameter) (value : List Char) : Option Request :=
  match parameter with
  | .format => (Format.ofText? value).map fun format => { request with format := some format }
  | .locale => some { request with locale := some value }
  | .config => if value.isEmpty then none else some { request with config := some value }
  | .maxInputLength => (size? value).map fun size => { request with maxInputLength := some size }

-- An option may be given once.
def set? (request : Request) (parameter : Parameter) (value : List Char) : Option Request :=
  if request.has parameter then none else request.put? parameter value

def setCheck? (request : Request) : Option Request :=
  if request.check then none else some { request with check := true }

def addExpressions (request : Request) (expressions : List (List Char)) : Request :=
  { request with expressions := request.expressions ++ expressions }

-- A dash alone is a value.
def isValue : List Char → Bool
  | '-' :: _ :: _ => false
  | _             => true

def splitOption (option : List Char) : List Char × Option (List Char) :=
  match option.dropWhile (· != '=') with
  | []         => (option, none)
  | _ :: value => (option.takeWhile (· != '='), some value)

def orBad (request : Option Request) (next : Request → Except Refusal Request) :
    Except Refusal Request :=
  match request with
  | none         => .error .bad
  | some request => next request

-- Behind a double dash there are expressions only.
def addArguments (request : Request) : List (List Char) → Except Refusal Request
  | [] => .ok request
  | ['-', '-'] :: arguments => .ok (request.addExpressions arguments)
  | ('-' :: '-' :: option) :: arguments =>
    match splitOption option, arguments with
    | (name, some value), arguments =>
      match Parameter.ofName? name with
      | none           => .error .bad
      | some parameter => orBad (request.set? parameter value) (addArguments · arguments)
    | (name, none), arguments =>
      if name = "help".toList then .error .help
      else if name = "check".toList then orBad request.setCheck? (addArguments · arguments)
      else match Parameter.ofName? name, arguments with
        | some parameter, value :: arguments =>
          if isValue value then orBad (request.set? parameter value) (addArguments · arguments)
          else .error .bad
        | _, _ => .error .bad
  | ('-' :: 'h' :: _) :: _  => .error .help
  | ('-' :: _ :: _) :: _    => .error .bad
  | expression :: arguments => addArguments (request.addExpressions [expression]) arguments

-- Gives an option the value of its variable, if it has none yet.
def standIn (request : Request) (parameter : Parameter) (setTo : Option (List Char)) :
    Option Request :=
  match setTo with
  | none       => some request
  | some value => if request.has parameter then some request else request.put? parameter value

def addEnvironment (request : Request) (environment : Environment) : Option Request := do
  let request ← request.standIn .locale environment.locale
  let request ← request.standIn .config environment.config
  request.standIn .maxInputLength environment.maxInputLength

def ofArguments (arguments : List (List Char)) (environment : Environment) :
    Except Refusal Request :=
  (addArguments {} arguments).bind fun request => orBad (request.addEnvironment environment) .ok

end Request

end BoolSearch.Command
