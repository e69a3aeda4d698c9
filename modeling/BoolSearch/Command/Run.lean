import BoolSearch.Command.Filter
import BoolSearch.Command.Record
import BoolSearch.Text.Quoted

namespace BoolSearch.Command

structure Given where
  arguments : List (List Char)
  environment : Environment := {}
  -- The content of the file at a path, if there is a file.
  file : List Char → Option ByteArray
  input : ByteArray

-- Why a run stops before it looks at an expression.
inductive Stop
  | unloadable (path : List Char)
  | unusable (failure : Failure)
  | unreadable
  deriving DecidableEq, Repr

def Stop.message : Stop → List Char
  | unloadable path  => "Failed to load settings from ".toList ++ quote path
  | unusable failure => failure.message
  | unreadable       => "Failed to read expressions from stdin".toList

structure Report where
  exitCode : Nat
  output : List Char := []
  stop : Option Stop := none
  log : List LogLine := []
  deriving DecidableEq, Repr

namespace Request

-- The settings of the file that is asked for, or else the default ones.
def loaded (request : Request) (file : List Char → Option ByteArray) : Except Stop Settings :=
  match request.config with
  | none      => .ok {}
  | some path =>
    match Settings.ofFile (file path) with
    | .error _     => .error (.unloadable path)
    | .ok settings => .ok settings

def localized (request : Request) (settings : Settings) : Settings × List LogLine :=
  match request.locale with
  | none      => (settings, [])
  | some name =>
    match Locale.ofText? name with
    | some locale => ({ settings with locale }, [])
    | none        => (settings, [⟨.warn, .command,
      "Unknown locale '".toList ++ name ++ "', using '".toList ++ settings.locale.title.toList
        ++ ['\x27']⟩])

def limited (request : Request) (settings : Settings) : Settings :=
  { settings with maxInputLength := request.maxInputLength.getD settings.maxInputLength }

def settings (request : Request) (file : List Char → Option ByteArray) :
    Except Stop Settings × List LogLine :=
  match request.loaded file with
  | .error stop => (.error stop, [])
  | .ok loaded  =>
    let (localized, log) := request.localized loaded
    let settings := request.limited localized
    match settings.check with
    | .error failure => (.error (.unusable failure), log)
    | .ok _          => (.ok settings, log)

end Request

-- The lines of a text. A line feed ends a line, with a carriage return in front of it or without;
-- the last line need not end.
def lines : List Char → List (List Char)
  | []        => []
  | c :: text =>
    if c = '\n' then [] :: lines text
    else if c = '\r' ∧ text.head? = some '\n' then lines text
    else match lines text with
      | []           => [[c]]
      | line :: more => (c :: line) :: more

-- The expressions of a run: those in the arguments, or else the lines of the input.
def Request.texts (request : Request) (input : ByteArray) : Except Stop (List (List Char)) :=
  if request.expressions.isEmpty then
    match String.fromUTF8? input with
    | none      => .error .unreadable
    | some text => .ok (lines text.toList)
  else .ok request.expressions

def describe (settings : Settings) : List Char :=
  "Settings \x7b max_input_len: ".toList ++ decimal settings.maxInputLength
    ++ ", max_depth: ".toList ++ decimal settings.maxDepth
    ++ ", locale: ".toList ++ settings.locale.title.toList ++ " \x7d".toList

def greeting (settings : Settings) : LogLine :=
  ⟨.info, .command, "bibquery v".toList ++ version.toList ++ " with ".toList ++ describe settings⟩

def Request.record (request : Request) (settings : Settings) (text : List Char) : Record :=
  if request.check then .ofCheck settings text
  else .ofHighlight settings (request.format.getD .plain) text

def printed (records : List Record) : List Char :=
  (records.filterMap Record.line).flatMap fun line => line ++ ['\n']

def Request.report (request : Request) (settings : Settings) (texts : List (List Char)) : Report :=
  let records := texts.map (request.record settings)
  { exitCode := if records.all Record.isValid then 0 else 1
    output := printed records
    log := records.flatMap Record.log }

def Request.run (request : Request) (file : List Char → Option ByteArray) (input : ByteArray) :
    Report :=
  let (settings, log) := request.settings file
  match settings with
  | .error stop  => { exitCode := 1, stop := some stop, log }
  | .ok settings =>
    let log := log ++ [greeting settings]
    match request.texts input with
    | .error stop => { exitCode := 1, stop := some stop, log }
    | .ok texts   =>
      let report := request.report settings texts
      { report with log := log ++ report.log }

def Report.filtered (report : Report) (filter : Filter) : Report :=
  { report with log := report.log.filter filter.shows }

-- A run of the command. Without a filter for the log it does not even look at its arguments.
def run (given : Given) : Report :=
  match Filter.ofText? (given.environment.log.getD []) with
  | none        => { exitCode := 101 }
  | some filter =>
    match Request.ofArguments given.arguments given.environment with
    | .error .bad  => { exitCode := 2 }
    | .error .help => { exitCode := 0 }
    | .ok request  => (request.run given.file given.input).filtered filter

end BoolSearch.Command
