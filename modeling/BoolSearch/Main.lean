import BoolSearch.Command.Run

open BoolSearch BoolSearch.Command

namespace BoolSearch.Command

def variableOf (name : String) : IO (Option (List Char)) := do
  return (← IO.getEnv name).map String.toList

def readEnvironment : IO Environment := do
  return {
    locale := ← variableOf "BIBQUERY_LOCALE"
    config := ← variableOf "BIBQUERY_CONFIG"
    maxInputLength := ← variableOf "BIBQUERY_MAX_INPUT_LEN"
    log := ← variableOf "RUST_LOG" }

def readFile (path : List Char) : IO (Option ByteArray) := do
  try return some (← IO.FS.readBinFile (String.ofList path))
  catch _ => return none

-- Reads the file and the input as far as the request needs them.
def readGiven (arguments : List (List Char)) : IO Given := do
  let environment ← readEnvironment
  match Request.ofArguments arguments environment with
  | .error _ => return { arguments, environment, file := fun _ => none, input := .empty }
  | .ok request =>
    let content ← match request.config with
      | some path => readFile path
      | none      => pure none
    let input ←
      if request.expressions.isEmpty then (← IO.getStdin).readBinToEnd else pure ByteArray.empty
    return { arguments, environment, file := fun _ => content, input }

end BoolSearch.Command

def main (arguments : List String) : IO UInt32 := do
  let report := run (← readGiven (arguments.map String.toList))
  for line in report.log do
    IO.eprintln (String.ofList line.render)
  IO.print (String.ofList report.output)
  if let some stop := report.stop then
    IO.eprintln ("Error: " ++ String.ofList stop.message)
  return report.exitCode.toUInt32
