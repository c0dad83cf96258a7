import RecordSearch.File

/-!
# The command

Prints the statement of the request in a file. Settings come from the file that
`LABELSEARCH_CONFIG` names, the working directory or the user's settings.
-/

namespace RecordSearch.Command

def contentsOf (path : String) : IO Contents :=
  try
    return some (← IO.FS.readBinFile path)
  catch _ =>
    return none

def environment : IO Environment := do
  return {
    configFile := ← IO.getEnv "LABELSEARCH_CONFIG"
    configHome := ← IO.getEnv "XDG_CONFIG_HOME"
    home := ← IO.getEnv "HOME" }

def run (path : String) : IO UInt32 := do
  let contents ← contentsOf path
  let env ← environment
  let settings ← env.configPaths.mapM contentsOf
  match reportOfFile path contents settings with
  | .ok text =>
    IO.print text
    return 0
  | .error e =>
    IO.eprintln ("Error: " ++ e.message?.getD "the file could not be read as a request")
    return 1

end RecordSearch.Command

def main (args : List String) : IO UInt32 :=
  match args with
  | path :: _ => RecordSearch.Command.run path
  | [] => do
    IO.eprintln "Usage: record-search <request.json|request.yaml>"
    return 1
