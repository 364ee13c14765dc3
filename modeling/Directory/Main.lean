import Directory.Node

namespace Directory

/-- Fetches the settings file, if one is named. -/
def fetchSettings (path? : Option String) : IO Node.Source := do
  match path? with
  | none => return .builtIn
  | some path =>
    try
      return .file (← IO.FS.readFile path).toList
    catch _ =>
      return .missingFile

end Directory

/-- Starts a server from the settings that the command line or the environment names,
and announces its naming contexts. -/
def main (arguments : List String) : IO UInt32 := do
  let path? := Directory.Node.configPath? (arguments.map String.toList)
    ((← IO.getEnv "DS_CONFIG").map String.toList)
  let source ← Directory.fetchSettings (path?.map String.ofList)
  let mode? := (← IO.getEnv "DS_DEFAULT_REFERRAL_MODE").map String.toList
  match Directory.Node.announcement source mode? with
  | .ok lines =>
    for line in lines do
      IO.println (String.ofList line)
    return 0
  | .error reason =>
    IO.eprintln (String.ofList reason)
    return 1
