import Directory.Config.Format
import Directory.Service.Basic

namespace Directory

/-! # Starting a server

Settings come from a file named on the command line or by the environment, or are the
built-in ones; the environment may also set how delegations are treated. -/

namespace Node

/-- Why a server has no settings to start with. -/
inductive LoadError where
  /-- The file cannot be read. -/
  | unreadable
  /-- The file does not hold settings. -/
  | malformed
  | invalid (fault : ConfigError)
deriving DecidableEq

/-- One partition for the server's own entries, with an administrator in it. -/
def defaultConfig : Config := {
  partitions := [{
    id := "system"
    suffix := "ou=system"
    contextValues? := some (.ofList [
      ("objectClass", ["top", "organizationalUnit"]),
      ("ou", ["system"])]) }]
  access := { administrators := ["uid=admin,ou=system"] } }

/-- The file with the settings: the first argument, otherwise what the environment
says. -/
def configPath? (arguments : List Text) (environment? : Option Text) : Option Text :=
  arguments.head?.or environment?

/-- What was found where the settings should be. -/
inductive Source where
  | builtIn
  | missingFile
  | file (content : Text)

/-- The settings that a source holds. -/
def Source.config : Source → Except LoadError Config
  | .builtIn => .ok defaultConfig
  | .missingFile => .error .unreadable
  | .file content =>
    match Config.parse? content with
    | none => .error .malformed
    | some config => .ok config

/-- The settings with a mode in place of their own, if the text is one. -/
def withMode (config : Config) (text? : Option Text) : Config :=
  match text?.map ReferralMode.parse with
  | some (.ok mode) => { config with defaultMode := mode }
  | _ => config

/-- The settings to start with; a mode from the environment goes before the source's. -/
def loadConfig (source : Source) (mode? : Option Text) : Except LoadError Config := do
  let config := withMode (← source.config) mode?
  config.validate.mapError LoadError.invalid
  .ok config

def LoadError.message : LoadError → Text
  | unreadable => "the settings file cannot be read"
  | malformed => "the settings file does not hold settings"
  | invalid fault => "invalid settings: " ++ fault.message

/-- The lines that announce a server, or the reason why there is none. -/
def announcement (source : Source) (mode? : Option Text) : Except Text (List Text) := do
  let config ← (loadConfig source mode?).mapError LoadError.message
  let (service, contexts) ← (Service.ofConfig config).mapError Error.message
  let lines := contexts.suffixes.map fun suffix =>
    Text.ofLiteral "Naming context: " ++ suffix.text
  .ok (lines ++ [Text.ofLiteral "Default referral mode: " ++ service.defaultMode.text])

end Node

end Directory
