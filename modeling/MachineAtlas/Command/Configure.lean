-- SUMMARY: The configuration of a command, from a file and from what the command line says over it.
import MachineAtlas.Command.Failure
import MachineAtlas.Config.Yaml
/-!
# Configuring a command

The configuration of a command: a file if one is named, and what the command line says over it.
-/
namespace MachineAtlas.Command

/-- The extensions of files that hold YAML. All other files hold JSON. -/
def yamlExtensions : List String := ["yaml", "yml"]

/-- Loads the configuration of a file. -/
def loadConfig (fs : FileSystem) (path : String) : Except Failure Config :=
  match fs.readText path with
  | .error io => .error (.configUnread path io)
  | .ok text =>
    if yamlExtensions.contains ((Path.extension? path).getD "") then
      match Config.ofYaml? text with
      | some config => .ok config
      | none => .error (.configMalformedYaml path)
    else
      match Config.codec.parse text with
      | .ok config => .ok config
      | .error fault => .error (.configMalformed path fault)

/-- The configuration of a command. Without file it starts from the default one. -/
def resolveConfig (fs : FileSystem) (path? : Option String) (o : Config.Overrides) :
    Except Failure Config := do
  let config ← match path? with
    | some path => loadConfig fs path
    | none => .ok {}
  pure (config.override o)

end MachineAtlas.Command
