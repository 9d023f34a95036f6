-- SUMMARY: The command that records every function of a file with one function per line.
import MachineAtlas.Command.Configure
import MachineAtlas.Engine
import MachineAtlas.Machine.Wire
/-!
# Inspecting a file of functions

Records every function of a file with one function per line. The streams are opened before the file
is read.
-/
namespace MachineAtlas.Command

/-- What is printed at the end of a run. -/
def runReport (fs : FileSystem) (config : Config) (summary : RunSummary) (json : Bool) : String :=
  if json then printed [summary.value.pretty]
  else if ¬ config.enabled then printed ["Engine disabled; nothing recorded."]
  else
    let absolute := Path.inDirectory fs.workingDirectory
    printed ([
      "Inspected functions:",
      "  Functions: " ++ toString summary.functionsInspected,
      "  Records: " ++ toString summary.recordsWritten,
      "  Output: " ++ absolute config.output] ++
      config.diagnostics.toList.map fun path =>
        "  Diagnostics: " ++ absolute path ++ " (" ++ toString summary.diagnosticsWritten ++
          " notes)")

/-- Records one function of a run. -/
def inspectOne (state : FileSystem × Engine) (f : MachineFunction) :
    (FileSystem × Engine) × Except Failure Unit :=
  let (fs, engine, r) := state.2.inspect state.1 f
  ((fs, engine), match r with
    | .ok _ => .ok ()
    | .error fault => .error (.notRecorded f.name fault))

/-- Runs the engine of a configuration over the functions of a file. A run that fails is dropped. -/
def runOver (fs : FileSystem) (stamp input : String) (config : Config) (demangle : Demangler) :
    FileSystem × Except Failure RunSummary :=
  match Engine.start fs stamp config demangle Instr.listing with
  | (fs, .error fault) => (fs, .error (.notStarted config.output fault))
  | (fs, .ok engine) =>
    match visitFile MachineFunction.codec "function snapshot" input fs inspectOne (fs, engine) with
    | ((fs, engine), .error failure) => (engine.drop fs, .error failure)
    | ((fs, engine), .ok _) =>
      match engine.finish fs with
      | (fs, .error fault) => (fs, .error (.notClosed fault))
      | (fs, .ok summary) => (fs, .ok summary)

/-- Records the functions of the file `input`. -/
def inspect (fs : FileSystem) (stamp input : String) (configPath : Option String)
    (o : Config.Overrides) (json : Bool) (demangle : Demangler) : Outcome RunSummary :=
  if ¬ fs.isFile input then ⟨fs, "", .error (.noInput input)⟩
  else match resolveConfig fs configPath o with
    | .error failure => ⟨fs, "", .error failure⟩
    | .ok config =>
      match runOver fs stamp input config demangle with
      | (fs, .error failure) => ⟨fs, "", .error failure⟩
      | (fs, .ok summary) => ⟨fs, runReport fs config summary json, .ok summary⟩

end MachineAtlas.Command
