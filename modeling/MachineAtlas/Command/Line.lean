-- SUMMARY: Reading command lines, the command on names, and running what a command line asks for.
import MachineAtlas.Command.Inspect
import MachineAtlas.Command.Summarize
/-!
# Command lines

The commands and their arguments: options with a path, switches, and names. Each option and switch
may be given once, a path is not empty, and after two dashes all arguments are names.
-/
namespace MachineAtlas.Command

def toolName : String := "frameprobe"

def version : String := "0.1.0"

/-! ## Classifying names -/

/-- One line on a name. -/
def classLine (c : SymbolClass) : String :=
  c.name ++ ": " ++ (if c.isMangled then "itanium" else "plain") ++ " (" ++
    c.demangledName.getD "-" ++ ")"

def classify (fs : FileSystem) (names : List String) (json : Bool) (demangle : Demangler) :
    Outcome (List SymbolClass) :=
  let classes := names.map (Symbol.classify demangle)
  let output :=
    if json then printed [(Json.Value.array (classes.map SymbolClass.value)).pretty]
    else printed (classes.map classLine)
  ⟨fs, output, .ok classes⟩

/-! ## Arguments -/

/-- Why arguments are refused. -/
inductive UsageFault where
  | unknownCommand (name : String)
  | unknownArgument (argument : String)
  | repeated (name : String)
  | missingValue (name : String)
  | emptyValue (name : String)
  | unneededValue (name : String)
  | missingOption (name : String)
  | missingNames
  deriving DecidableEq, Repr

def UsageFault.message : UsageFault → String
  | .unknownCommand name => "unrecognized subcommand " ++ name
  | .unknownArgument argument => "unexpected argument " ++ argument
  | .repeated name => "argument --" ++ name ++ " is given more than once"
  | .missingValue name => "argument --" ++ name ++ " needs a value"
  | .emptyValue name => "argument --" ++ name ++ " needs a value that is not empty"
  | .unneededValue name => "argument --" ++ name ++ " takes no value"
  | .missingOption name => "argument --" ++ name ++ " is missing"
  | .missingNames => "no names are given"

/-- What a command takes. -/
structure Signature where
  options : List String := []
  switches : List String := []
  takesNames : Bool := false

structure Arguments where
  options : List (String × String) := []
  switches : List String := []
  names : List String := []
  deriving Repr, Inhabited

/-- An argument of the form `--name` or `--name=value`. -/
def longArgument? (argument : String) : Option (String × Option String) :=
  match argument.toList with
  | '-' :: '-' :: body =>
    let name := String.ofList (body.takeWhile (· != '='))
    match body.dropWhile (· != '=') with
    | [] => some (name, none)
    | _ :: value => some (name, some (String.ofList value))
  | _ => none

/-- An argument that begins with a dash and is more than that. -/
def looksLikeOption (argument : String) : Bool :=
  argument.toList.head? == some '-' && argument != "-"

def Arguments.addOption (a : Arguments) (name value : String) : Except UsageFault Arguments :=
  if value.isEmpty then .error (.emptyValue name)
  else if (a.options.lookup name).isSome then .error (.repeated name)
  else .ok { a with options := a.options ++ [(name, value)] }

def Arguments.addSwitch (a : Arguments) (name : String) : Except UsageFault Arguments :=
  if a.switches.contains name then .error (.repeated name)
  else .ok { a with switches := a.switches ++ [name] }

def Arguments.addNames (s : Signature) (a : Arguments) : List String → Except UsageFault Arguments
  | [] => .ok a
  | name :: rest =>
    if s.takesNames then .ok { a with names := a.names ++ name :: rest }
    else .error (.unknownArgument name)

/-- Takes arguments apart. -/
def readArguments (s : Signature) (a : Arguments) : List String → Except UsageFault Arguments
  | [] => .ok a
  | "--" :: rest => a.addNames s rest
  | argument :: rest =>
    match longArgument? argument with
    | some (name, value?) =>
      if s.options.contains name then
        match value?, rest with
        | some value, rest => do readArguments s (← a.addOption name value) rest
        | none, value :: rest =>
          if looksLikeOption value then .error (.missingValue name)
          else do readArguments s (← a.addOption name value) rest
        | none, [] => .error (.missingValue name)
      else if s.switches.contains name then
        if value?.isSome then .error (.unneededValue name)
        else do readArguments s (← a.addSwitch name) rest
      else .error (.unknownArgument argument)
    | none =>
      if looksLikeOption argument then .error (.unknownArgument argument)
      else do readArguments s (← a.addNames s [argument]) rest

def Arguments.required (a : Arguments) (name : String) : Except UsageFault String :=
  match a.options.lookup name with
  | some value => .ok value
  | none => .error (.missingOption name)

/-! ## Commands -/

/-- What a command line asks for. -/
inductive Request where
  | toolVersion
  | versions
  | inspect (input : String) (config : Option String) (overrides : Config.Overrides) (json : Bool)
  | classify (names : List String) (json : Bool)
  | summarize (records : String) (json : Bool)
  deriving Repr

def inspectSignature : Signature where
  options := ["input", "config", "output", "diagnostics"]
  switches := ["pretty-print-instrs", "disable", "json"]

def classifySignature : Signature where
  switches := ["json"]
  takesNames := true

def summarizeSignature : Signature where
  options := ["records"]
  switches := ["json"]

/-- What the arguments of a command ask for. -/
def readCommand (name : String) (rest : List String) : Except UsageFault Request :=
  match name with
  | "version" => do
    let _ ← readArguments {} {} rest
    pure .versions
  | "inspect" => do
    let a ← readArguments inspectSignature {} rest
    let overrides : Config.Overrides :=
      { output := a.options.lookup "output"
        diagnostics := a.options.lookup "diagnostics"
        prettyPrintInstrs := a.switches.contains "pretty-print-instrs"
        disable := a.switches.contains "disable" }
    pure (.inspect (← a.required "input") (a.options.lookup "config") overrides
      (a.switches.contains "json"))
  | "classify-symbol" => do
    let a ← readArguments classifySignature {} rest
    if a.names.isEmpty then throw .missingNames
    pure (.classify a.names (a.switches.contains "json"))
  | "summarize" => do
    let a ← readArguments summarizeSignature {} rest
    pure (.summarize (← a.required "records") (a.switches.contains "json"))
  | name => throw (.unknownCommand name)

/-- What a command line asks for: the versions, if it names no command. -/
def readRequest : List String → Except UsageFault Request
  | [] => .ok .versions
  | ["--"] => .ok .versions
  | "--version" :: _ => .ok .toolVersion
  | "-V" :: _ => .ok .toolVersion
  | name :: rest =>
    if looksLikeOption name then .error (.unknownArgument name) else readCommand name rest

/-! ## Runs -/

/-- How a command line ends: what it leaves behind, and its exit code. -/
structure Exit where
  files : FileSystem
  code : Nat
  output : String
  error : String

/-- A failing command has code 1 and says what it was doing. -/
def Outcome.exit {α : Type} (o : Outcome α) : Exit :=
  match o.result with
  | .ok _ => ⟨o.files, 0, o.output, ""⟩
  | .error failure => ⟨o.files, 1, o.output, "Error: " ++ failure.message⟩

def Request.run (fs : FileSystem) (stamp : String) (demangle : Demangler) : Request → Exit
  | .toolVersion => ⟨fs, 0, printed [toolName ++ " " ++ version], ""⟩
  | .versions =>
    ⟨fs, 0, printed [toolName ++ " v" ++ version, toolName ++ "-core v" ++ version], ""⟩
  | .inspect input config overrides json =>
    (Command.inspect fs stamp input config overrides json demangle).exit
  | .classify names json => (Command.classify fs names json demangle).exit
  | .summarize records json => (Command.summarize fs records json).exit

/-- Arguments that are refused have code 2. -/
def run (fs : FileSystem) (stamp : String) (demangle : Demangler) (arguments : List String) :
    Exit :=
  match readRequest arguments with
  | .ok request => request.run fs stamp demangle
  | .error fault => ⟨fs, 2, "", "error: " ++ fault.message⟩

end MachineAtlas.Command
