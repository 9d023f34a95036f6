-- SUMMARY: The failures of commands, with their causes and the outcome that a command has.
import MachineAtlas.Files.Lines
import MachineAtlas.Files.Stream
/-!
# Failures of commands

What a command was doing when it failed, and the causes of that, from the nearest one on.
-/
namespace MachineAtlas.Command

/-- A cause behind a failure. -/
inductive Cause where
  | stream (fault : StreamFault)
  | io (fault : IoFault)
  | json (fault : Json.Fault)
  | yaml
  deriving Repr

/-- The failure of a command. `what` is the kind of a file's lines, and a visitor of lines may
refuse one in words of its own. -/
inductive Failure where
  | noInput (path : String)
  | configUnread (path : String) (io : IoFault)
  | configMalformed (path : String) (fault : Json.Fault)
  | configMalformedYaml (path : String)
  | notStarted (output : String) (fault : StreamFault)
  | linesUnopened (what path : String) (io : IoFault)
  | linesUnread (what path : String) (io : IoFault)
  | lineMalformed (what path : String) (line : Nat) (fault : Json.Fault)
  | notRecorded (function : String) (fault : StreamFault)
  | notClosed (fault : StreamFault)
  | refused (message : String)
  deriving Repr

def Failure.message : Failure → String
  | .noInput path => "Snapshot file does not exist: " ++ path
  | .configUnread path _ => "Failed to read engine config at " ++ path
  | .configMalformed path _ => "Failed to parse engine config JSON " ++ path
  | .configMalformedYaml path => "Failed to parse engine config YAML " ++ path
  | .notStarted output _ => "Failed to start engine (output " ++ output ++ ")"
  | .linesUnopened what path _ => "Failed to open " ++ what ++ " file " ++ path
  | .linesUnread what path _ => "Failed to read " ++ what ++ " file " ++ path
  | .lineMalformed what path line _ =>
    "Failed to parse " ++ what ++ " at " ++ path ++ ":" ++ toString line
  | .notRecorded function _ => "Failed to record function " ++ function
  | .notClosed _ => "Failed to close output streams"
  | .refused message => message

/-- A stream that fails because of its file has the fault of the file as a cause of its own. -/
def streamCauses (fault : StreamFault) : List Cause :=
  .stream fault :: fault.io?.toList.map .io

def Failure.causes : Failure → List Cause
  | .noInput _ => []
  | .configUnread _ io => [.io io]
  | .configMalformed _ fault => [.json fault]
  | .configMalformedYaml _ => [.yaml]
  | .notStarted _ fault => streamCauses fault
  | .linesUnopened _ _ io => [.io io]
  | .linesUnread _ _ io => [.io io]
  | .lineMalformed _ _ _ fault => [.json fault]
  | .notRecorded _ fault => streamCauses fault
  | .notClosed fault => streamCauses fault
  | .refused _ => []

/-- What a command leaves behind: the files, what it printed, and its result. -/
structure Outcome (α : Type) where
  files : FileSystem
  output : String
  result : Except Failure α

/-- Lines, each with its end. -/
def printed (lines : List String) : String := String.join (lines.map (· ++ "\n"))

/-! ## Files of documents -/

/-- Visits the values of a file with one document per line. A failure in the file is named by its
path and by `what` its lines are. -/
def visitFile {α σ : Type} (codec : Json.Codec α) (what path : String) (fs : FileSystem)
    (visit : σ → α → σ × Except Failure Unit) (s : σ) : σ × Except Failure Nat :=
  match fs.find path with
  | .error io => (s, .error (.linesUnopened what path io))
  | .ok (_, node) =>
    match node.contents with
    | .error io => (s, .error (.linesUnread what path io))
    | .ok content =>
      let (s, r) := Lines.visit codec visit s content
      (s, r.mapError fun
        | .unreadable io => .linesUnread what path io
        | .malformed line fault => .lineMalformed what path line fault
        | .refused e => e)

end MachineAtlas.Command
