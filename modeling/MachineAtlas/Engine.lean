-- SUMMARY: Runs over machine functions: starting, inspecting a function, finishing and dropping.
import MachineAtlas.Config
import MachineAtlas.Files.Stream
import MachineAtlas.Record.Assembly
import MachineAtlas.Record.Wire
/-!
# The engine

A run over machine functions: its streams are opened once, each function adds its record and its
notes to them, and at the end they are closed. Nothing but the streams and three counters carries
over from one function to the next. A run that is not enabled opens and records nothing.
-/
namespace MachineAtlas

/-- What a run has done so far. -/
@[ext]
structure RunSummary where
  functionsInspected : Nat := 0
  recordsWritten : Nat := 0
  diagnosticsWritten : Nat := 0
  deriving DecidableEq, Repr, Inhabited

def RunSummary.value (s : RunSummary) : Json.Value :=
  .object
    [("functions_inspected", .integer s.functionsInspected),
     ("records_written", .integer s.recordsWritten),
     ("diagnostics_written", .integer s.diagnosticsWritten)]

structure Streams where
  records : RecordStream
  notes : NoteStream
  deriving DecidableEq, Repr, Inhabited

/-- A run in progress. -/
structure Engine where
  config : Config
  streams? : Option Streams
  demangle : Demangler
  printer : Printer
  summary : RunSummary

namespace Engine

/-! ## Starting -/

def openNotes (fs : FileSystem) (stamp : String) (config : Config) :
    FileSystem × Except StreamFault NoteStream :=
  match config.diagnostics with
  | none => (fs, .ok NoteStream.discarding)
  | some path => NoteStream.create fs stamp path

/-- Opens the streams of a configuration, that of the notes first. -/
def openStreams (fs : FileSystem) (stamp : String) (config : Config) :
    FileSystem × Except StreamFault Streams :=
  match openNotes fs stamp config with
  | (fs, .error e) => (fs, .error e)
  | (fs, .ok notes) =>
    match RecordStream.create fs config.output with
    | (fs, .error e) => (notes.drop fs, .error e)
    | (fs, .ok records) => (fs, .ok { records, notes })

/-- Begins a run at the time `stamp`. -/
def start (fs : FileSystem) (stamp : String) (config : Config) (demangle : Demangler)
    (printer : Printer) : FileSystem × Except StreamFault Engine :=
  let engine (streams? : Option Streams) : Engine :=
    { config, streams?, demangle, printer, summary := {} }
  if config.enabled then
    let (fs, streams) := openStreams fs stamp config
    (fs, streams.map fun s => engine (some s))
  else (fs, .ok (engine none))

/-! ## Running -/

def isEnabled (e : Engine) : Bool := e.streams?.isSome

def outputPath? (e : Engine) : Option String := e.streams?.map fun s => s.records.path

/-- How the engine makes records. -/
def assembler (e : Engine) : Assembler where
  demangle := e.demangle
  printer := if e.config.prettyPrintInstrs then some e.printer else none

/-- Records a function, and says whether it did. The record is written before the notes, and a
function counts as inspected even if neither can be written. -/
def inspect (fs : FileSystem) (e : Engine) (f : MachineFunction) :
    FileSystem × Engine × Except StreamFault Bool :=
  match e.streams? with
  | none => (fs, e, .ok false)
  | some streams =>
    let inspected := { e.summary with functionsInspected := e.summary.functionsInspected + 1 }
    match streams.records.append fs (.ok (Record.codec.write (e.assembler.record f))) with
    | (fs, records, .error fault) =>
      (fs, { e with streams? := some { streams with records }, summary := inspected },
        .error fault)
    | (fs, records, .ok ()) =>
      let recorded := { inspected with recordsWritten := inspected.recordsWritten + 1 }
      match streams.notes.writeNotes fs f.name ((e.assembler.notes f).map Note.message) with
      | (fs, notes, .error fault) =>
        (fs, { e with streams? := some { records, notes }, summary := recorded }, .error fault)
      | (fs, notes, .ok written) =>
        let noted :=
          { recorded with diagnosticsWritten := recorded.diagnosticsWritten + written }
        (fs, { e with streams? := some { records, notes }, summary := noted }, .ok true)

/-! ## Ending -/

/-- Ends a run without asking whether what waits can be written. -/
def drop (fs : FileSystem) (e : Engine) : FileSystem :=
  match e.streams? with
  | none => fs
  | some streams => streams.notes.drop (streams.records.drop fs)

/-- Ends a run, closing the notes first. If they fail, what waits of the records is still
written. -/
def finish (fs : FileSystem) (e : Engine) : FileSystem × Except StreamFault RunSummary :=
  match e.streams? with
  | none => (fs, .ok e.summary)
  | some streams =>
    match streams.notes.close fs with
    | (fs, .error fault) => (streams.records.drop fs, .error fault)
    | (fs, .ok ()) =>
      match streams.records.close fs with
      | (fs, .error fault) => (fs, .error fault)
      | (fs, .ok ()) => (fs, .ok e.summary)

end Engine

end MachineAtlas
