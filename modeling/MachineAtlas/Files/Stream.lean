-- SUMMARY: The buffered streams of records and of notes, and how they are closed or dropped.
import MachineAtlas.Files.Buffered
import MachineAtlas.Json.Value
/-!
# Streams

The two outputs of a run: records, one per line, and notes, one per line under the name of their
function. Both are buffered, and a stream that is dropped still tries to write what it holds.
-/
namespace MachineAtlas

/-- Why a stream fails. -/
inductive StreamFault where
  | unopened (path : String) (io : IoFault)
  | unwritten (io : IoFault)
  | unwritable (key : Json.Value.KeyFault)
  deriving DecidableEq, Repr

def StreamFault.message : StreamFault → String
  | .unopened path io => "Failed to open " ++ path ++ ": " ++ io.message
  | .unwritten io => "Failed to write output stream: " ++ io.message
  | .unwritable key => "Failed to serialize record: " ++ key.message

/-- The fault of the file that made the stream fail. -/
def StreamFault.io? : StreamFault → Option IoFault
  | .unopened _ io => some io
  | .unwritten io => some io
  | .unwritable _ => none

/-! ## Files behind a buffer -/

/-- An open file and the bytes that wait to be written to it. -/
structure OpenFile where
  handle : FileSystem.Handle
  pending : Bytes
  deriving DecidableEq, Repr, Inhabited

namespace OpenFile

/-- Runs an operation of the buffer of a file. -/
def via (fs : FileSystem) (file : OpenFile)
    (act : Buffered (FileSystem × FileSystem.Handle) →
      Buffered (FileSystem × FileSystem.Handle) × Except IoFault Unit) :
    FileSystem × OpenFile × Except StreamFault Unit :=
  let (b, r) := act ⟨(fs, file.handle), file.pending⟩
  (b.device.1, ⟨b.device.2, b.pending⟩, r.mapError .unwritten)

def create (fs : FileSystem) (path : String) : FileSystem × Except StreamFault OpenFile :=
  match fs.create path with
  | .ok (fs, handle) => (fs, .ok ⟨handle, []⟩)
  | .error io => (fs, .error (.unopened path io))

def writeAll (fs : FileSystem) (file : OpenFile) (pieces : List Bytes) :
    FileSystem × OpenFile × Except StreamFault Unit :=
  file.via fs fun b => b.writeAll FileSystem.put pieces

def flush (fs : FileSystem) (file : OpenFile) : FileSystem × OpenFile × Except StreamFault Unit :=
  file.via fs fun b => b.flush FileSystem.put

/-- Writes what waits, whether or not that succeeds. -/
def drop (fs : FileSystem) (file : OpenFile) : FileSystem := (file.flush fs).1

/-- Writes what waits. What could not be written is tried once more. -/
def close (fs : FileSystem) (file : OpenFile) : FileSystem × Except StreamFault Unit :=
  match file.flush fs with
  | (fs, _, .ok ()) => (fs, .ok ())
  | (fs, file, .error e) => (file.drop fs, .error e)

end OpenFile

/-! ## Records -/

structure RecordStream where
  path : String
  file : OpenFile
  deriving DecidableEq, Repr, Inhabited

namespace RecordStream

def create (fs : FileSystem) (path : String) : FileSystem × Except StreamFault RecordStream :=
  let (fs, file) := OpenFile.create fs path
  (fs, file.map fun file => { path, file })

/-- Appends a value as one line. A value that cannot be written leaves the stream as it is. -/
def append (fs : FileSystem) (s : RecordStream) (value : Except Json.Value.KeyFault Json.Value) :
    FileSystem × RecordStream × Except StreamFault Unit :=
  match value with
  | .error key => (fs, s, .error (.unwritable key))
  | .ok value =>
    let (fs, file, r) := s.file.writeAll fs [textBytes (value.line ++ "\n")]
    (fs, { s with file }, r)

def drop (fs : FileSystem) (s : RecordStream) : FileSystem := s.file.drop fs

def close (fs : FileSystem) (s : RecordStream) : FileSystem × Except StreamFault Unit :=
  s.file.close fs

end RecordStream

/-! ## Notes -/

/-- A stream without file takes no notes. -/
structure NoteStream where
  file? : Option OpenFile
  deriving DecidableEq, Repr, Inhabited

namespace NoteStream

def discarding : NoteStream := ⟨none⟩

def isEnabled (s : NoteStream) : Bool := s.file?.isSome

/-- The first line of a file of notes, with the time at which it was begun. -/
def header (stamp : String) : List Bytes :=
  ["# frameprobe diagnostics (started ", stamp, ")\n"].map textBytes

def create (fs : FileSystem) (stamp path : String) : FileSystem × Except StreamFault NoteStream :=
  match OpenFile.create fs path with
  | (fs, .error e) => (fs, .error e)
  | (fs, .ok file) =>
    match file.writeAll fs (header stamp) with
    | (fs, file, .ok ()) => (fs, .ok ⟨some file⟩)
    | (fs, file, .error e) => (file.drop fs, .error e)

/-- The line of one note. -/
def noteLine (function note : String) : List Bytes :=
  ["[", function, "] ", note, "\n"].map textBytes

/-- Writes the notes of a function, each on a line of its own, and gives their number. -/
def writeNotes (fs : FileSystem) (s : NoteStream) (function : String) (notes : List String) :
    FileSystem × NoteStream × Except StreamFault Nat :=
  match s.file? with
  | none => (fs, s, .ok 0)
  | some file =>
    let (fs, file, r) := file.writeAll fs (notes.flatMap (noteLine function))
    (fs, ⟨some file⟩, r.map fun () => notes.length)

def drop (fs : FileSystem) (s : NoteStream) : FileSystem :=
  match s.file? with
  | none => fs
  | some file => file.drop fs

def close (fs : FileSystem) (s : NoteStream) : FileSystem × Except StreamFault Unit :=
  match s.file? with
  | none => (fs, .ok ())
  | some file => file.close fs

end NoteStream

end MachineAtlas
