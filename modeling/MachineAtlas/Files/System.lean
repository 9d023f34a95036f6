-- SUMMARY: A tree of directories, files and devices, and what a program does with it.
import MachineAtlas.Path
/-!
# File systems

A tree of directories, files and two devices, and the operations of a program on it: opening a file
to read or to create it, writing at a position, reading a whole file.
-/
namespace MachineAtlas

abbrev Bytes := List UInt8

/-- The bytes of a text. -/
def textBytes (s : String) : Bytes := s.toUTF8.toList

/-- The text of bytes, if they are one. -/
def bytesText? (bs : Bytes) : Option String := String.fromUTF8? ⟨bs.toArray⟩

/-! ## Faults -/

/-- Why an operation on a file fails. -/
inductive IoFault where
  | notFound
  | notDirectory
  | isDirectory
  | noSpace
  | nameTooLong
  | nulInPath
  | notText
  | outOfMemory
  deriving DecidableEq, Repr, Inhabited

def IoFault.message : IoFault → String
  | .notFound => "No such file or directory (os error 2)"
  | .notDirectory => "Not a directory (os error 20)"
  | .isDirectory => "Is a directory (os error 21)"
  | .noSpace => "No space left on device (os error 28)"
  | .nameTooLong => "File name too long (os error 36)"
  | .nulInPath => "file name contained an unexpected NUL byte"
  | .notText => "stream did not contain valid UTF-8"
  | .outOfMemory => "out of memory"

/-! ## Trees -/

/-- The names on the way from the root. -/
abbrev Location := List String

/-- What is at a location. `void` takes every byte and gives none, `full` takes none and gives zeros
without end. -/
inductive FileSystem.Node where
  | directory
  | file (content : Bytes)
  | void
  | full
  deriving DecidableEq, Repr, Inhabited

/-- The bytes of an open node, up to their end. A directory can be opened but not read, and no memory
holds what the full device gives. -/
def FileSystem.Node.contents : FileSystem.Node → Except IoFault Bytes
  | .directory => .error .isDirectory
  | .file content => .ok content
  | .void => .ok []
  | .full => .error .outOfMemory

/-- A file system seen from a working directory, which is given by its absolute path. -/
structure FileSystem where
  workingDirectory : String
  nodes : List (Location × FileSystem.Node)
  deriving DecidableEq, Repr, Inhabited

namespace FileSystem

def node? (fs : FileSystem) (l : Location) : Option Node :=
  if l.isEmpty then some .directory else fs.nodes.lookup l

/-- Puts a node at a location, in place of the one there. -/
def set (fs : FileSystem) (l : Location) (n : Node) : FileSystem :=
  { fs with nodes :=
      if (fs.nodes.lookup l).isSome then
        fs.nodes.map fun e => if e.1 == l then (l, n) else e
      else fs.nodes ++ [(l, n)] }

/-- The names of a path. -/
def names (path : String) : List String :=
  ((Path.segments path.toList).filter fun s => ! s.isEmpty).map String.ofList

/-- The location that relative paths start from. -/
def home (fs : FileSystem) : Location := names fs.workingDirectory

/-- The file system with two devices and an empty working directory. -/
def empty (workingDirectory : String) : FileSystem :=
  let home := names workingDirectory
  { workingDirectory
    nodes :=
      [(["dev"], .directory), (["dev", "null"], .void), (["dev", "full"], .full)] ++
      (List.range home.length).map fun i => (home.take (i + 1), .directory) }

/-! ## Paths -/

/-- The longest name and one more than the longest path, in bytes. -/
def nameLimit : Nat := 255
def pathLimit : Nat := 4096

/-- Goes from a directory to one of the names in it, which is not looked at yet. -/
def enter (fs : FileSystem) (l : Location) (name : String) : Except IoFault Location :=
  match fs.node? l with
  | some .directory =>
    if name = "." then .ok l
    else if name = ".." then .ok l.dropLast
    else if nameLimit < name.utf8ByteSize then .error .nameTooLong
    else .ok (l ++ [name])
  | some _ => .error .notDirectory
  | none => .error .notFound

/-- Goes along names, all but the last of which have to be directories. -/
def walk (fs : FileSystem) : Location → List String → Except IoFault Location
  | l, [] => .ok l
  | l, name :: rest => do fs.walk (← fs.enter l name) rest

/-- Where a path leads to, whether or not there is something. -/
def locate (fs : FileSystem) (path : String) : Except IoFault Location :=
  if path.toList.contains '\x00' then .error .nulInPath
  else if path.isEmpty then .error .notFound
  else if pathLimit ≤ path.utf8ByteSize then .error .nameTooLong
  else fs.walk (if Path.isAbsolute path.toList then [] else fs.home) (names path)

/-- A path with a separator at its end can only be a directory. -/
def endsInSeparator (path : String) : Bool := path.toList.getLast? == some '/'

/-- What a path leads to. -/
def find (fs : FileSystem) (path : String) : Except IoFault (Location × Node) := do
  let l ← fs.locate path
  match fs.node? l with
  | none => throw .notFound
  | some .directory => pure (l, .directory)
  | some n => if endsInSeparator path then throw .notDirectory else pure (l, n)

def isFile (fs : FileSystem) (path : String) : Bool :=
  match fs.find path with
  | .ok (_, .file _) => true
  | _ => false

def doesExist (fs : FileSystem) (path : String) : Bool := (fs.find path).isOk

/-! ## Reading -/

def readBytes (fs : FileSystem) (path : String) : Except IoFault Bytes := do
  let (_, n) ← fs.find path
  n.contents

def readText (fs : FileSystem) (path : String) : Except IoFault String := do
  match bytesText? (← fs.readBytes path) with
  | some s => pure s
  | none => throw .notText

/-! ## Writing -/

/-- A place in an open file. Two handles on one file do not know of each other. -/
structure Handle where
  location : Location
  position : Nat
  deriving DecidableEq, Repr, Inhabited

/-- Opens a file to write it from its start. It is made empty, or made if it is not there. -/
def create (fs : FileSystem) (path : String) : Except IoFault (FileSystem × Handle) := do
  let l ← fs.locate path
  if endsInSeparator path then throw .isDirectory
  match fs.node? l with
  | some .directory => throw .isDirectory
  | some (.file _) => pure (fs.set l (.file []), ⟨l, 0⟩)
  | some .void => pure (fs, ⟨l, 0⟩)
  | some .full => pure (fs, ⟨l, 0⟩)
  | none => pure (fs.set l (.file []), ⟨l, 0⟩)

/-- Puts bytes over those at a position, a gap before it being filled with zeros. -/
def overlay (content : Bytes) (position : Nat) (data : Bytes) : Bytes :=
  content.take position ++ List.replicate (position - content.length) 0 ++ data ++
    content.drop (position + data.length)

/-- Writes bytes at a handle, all of them or none. -/
def put (data : Bytes) : FileSystem × Handle → Except IoFault (FileSystem × Handle)
  | (fs, h) =>
    match fs.node? h.location with
    | some (.file content) =>
      .ok (fs.set h.location (.file (overlay content h.position data)),
        ⟨h.location, h.position + data.length⟩)
    | some .void => .ok (fs, h)
    | some .full => if data.isEmpty then .ok (fs, h) else .error .noSpace
    | some .directory => .error .isDirectory
    | none => .error .notFound

/-! ## Setting up -/

/-- Makes the directories along names that are not there yet. -/
def addAlong (fs : FileSystem) (l : Location) : List String → FileSystem
  | [] => fs
  | name :: rest =>
    match fs.enter l name with
    | .error _ => fs
    | .ok l => addAlong (if (fs.node? l).isNone then fs.set l .directory else fs) l rest

/-- Makes a directory and those it is in. -/
def addDirectory (fs : FileSystem) (path : String) : FileSystem :=
  fs.addAlong (if Path.isAbsolute path.toList then [] else fs.home) (names path)

/-- Puts a file into place, with the directories it is in. -/
def addFile (fs : FileSystem) (path : String) (content : Bytes) : FileSystem :=
  let directory := "/".intercalate ((Path.segments path.toList).dropLast.map String.ofList)
  let fs := fs.addDirectory directory
  match fs.locate path with
  | .ok l => fs.set l (.file content)
  | .error _ => fs

/-- The files below the working directory, by their paths from there. -/
def listing (fs : FileSystem) : List (String × Bytes) :=
  fs.nodes.filterMap fun (l, n) =>
    match n with
    | .file content =>
      if fs.home.isPrefixOf l then some ("/".intercalate (l.drop fs.home.length), content) else none
    | _ => none

end FileSystem

end MachineAtlas
