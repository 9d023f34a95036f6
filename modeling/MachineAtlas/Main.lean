-- SUMMARY: Running a command line on the disk, around the command on what was found there.
import MachineAtlas.Command.Line
import MachineAtlas.Symbol.Demangle
import Std.Time.DateTime
/-!
# The program

Runs a command line on the disk. The paths that the command can reach are looked up first, then the
command runs on what was found, and the files that it changed are written.
-/
namespace MachineAtlas

/-! ## Time -/

/-- A number with zeros in front. -/
def padded (width n : Nat) : String :=
  let digits := toString n
  String.ofList (List.replicate (width - digits.length) '0') ++ digits

/-- The present time in UTC. -/
def presentStamp : IO String := do
  let moment ← Std.Time.Timestamp.now
  let now := Std.Time.PlainDateTime.ofWallTime (.ofDuration moment.toDurationSinceUnixEpoch)
  let date := padded 4 now.date.year.toInt.toNat ++ "-" ++ padded 2 now.date.month.val.toNat ++
    "-" ++ padded 2 now.date.day.val.toNat
  let time := padded 2 now.time.hour.val.toNat ++ ":" ++ padded 2 now.time.minute.val.toNat ++
    ":" ++ padded 2 now.time.second.val.toNat
  pure (date ++ "T" ++ time ++ "." ++ padded 9 now.time.nanosecond.val.toNat ++ "+00:00")

/-! ## Reach of a command -/

/-- The files that a request reads. -/
def Command.Request.sources : Command.Request → List String
  | .inspect input config _ _ => input :: config.toList
  | .summarize records _ => [records]
  | .toolVersion | .versions | .classify .. => []

/-- The files that a request writes, once its sources are known. -/
def Command.Request.targets (fs : FileSystem) : Command.Request → List String
  | .inspect _ config overrides _ =>
    match Command.resolveConfig fs config overrides with
    | .ok config => config.output :: config.diagnostics.toList
    | .error _ => []
  | .toolVersion | .versions | .classify .. | .summarize .. => []

/-! ## The disk -/

def diskPath (l : Location) : String := "/" ++ "/".intercalate l

/-- What the disk has at a location. What is there but cannot be read is a directory. -/
def diskNode? (l : Location) : IO (Option FileSystem.Node) := do
  try
    let content ← IO.FS.readBinFile (diskPath l)
    return some (.file content.toList)
  catch _ =>
    try
      let _ ← IO.FS.realPath (diskPath l)
      return some .directory
    catch _ => return none

/-- Looks up what lies along names, as far as nothing is known of it. -/
def lookUp (fs : FileSystem) (l : Location) : List String → IO FileSystem
  | [] => pure fs
  | name :: rest =>
    match fs.enter l name with
    | .error _ => pure fs
    | .ok l => do
      let found ← if (fs.node? l).isSome then pure none else diskNode? l
      lookUp (found.elim fs (fs.set l)) l rest

def lookUpPath (fs : FileSystem) (path : String) : IO FileSystem :=
  lookUp fs (if Path.isAbsolute path.toList then [] else fs.home) (FileSystem.names path)

/-- Writes the files that differ from what they were. -/
def writeChanges (before after : FileSystem) : IO Unit :=
  after.nodes.forM fun (l, n) =>
    match n with
    | .file content => do
      if before.node? l != some n then
        IO.FS.writeBinFile (diskPath l) ⟨content.toArray⟩
    | _ => pure ()

end MachineAtlas

open MachineAtlas in
def main (arguments : List String) : IO UInt32 := do
  let mut fs := FileSystem.empty (toString (← IO.currentDir))
  if let .ok request := Command.readRequest arguments then
    fs ← request.sources.foldlM lookUpPath fs
    fs ← (request.targets fs).foldlM lookUpPath fs
  let exit := Command.run fs (← presentStamp) Symbol.demangle arguments
  writeChanges fs exit.files
  IO.print exit.output
  if exit.error != "" then IO.eprintln exit.error
  return exit.code.toUInt32
