-- SUMMARY: The command that adds up what the records of a file hold.
import MachineAtlas.Command.Failure
import MachineAtlas.Record.Wire
/-!
# Totals of a file of records

Reads a file with one record per line and adds up what the records hold.
-/
namespace MachineAtlas.Command

/-- Totals over records. -/
@[ext]
structure Totals where
  functions : Nat := 0
  mangledFunctions : Nat := 0
  blocks : Nat := 0
  instructions : Nat := 0
  prologueSites : Nat := 0
  epilogueSites : Nat := 0
  inlineAsmBlocks : Nat := 0
  functionsWithoutModule : Nat := 0
  deriving DecidableEq, Repr, Inhabited

namespace Totals

/-- The totals of two sets of records. -/
def add (a b : Totals) : Totals where
  functions := a.functions + b.functions
  mangledFunctions := a.mangledFunctions + b.mangledFunctions
  blocks := a.blocks + b.blocks
  instructions := a.instructions + b.instructions
  prologueSites := a.prologueSites + b.prologueSites
  epilogueSites := a.epilogueSites + b.epilogueSites
  inlineAsmBlocks := a.inlineAsmBlocks + b.inlineAsmBlocks
  functionsWithoutModule := a.functionsWithoutModule + b.functionsWithoutModule

instance : Add Totals := ⟨add⟩

/-- The totals of one record. -/
def ofRecord (r : Record) : Totals :=
  let blocks := r.function.blocks.map BlockRecord.machine
  { functions := 1
    mangledFunctions := if r.function.isMangled then 1 else 0
    blocks := blocks.length
    instructions := (blocks.flatMap fun b => b.instrs).length
    prologueSites := blocks.countP MachineBlock.isPrologueSite
    epilogueSites := blocks.countP MachineBlock.isEpilogueSite
    inlineAsmBlocks := blocks.countP MachineBlock.hasInlineAsm
    functionsWithoutModule := if r.owner.isNone then 1 else 0 }

def value (t : Totals) : Json.Value :=
  .object
    [("functions", .integer t.functions),
     ("mangled_functions", .integer t.mangledFunctions),
     ("blocks", .integer t.blocks),
     ("instructions", .integer t.instructions),
     ("prologue_sites", .integer t.prologueSites),
     ("epilogue_sites", .integer t.epilogueSites),
     ("inline_asm_blocks", .integer t.inlineAsmBlocks),
     ("functions_without_module", .integer t.functionsWithoutModule)]

/-- The totals as text. Functions without module are mentioned only if there are any. -/
def report (path : String) (t : Totals) (json : Bool) : String :=
  if json then printed [t.value.pretty]
  else
    printed ([
      "Record file: " ++ path,
      "  Functions: " ++ toString t.functions ++ " (" ++ toString t.mangledFunctions ++ " mangled)",
      "  Blocks: " ++ toString t.blocks,
      "  Instructions: " ++ toString t.instructions,
      "  Prologue sites: " ++ toString t.prologueSites,
      "  Epilogue sites: " ++ toString t.epilogueSites,
      "  Blocks with inline asm: " ++ toString t.inlineAsmBlocks] ++
      if 0 < t.functionsWithoutModule then
        ["  Functions without module: " ++ toString t.functionsWithoutModule]
      else [])

end Totals

/-- The totals of the file `path`. -/
def totalsOf (fs : FileSystem) (path : String) : Except Failure Totals :=
  let (totals, r) := visitFile Record.codec "record" path fs
    (fun t r => (t + Totals.ofRecord r, .ok ())) ({} : Totals)
  r.map fun _ => totals

def summarize (fs : FileSystem) (path : String) (json : Bool) : Outcome Totals :=
  match totalsOf fs path with
  | .error failure => ⟨fs, "", .error failure⟩
  | .ok totals => ⟨fs, totals.report path json, .ok totals⟩

end MachineAtlas.Command
