-- SUMMARY: Whole records of functions, in any monad that asks for readable names, and all notes.
import MachineAtlas.Path
import MachineAtlas.Record.Block
import MachineAtlas.Symbol
/-!
# Assembling records

The whole record of a function and all notes on it.
-/
namespace MachineAtlas

/-! ## Frames and modules -/

/-- A count, or the largest one there is if it is larger. -/
def cappedCount (n : Nat) : UInt32 := if n < UInt32.size then UInt32.ofNat n else 0xFFFFFFFF

/-- A size, or the largest signed one if it is larger. -/
def cappedSize (n : UInt64) : Int64 :=
  if n.toNat < Nat.pow 2 63 then Int64.ofNat n.toNat else Int64.ofNat (Nat.pow 2 63 - 1)

def Frame.summary (f : Frame) : FrameSummary where
  hasStackObjects := ! f.objects.isEmpty
  hasVariadicObjects := f.objects.any fun o => o.size.isNone
  isFrameAddressTaken := f.frameAddressTaken
  isReturnAddressTaken := f.returnAddressTaken
  numObjects := cappedCount f.objects.length
  numFixedObjects := cappedCount (f.objects.filter StackObject.fixed).length
  stackSize := cappedSize f.stackSize
  adjustsStack := f.adjustsStack

def OwningModule.summary (m : OwningModule) : ModuleSummary where
  moduleName := m.name
  moduleStem := Path.stem m.name
  sourceName := m.sourceFile
  sourceStem := Path.stem m.sourceFile

/-! ## Records -/

/-- How records are made: what reads mangled names, and what prints instructions if they are to be
printed. -/
structure Assembler where
  demangle : Demangler
  printer : Option Printer

namespace Assembler

/-- Makes the record of a function, asking for the readable form of its name if it has to. -/
def recordWith {m : Type → Type} [Monad m] (ask : String → m (Option String))
    (printer : Option Printer) (f : MachineFunction) : m Record := do
  let symbol ← Symbol.classifyWith ask f.name
  pure
    { function :=
        { operand := f.operand.getD (Operand.function f.name)
          name := f.name
          number := f.number
          isMangled := symbol.isMangled
          demangledName := symbol.demangledName
          frame := f.frame.summary
          blocks := f.blockRecords printer }
      owner := f.owner.map OwningModule.summary }

def record (a : Assembler) (f : MachineFunction) : Record :=
  Id.run (recordWith (m := Id) a.demangle a.printer f)

section

variable (a : Assembler) (f : MachineFunction)

theorem record_eq : a.record f =
    { function :=
        { operand := f.operand.getD (Operand.function f.name)
          name := f.name
          number := f.number
          isMangled := (Symbol.classify a.demangle f.name).isMangled
          demangledName := (Symbol.classify a.demangle f.name).demangledName
          frame := f.frame.summary
          blocks := f.blockRecords a.printer }
      owner := f.owner.map OwningModule.summary } := rfl

@[simp] theorem record_operand :
    (a.record f).function.operand = f.operand.getD (Operand.function f.name) := rfl

@[simp] theorem record_name : (a.record f).function.name = f.name := rfl

@[simp] theorem record_isMangled :
    (a.record f).function.isMangled = (Symbol.classify a.demangle f.name).isMangled := rfl

@[simp] theorem record_demangledName :
    (a.record f).function.demangledName = (Symbol.classify a.demangle f.name).demangledName := rfl

@[simp] theorem record_blocks : (a.record f).function.blocks = f.blockRecords a.printer := rfl

@[simp] theorem record_owner : (a.record f).owner = f.owner.map OwningModule.summary := rfl

end

def notes (a : Assembler) (f : MachineFunction) : List Note :=
  f.graphNotes a.printer ++
  (if f.operand.isNone then [.missingOperand] else []) ++
  (if f.owner.isNone then [.missingModule] else [])

/-- The names that the demangler is asked for while a record is made. -/
def questions (f : MachineFunction) : List String :=
  ((recordWith (Symbol.recording fun _ => none) none f).run []).2

end Assembler

end MachineAtlas
