-- SUMMARY: The codecs of machine functions and their parts.
import MachineAtlas.Machine.Basic
import MachineAtlas.Json.Layout
/-!
# Machine functions as documents

The codecs of machine functions and their parts. Only the name of a function or module, the number
and symbol of a block and the opcode of an instruction have to be there.
-/
namespace MachineAtlas

open Json (Codec Draft Fault Field Layout Members)

/-! ## Instructions -/

namespace InstrKind

def name : InstrKind → String
  | .plain => "plain"
  | .call => "call"
  | .branch => "branch"
  | .condBranch => "cond_branch"
  | .indirectBranch => "indirect_branch"
  | .ret => "return"
  | .trap => "trap"
  | .inlineAsm => "inline_asm"

def all : List InstrKind :=
  [.plain, .call, .branch, .condBranch, .indirectBranch, .ret, .trap, .inlineAsm]

theorem mem_all (k : InstrKind) : k ∈ all := by cases k <;> decide

def codec : Codec InstrKind := .variant (all.map fun k => (k.name, k)) name

end InstrKind

namespace Instr

def layout : Layout [UInt32, UInt32, InstrKind, List String] :=
  .cons (.required "opcode" .uint32) <|
  .cons (.default "flags" .uint32 0) <|
  .cons (.default "kind" InstrKind.codec .plain) <|
  .cons (.nonempty "operands" .text) <|
  .nil

def codec : Codec Instr :=
  .record "InstrSnapshot" layout
    (fun i => (i.opcode, i.flags, i.kind, i.operands, ()))
    (fun (opcode, flags, kind, operands, ()) => { opcode, flags, kind, operands })

end Instr

/-! ## Blocks -/

namespace Block

def layout : Layout
    [Int32, String, Option String, Bool, List Instr, List (Option Int32), List (Option Int32)] :=
  .cons (.required "number" .int32) <|
  .cons (.required "symbol" .text) <|
  .cons (.optional "ir_label" .text) <|
  .cons (.default "address_taken" .boolean false) <|
  .cons (.default "instrs" Instr.codec.list []) <|
  .cons (.default "preds" Codec.int32.option.list []) <|
  .cons (.default "succs" Codec.int32.option.list []) <|
  .nil

def codec : Codec Block :=
  .record "BlockSnapshot" layout
    (fun b => (b.number, b.symbol, b.irLabel, b.addressTaken, b.instrs, b.preds, b.succs, ()))
    (fun (number, symbol, irLabel, addressTaken, instrs, preds, succs, ()) =>
      { number, symbol, irLabel, addressTaken, instrs, preds, succs })

end Block

/-! ## Frames -/

namespace StackObject

def layout : Layout [Int64, Option UInt64, Bool] :=
  .cons (.default "offset" .int64 0) <|
  .cons (.default "size" Codec.uint64.option none) <|
  .cons (.default "fixed" .boolean false) <|
  .nil

def codec : Codec StackObject :=
  .record "StackObject" layout
    (fun o => (o.offset, o.size, o.fixed, ()))
    (fun (offset, size, fixed, ()) => { offset, size, fixed })

end StackObject

namespace Frame

def layout : Layout
    [List StackObject, Bool, Bool, UInt64, Bool, Option Int32, Option Int32] :=
  .cons (.default "objects" StackObject.codec.list []) <|
  .cons (.default "frame_address_taken" .boolean false) <|
  .cons (.default "return_address_taken" .boolean false) <|
  .cons (.default "stack_size" .uint64 0) <|
  .cons (.default "adjusts_stack" .boolean false) <|
  .cons (.optional "save_point" .int32) <|
  .cons (.optional "restore_point" .int32) <|
  .nil

def codec : Codec Frame :=
  .record "FrameSnapshot" layout
    (fun f => (f.objects, f.frameAddressTaken, f.returnAddressTaken, f.stackSize, f.adjustsStack,
      f.savePoint, f.restorePoint, ()))
    (fun (objects, frameAddressTaken, returnAddressTaken, stackSize, adjustsStack, savePoint,
        restorePoint, ()) =>
      { objects, frameAddressTaken, returnAddressTaken, stackSize, adjustsStack, savePoint,
        restorePoint })

end Frame

/-! ## Modules and targets -/

namespace OwningModule

def layout : Layout [String, String] :=
  .cons (.required "name" .text) <|
  .cons (.default "source_file" .text "") <|
  .nil

def codec : Codec OwningModule :=
  .record "ModuleSnapshot" layout
    (fun m => (m.name, m.sourceFile, ()))
    (fun (name, sourceFile, ()) => { name, sourceFile })

end OwningModule

namespace OpcodeNames

/-- The characters at the front of the pieces of a text, and whether they are all of it. -/
def frontChars : List Json.Piece → List Char × Bool
  | [] => ([], true)
  | .char c :: rest =>
    let (cs, whole) := frontChars rest
    (c :: cs, whole)
  | .unit _ :: _ => ([], false)

/-- Reads an opcode from the text of a key: a number between the marks and nothing else. The value
of the number is looked at before what follows it. -/
def readOpcode (q : Json.Quoted) : Except Fault UInt32 :=
  let (cs, whole) := frontChars q.pieces
  match cs with
  | [] => .error (.flaw .malformed)
  | c :: _ =>
    if c = '-' ∨ Json.Number.isDigit c then
      match Json.Number.scan cs with
      | .found n rest => do
        let opcode ← Codec.uint32.read (.number n)
        if rest.isEmpty ∧ whole ∧ q.ending = .closed then pure opcode
        else throw (.flaw .malformed)
      | .cut => .error (.flaw (if whole ∧ q.ending = .unterminated then .truncated else .malformed))
      | .malformed => .error (.flaw .malformed)
    else .error (.flaw .malformed)

def readKey : Draft → Except Fault UInt32
  | .text q => readOpcode q
  | .missing => .error (.flaw .truncated)
  | _ => .error (.flaw .malformed)

/-- Reads names in any order, the last of an opcode counting. -/
def readMembers (names : OpcodeNames) : Members → Except Fault OpcodeNames
  | .done => .ok names
  | .stop flaw => .error (.flaw flaw)
  | .next key value tail => do
    let opcode ← readKey key
    let name ← Codec.text.read value
    readMembers (names.insert opcode name) tail

def codec : Codec OpcodeNames where
  write names := .object (names.entries.map fun (o, n) => (toString o.toNat, .text n))
  read
    | .object members => readMembers empty members
    | d => .error (d.mismatch "a map")

end OpcodeNames

namespace Target

def layout : Layout [String, OpcodeNames] :=
  .cons (.default "triple" .text "") <|
  .cons (.default "opcode_names" OpcodeNames.codec .empty) <|
  .nil

def codec : Codec Target :=
  .record "TargetSnapshot" layout
    (fun t => (t.triple, t.opcodeNames, ()))
    (fun (triple, opcodeNames, ()) => { triple, opcodeNames })

end Target

/-! ## Functions -/

namespace MachineFunction

def layout : Layout
    [String, UInt32, Option String, Frame, List Block, Option OwningModule, Option Target] :=
  .cons (.required "name" .text) <|
  .cons (.default "number" .uint32 0) <|
  .cons (.optional "operand" .text) <|
  .cons (.default "frame" Frame.codec {}) <|
  .cons (.default "blocks" Block.codec.list []) <|
  .cons (.optional "module" OwningModule.codec) <|
  .cons (.optional "target" Target.codec) <|
  .nil

def codec : Codec MachineFunction :=
  .record "FunctionSnapshot" layout
    (fun f => (f.name, f.number, f.operand, f.frame, f.blocks, f.owner, f.target, ()))
    (fun (name, number, operand, frame, blocks, owner, target, ()) =>
      { name, number, operand, frame, blocks, owner, target })

end MachineFunction

end MachineAtlas
