-- SUMMARY: The codecs of records and their parts.
import MachineAtlas.Record.Basic
import MachineAtlas.Json.Layout
/-!
# Records as documents

The codecs of records and their parts. An absent option is left out; everything else is written.
-/
namespace MachineAtlas

open Json (Codec Field Layout)

/-! ## Blocks -/

namespace Edge

def layout : Layout [Int32, String] :=
  .cons (.required "number" .int32) <|
  .cons (.required "symbol" .text) <|
  .nil

def codec : Codec Edge :=
  .record "EdgeRecord" layout
    (fun e => (e.number, e.symbol, ()))
    (fun (number, symbol, ()) => { number, symbol })

end Edge

namespace Successor

def layout : Layout [Int32, String, Bool] :=
  .cons (.required "number" .int32) <|
  .cons (.required "symbol" .text) <|
  .cons (.required "layout_successor" .boolean) <|
  .nil

def codec : Codec Successor :=
  .record "SuccessorRecord" layout
    (fun s => (s.number, s.symbol, s.layoutSuccessor, ()))
    (fun (number, symbol, layoutSuccessor, ()) => { number, symbol, layoutSuccessor })

end Successor

namespace InstrRecord

def layout : Layout [UInt32, Bool, Bool] :=
  .cons (.required "opcode" .uint32) <|
  .cons (.required "frame_setup" .boolean) <|
  .cons (.required "frame_destroy" .boolean) <|
  .nil

def codec : Codec InstrRecord :=
  .record "InstructionRecord" layout
    (fun i => (i.opcode, i.frameSetup, i.frameDestroy, ()))
    (fun (opcode, frameSetup, frameDestroy, ()) => { opcode, frameSetup, frameDestroy })

end InstrRecord

namespace IrBlock

def layout : Layout [String] := .cons (.required "operand" .text) .nil

def codec : Codec IrBlock :=
  .record "IrBlockRecord" layout (fun b => (b.operand, ())) (fun (operand, ()) => { operand })

end IrBlock

namespace MachineBlock

def layout : Layout
    [Int32, String, Bool, Bool, Bool, Bool, Bool, Bool, List Edge, List Successor,
      List InstrRecord, Option (List String)] :=
  .cons (.required "number" .int32) <|
  .cons (.required "symbol" .text) <|
  .cons (.required "can_fallthrough" .boolean) <|
  .cons (.required "ends_in_return" .boolean) <|
  .cons (.required "is_epilogue_insertion_block" .boolean) <|
  .cons (.required "is_prologue_insertion_block" .boolean) <|
  .cons (.required "address_taken" .boolean) <|
  .cons (.required "has_inline_asm" .boolean) <|
  .cons (.required "preds" Edge.codec.list) <|
  .cons (.required "succs" Successor.codec.list) <|
  .cons (.required "instrs" InstrRecord.codec.list) <|
  .cons (.optional "asm" Codec.text.list) <|
  .nil

def codec : Codec MachineBlock :=
  .record "MachineBlockRecord" layout
    (fun b => (b.number, b.symbol, b.canFallthrough, b.endsInReturn, b.isEpilogueSite,
      b.isPrologueSite, b.addressTaken, b.hasInlineAsm, b.preds, b.succs, b.instrs, b.asm, ()))
    (fun (number, symbol, canFallthrough, endsInReturn, isEpilogueSite, isPrologueSite,
        addressTaken, hasInlineAsm, preds, succs, instrs, asm, ()) =>
      { number, symbol, canFallthrough, endsInReturn, isEpilogueSite, isPrologueSite,
        addressTaken, hasInlineAsm, preds, succs, instrs, asm })

end MachineBlock

namespace BlockRecord

def layout : Layout [Option IrBlock, MachineBlock] :=
  .cons (.optional "ir" IrBlock.codec) <|
  .cons (.required "mi" MachineBlock.codec) <|
  .nil

def codec : Codec BlockRecord :=
  .record "BlockRecord" layout (fun b => (b.ir, b.machine, ()))
    (fun (ir, machine, ()) => { ir, machine })

end BlockRecord

/-! ## Functions -/

namespace FrameSummary

def layout : Layout [Bool, Bool, Bool, Bool, UInt32, UInt32, Int64, Bool] :=
  .cons (.required "has_stack_objects" .boolean) <|
  .cons (.required "has_variadic_objects" .boolean) <|
  .cons (.required "is_frame_address_taken" .boolean) <|
  .cons (.required "is_return_address_taken" .boolean) <|
  .cons (.required "num_objects" .uint32) <|
  .cons (.required "num_fixed_objects" .uint32) <|
  .cons (.required "stack_size" .int64) <|
  .cons (.required "adjusts_stack" .boolean) <|
  .nil

def codec : Codec FrameSummary :=
  .record "FrameSummary" layout
    (fun f => (f.hasStackObjects, f.hasVariadicObjects, f.isFrameAddressTaken,
      f.isReturnAddressTaken, f.numObjects, f.numFixedObjects, f.stackSize, f.adjustsStack, ()))
    (fun (hasStackObjects, hasVariadicObjects, isFrameAddressTaken, isReturnAddressTaken,
        numObjects, numFixedObjects, stackSize, adjustsStack, ()) =>
      { hasStackObjects, hasVariadicObjects, isFrameAddressTaken, isReturnAddressTaken,
        numObjects, numFixedObjects, stackSize, adjustsStack })

end FrameSummary

namespace FunctionRecord

def layout : Layout [String, String, UInt32, Bool, Option String, FrameSummary, List BlockRecord] :=
  .cons (.required "operand" .text) <|
  .cons (.required "name" .text) <|
  .cons (.required "number" .uint32) <|
  .cons (.required "is_mangled" .boolean) <|
  .cons (.optional "demangled_name" .text) <|
  .cons (.required "frame_info" FrameSummary.codec) <|
  .cons (.required "bbs" BlockRecord.codec.list) <|
  .nil

def codec : Codec FunctionRecord :=
  .record "FunctionRecord" layout
    (fun f => (f.operand, f.name, f.number, f.isMangled, f.demangledName, f.frame, f.blocks, ()))
    (fun (operand, name, number, isMangled, demangledName, frame, blocks, ()) =>
      { operand, name, number, isMangled, demangledName, frame, blocks })

end FunctionRecord

namespace ModuleSummary

def layout : Layout [String, String, String, String] :=
  .cons (.required "module_name" .text) <|
  .cons (.required "module_stem" .text) <|
  .cons (.required "source_name" .text) <|
  .cons (.required "source_stem" .text) <|
  .nil

def codec : Codec ModuleSummary :=
  .record "ModuleSummary" layout
    (fun m => (m.moduleName, m.moduleStem, m.sourceName, m.sourceStem, ()))
    (fun (moduleName, moduleStem, sourceName, sourceStem, ()) =>
      { moduleName, moduleStem, sourceName, sourceStem })

end ModuleSummary

namespace Record

def layout : Layout [FunctionRecord, Option ModuleSummary] :=
  .cons (.required "function" FunctionRecord.codec) <|
  .cons (.optional "module" ModuleSummary.codec) <|
  .nil

def codec : Codec Record :=
  .record "ProbeRecord" layout (fun r => (r.function, r.owner, ()))
    (fun (function, owner, ()) => { function, owner })

end Record

end MachineAtlas
