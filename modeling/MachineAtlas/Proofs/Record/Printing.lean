-- SUMMARY: Printing adds the texts of the instructions to the records and changes nothing else.
import MachineAtlas.Proofs.Record.Comparison
/-!
# Printing

To print instructions adds their texts to the records, one line an instruction, and changes nothing
else. It takes a printer and a target to print for, and where only the target is missing there is a
note on that.
-/
namespace MachineAtlas

def BlockRecord.withoutAsm (r : BlockRecord) : BlockRecord :=
  { r with machine := { r.machine with asm := none } }

/-- The lines are the texts of the instructions for a target, in order. -/
structure Printed (print : Printer) (target : Target) (instrs : List Instr)
    (lines : List String) : Prop where
  length : lines.length = instrs.length
  line : ∀ (j : Nat) (i : Instr), instrs[j]? = some i → lines[j]? = some (print i target)

theorem printed_map (print : Printer) (target : Target) (instrs : List Instr) :
    Printed print target instrs (instrs.map fun i => print i target) where
  length := List.length_map ..
  line := by
    intro j i hi
    rw [List.getElem?_map, hi, Option.map_some]

namespace MachineFunction

variable {f : MachineFunction} {print : Printer}

/-! ## Texts -/

@[simp] theorem lister_some (f : MachineFunction) (print : Printer) :
    f.lister (some print) = f.target.map fun target i => print i target := by
  unfold lister
  cases f.target <;> rfl

theorem asm_blockRecord (f : MachineFunction) (printer : Option Printer) (i : Nat) (b : Block) :
    (f.blockRecord printer i b).machine.asm =
      (f.lister printer).map fun list => b.instrs.map list := rfl

/-- Without anything to print with, there are no texts at all. -/
theorem asm_eq_none {printer : Option Printer} (h : f.lister printer = none) :
    ∀ r ∈ f.blockRecords printer, r.machine.asm = none := by
  intro r hr
  obtain ⟨i, b, -, rfl⟩ := mem_blockRecords.1 hr
  rw [asm_blockRecord, h, Option.map_none]

/-- With a printer and a target, the instructions of every block are printed. -/
theorem asm_printed {target : Target} (htarget : f.target = some target) {i : Nat} {b : Block}
    (hb : f.blocks[i]? = some b) :
    ∃ r lines, (f.blockRecords (some print))[i]? = some r ∧ r.machine.asm = some lines ∧
      Printed print target b.instrs lines := by
  refine ⟨_, _, blockRecords_eq_some.2 ⟨b, hb, rfl⟩, ?_, printed_map print target b.instrs⟩
  rw [asm_blockRecord, lister_some, htarget]
  rfl

/-! ## Records and notes -/

theorem withoutAsm_blockRecords (f : MachineFunction) (printer printer' : Option Printer) :
    (f.blockRecords printer).map BlockRecord.withoutAsm =
      (f.blockRecords printer').map BlockRecord.withoutAsm := by
  apply map_blockRecords_eq
  rw [List.forall₂_same]
  intro b _ i
  rfl

@[simp] theorem graphNotes_some (f : MachineFunction) (print : Printer) :
    f.graphNotes (some print) =
      (if f.target = none then [.missingTarget] else []) ++ f.graphNotes none := by
  unfold graphNotes
  cases f.target <;> rfl

/-- A printer adds texts to the records of a function and nothing else: without a printer or without
a target no block has texts, with both every block has one line for each of its instructions, and
the rest of the records is the same. The notes on the graph and on the whole function are the same
too, after one on the target if that is missing. -/
theorem extraction_printed (f : MachineFunction) (print : Printer) :
    (f.blockRecords (some print)).map BlockRecord.withoutAsm =
      (f.blockRecords none).map BlockRecord.withoutAsm ∧
    (∀ r ∈ f.blockRecords none, r.machine.asm = none) ∧
    (f.target = none → ∀ r ∈ f.blockRecords (some print), r.machine.asm = none) ∧
    (∀ target, f.target = some target → ∀ (i : Nat) (b : Block), f.blocks[i]? = some b →
      ∃ r lines, (f.blockRecords (some print))[i]? = some r ∧ r.machine.asm = some lines ∧
        Printed print target b.instrs lines) ∧
    (f.graphNotes (some print) =
      (if f.target = none then [.missingTarget] else []) ++ f.graphNotes none) ∧
    ∀ demangle, (Assembler.mk demangle (some print)).notes f =
      (if f.target = none then [.missingTarget] else []) ++
        (Assembler.mk demangle none).notes f := by
  refine ⟨withoutAsm_blockRecords f _ _, asm_eq_none rfl, ?_, ?_, graphNotes_some f print, ?_⟩
  · intro htarget
    apply asm_eq_none
    rw [lister_some, htarget, Option.map_none]
  · intro target htarget i b hb
    exact asm_printed htarget hb
  · intro demangle
    simp only [Assembler.notes, graphNotes_some, List.append_assoc]

/-- A block with two instructions, of which the target names one, and an empty block. -/
def named : MachineFunction where
  name := "named"
  blocks := [
    { number := 0, symbol := "entry",
      instrs := [{ opcode := 7, flags := 1, operands := ["rbp", "rsp"] }, { opcode := 9 }] },
    { number := 1, symbol := "exit" }]
  target := some { opcodeNames := OpcodeNames.empty.insert 7 "PUSH" }

theorem extraction_printed_named :
    named.target.isSome ∧ doubled.target = none ∧
    (∃ r lines, (named.blockRecords (some Instr.listing))[0]? = some r ∧
      r.machine.asm = some lines ∧ lines.length = 2 ∧
      lines[0]? = some "frame-setup PUSH rbp, rsp" ∧ lines[1]? = some "OPC9") ∧
    (∃ r, (named.blockRecords (some Instr.listing))[1]? = some r ∧ r.machine.asm = some []) ∧
    ∀ r ∈ doubled.blockRecords (some Instr.listing), r.machine.asm = none := by
  obtain ⟨-, -, -, hprinted, -⟩ := extraction_printed named Instr.listing
  obtain ⟨-, -, hmissing, -⟩ := extraction_printed doubled Instr.listing
  obtain ⟨r, lines, hr, hasm, hlines⟩ := hprinted _ rfl 0 _ rfl
  obtain ⟨s, empty, hs, hsasm, hempty⟩ := hprinted _ rfl 1 _ rfl
  obtain rfl : empty = [] := List.length_eq_zero_iff.1 hempty.length
  refine ⟨rfl, rfl, ⟨r, lines, hr, hasm, hlines.length, ?_, ?_⟩, ⟨s, hs, hsasm⟩, hmissing rfl⟩
  · exact (hlines.line 0 _ rfl).trans (by decide)
  · exact (hlines.line 1 _ rfl).trans (by decide)

end MachineFunction

end MachineAtlas
