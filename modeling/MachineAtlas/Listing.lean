-- SUMMARY: Instructions as text.
import MachineAtlas.Machine.Basic
/-!
# Listings

Instructions as text.
-/
namespace MachineAtlas

/-- A printer gives the text of an instruction of a target. -/
abbrev Printer := Instr → Target → String

/-- The name of the opcode, or its number where the target has no name for it. -/
def Instr.mnemonic (i : Instr) (t : Target) : String :=
  match t.mnemonic i.opcode with
  | some name => name
  | none => "OPC" ++ toString i.opcode.toNat

/-- The marks of frame code, the mnemonic and the operands. -/
def Instr.listing (i : Instr) (t : Target) : String :=
  (if i.isFrameSetup then "frame-setup " else "") ++
  (if i.isFrameDestroy then "frame-destroy " else "") ++
  i.mnemonic t ++
  (if i.operands.isEmpty then "" else " " ++ ", ".intercalate i.operands)

/-- A printer that gives the parts of an instruction under a tag: opcode, name and operand count. -/
def Printer.tagged (tag : String) : Printer := fun i t =>
  "|".intercalate
    [tag, toString i.opcode.toNat, (t.mnemonic i.opcode).getD "?", toString i.operands.length]

end MachineAtlas
