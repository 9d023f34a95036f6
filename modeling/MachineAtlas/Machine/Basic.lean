-- SUMMARY: Machine functions: blocks, edges, instructions, frames, modules and targets.
/-!
# Machine functions

What is known of a compiled function: its blocks in layout order with their instructions and edges,
its stack frame, the module that owns it and the target that names its opcodes. A part that may be
unknown is an option; an edge without a target is a null edge.
-/
namespace MachineAtlas

/-! ## Instructions -/

/-- What an instruction does to the flow of control. -/
inductive InstrKind where
  | plain
  | call
  | branch
  | condBranch
  | indirectBranch
  | ret
  | trap
  | inlineAsm
  deriving DecidableEq, Repr, Inhabited

/-- After a barrier control never goes on to the next instruction. -/
def InstrKind.isBarrier : InstrKind → Bool
  | .branch | .indirectBranch | .ret | .trap => true
  | .plain | .call | .condBranch | .inlineAsm => false

/-- An instruction. `operands` are the texts of its operands. -/
structure Instr where
  opcode : UInt32
  flags : UInt32 := 0
  kind : InstrKind := .plain
  operands : List String := []
  deriving DecidableEq, Repr, Inhabited

namespace Instr

def setupFlag : UInt32 := 1

def destroyFlag : UInt32 := 2

/-- The instruction builds up the frame. -/
def isFrameSetup (i : Instr) : Bool := i.flags &&& setupFlag != 0

/-- The instruction tears down the frame. -/
def isFrameDestroy (i : Instr) : Bool := i.flags &&& destroyFlag != 0

def isInlineAsm (i : Instr) : Bool := i.kind == .inlineAsm

end Instr

/-! ## Blocks -/

/-- A basic block. `irLabel` is the label of the block it was made from, and `preds` and `succs`
are the numbers of its neighbours. -/
structure Block where
  number : Int32
  symbol : String
  irLabel : Option String := none
  addressTaken : Bool := false
  instrs : List Instr := []
  preds : List (Option Int32) := []
  succs : List (Option Int32) := []
  deriving DecidableEq, Repr, Inhabited

namespace Block

/-- The block ends in a return. -/
def isReturnBlock (b : Block) : Bool := b.instrs.getLast?.any fun i => i.kind == .ret

/-- Control can reach the end of the block: it is empty or does not end in a barrier. -/
def endsOpen (b : Block) : Bool := b.instrs.getLast?.all fun i => ! i.kind.isBarrier

end Block

/-! ## Frames -/

/-- An object in the stack frame. Without a size it is of variable size, and a fixed one has its
place from the calling convention. -/
structure StackObject where
  offset : Int64 := 0
  size : Option UInt64 := none
  fixed : Bool := false
  deriving DecidableEq, Repr, Inhabited

/-- A stack frame. `savePoint` and `restorePoint` are the numbers of the blocks that frame code was
moved to, if it was moved. -/
structure Frame where
  objects : List StackObject := []
  frameAddressTaken : Bool := false
  returnAddressTaken : Bool := false
  stackSize : UInt64 := 0
  adjustsStack : Bool := false
  savePoint : Option Int32 := none
  restorePoint : Option Int32 := none
  deriving DecidableEq, Repr, Inhabited

/-! ## Modules and targets -/

structure OwningModule where
  name : String
  sourceFile : String := ""
  deriving DecidableEq, Repr, Inhabited

/-- Names of opcodes, in ascending order of the opcodes. -/
structure OpcodeNames where
  entries : List (UInt32 × String)
  ascending : entries.Pairwise (fun a b => a.1 < b.1)
  deriving DecidableEq, Repr

namespace OpcodeNames

def empty : OpcodeNames := ⟨[], .nil⟩

instance : Inhabited OpcodeNames := ⟨empty⟩

/-- Names an opcode in an ascending list, in place of the name it may have. -/
def insertEntry (opcode : UInt32) (name : String) : List (UInt32 × String) → List (UInt32 × String)
  | [] => [(opcode, name)]
  | (o, n) :: rest =>
    if opcode < o then (opcode, name) :: (o, n) :: rest
    else if opcode = o then (opcode, name) :: rest
    else (o, n) :: insertEntry opcode name rest

theorem mem_insertEntry {opcode : UInt32} {name : String} {l : List (UInt32 × String)}
    {e : UInt32 × String} (h : e ∈ insertEntry opcode name l) : e = (opcode, name) ∨ e ∈ l := by
  induction l with
  | nil => simpa [insertEntry] using h
  | cons head rest ih =>
    obtain ⟨o, n⟩ := head
    unfold insertEntry at h
    split at h
    · simpa using h
    · split at h
      · rcases List.mem_cons.1 h with h | h
        · exact .inl h
        · exact .inr (List.mem_cons_of_mem _ h)
      · rcases List.mem_cons.1 h with h | h
        · exact .inr (h ▸ List.mem_cons_self)
        · exact (ih h).imp_right (List.mem_cons_of_mem _)

theorem pairwise_insertEntry (opcode : UInt32) (name : String) {l : List (UInt32 × String)}
    (h : l.Pairwise (fun a b => a.1 < b.1)) :
    (insertEntry opcode name l).Pairwise (fun a b => a.1 < b.1) := by
  induction l with
  | nil => simp [insertEntry]
  | cons head rest ih =>
    obtain ⟨o, n⟩ := head
    obtain ⟨hhead, hrest⟩ := List.pairwise_cons.1 h
    unfold insertEntry
    split
    · rename_i hlt
      refine List.pairwise_cons.2 ⟨fun e he => ?_, h⟩
      rcases List.mem_cons.1 he with he | he
      · exact he ▸ hlt
      · exact UInt32.lt_trans hlt (hhead e he)
    · split
      · rename_i heq
        exact List.pairwise_cons.2 ⟨fun e he => heq ▸ hhead e he, hrest⟩
      · rename_i hge hne
        refine List.pairwise_cons.2 ⟨fun e he => ?_, ih hrest⟩
        rcases mem_insertEntry he with he | he
        · subst he
          exact UInt32.lt_of_le_of_ne (UInt32.not_lt.1 hge) (Ne.symm hne)
        · exact hhead e he

/-- Names an opcode, in place of the name it may have. -/
def insert (names : OpcodeNames) (opcode : UInt32) (name : String) : OpcodeNames :=
  ⟨insertEntry opcode name names.entries, pairwise_insertEntry opcode name names.ascending⟩

def get? (names : OpcodeNames) (opcode : UInt32) : Option String := names.entries.lookup opcode

end OpcodeNames

structure Target where
  triple : String := ""
  opcodeNames : OpcodeNames := .empty
  deriving DecidableEq, Repr, Inhabited

/-- The name of an opcode. -/
def Target.mnemonic (t : Target) (opcode : UInt32) : Option String := t.opcodeNames.get? opcode

/-! ## Functions -/

/-- A compiled function. `name` is its linkage name, `number` its ordinal in the module, `operand`
the text by which code refers to it, and `blocks` are in layout order. -/
structure MachineFunction where
  name : String
  number : UInt32 := 0
  operand : Option String := none
  frame : Frame := {}
  blocks : List Block := []
  owner : Option OwningModule := none
  target : Option Target := none
  deriving DecidableEq, Repr, Inhabited

namespace MachineFunction

/-- The first block with a number. -/
def block? (f : MachineFunction) (number : Int32) : Option Block :=
  f.blocks.find? fun b => b.number == number

/-- The block placed after the one at a position. -/
def layoutSuccessor? (f : MachineFunction) (index : Nat) : Option Block := f.blocks[index + 1]?

end MachineFunction

end MachineAtlas
