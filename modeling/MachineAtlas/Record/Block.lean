-- SUMMARY: The records of blocks, their edges and flags, and the notes on what is left out.
import MachineAtlas.Listing
import MachineAtlas.Operand
import MachineAtlas.Record.Basic
import MachineAtlas.Record.Note
import MachineAtlas.Sites
/-!
# Block records

The record of each block of a function, in layout order, and the notes on what is left out. An edge
is kept if it names a block of the function; null edges and edges to unknown blocks are dropped.
-/
namespace MachineAtlas

/-! ## Parts of a block -/

/-- The block that a block was made from, named as code refers to it. -/
def Block.irRecord (b : Block) : Option IrBlock :=
  b.irLabel.map fun label => { operand := Operand.block label }

def Instr.toRecord (i : Instr) : InstrRecord where
  opcode := i.opcode
  frameSetup := i.isFrameSetup
  frameDestroy := i.isFrameDestroy

namespace MachineFunction

/-! ## Edges -/

/-- The blocks that edges lead to, without the edges that lead nowhere. -/
def resolve (f : MachineFunction) (edges : List (Option Int32)) : List Block :=
  edges.filterMap fun edge => edge.bind f.block?

/-- The note on one edge of a block, if the edge is dropped. -/
def edgeNote? (f : MachineFunction) (side : Side) (block : Int32) (position : Nat) :
    Option Int32 → Option Note
  | none => some (.nullEdge side position block)
  | some target =>
    if (f.block? target).isSome then none else some (.danglingEdge side target block)

/-- The notes on the edges of a block from a position on. -/
def edgeNotes (f : MachineFunction) (side : Side) (block : Int32) (position : Nat) :
    List (Option Int32) → List Note
  | [] => []
  | edge :: rest =>
    (f.edgeNote? side block position edge).toList ++ f.edgeNotes side block (position + 1) rest

/-! ## Blocks -/

/-- Whether a block has the number of the block placed after a position. -/
def isLayoutSuccessor (f : MachineFunction) (index : Nat) (b : Block) : Bool :=
  (f.layoutSuccessor? index).any fun next => next.number == b.number

def succRecords (f : MachineFunction) (index : Nat) (b : Block) : List Successor :=
  (f.resolve b.succs).map fun target =>
    { number := target.number, symbol := target.symbol,
      layoutSuccessor := f.isLayoutSuccessor index target }

def predRecords (f : MachineFunction) (b : Block) : List Edge :=
  (f.resolve b.preds).map fun target => { number := target.number, symbol := target.symbol }

/-- The printer together with the target it prints for, if there are both. -/
def lister (f : MachineFunction) (printer : Option Printer) : Option (Instr → String) := do
  let print ← printer
  let target ← f.target
  pure fun i => print i target

/-- The record of the block at a layout position. Control falls through only along an edge to the
next block. -/
def blockRecord (f : MachineFunction) (printer : Option Printer) (index : Nat) (b : Block) :
    BlockRecord where
  ir := b.irRecord
  machine :=
    { number := b.number
      symbol := b.symbol
      canFallthrough := b.endsOpen && (f.succRecords index b).any Successor.layoutSuccessor
      endsInReturn := b.isReturnBlock
      isEpilogueSite := (f.frame.sites b index).epilogue
      isPrologueSite := (f.frame.sites b index).prologue
      addressTaken := b.addressTaken
      hasInlineAsm := b.instrs.any Instr.isInlineAsm
      preds := f.predRecords b
      succs := f.succRecords index b
      instrs := b.instrs.map Instr.toRecord
      asm := (f.lister printer).map fun list => b.instrs.map list }

/-- The notes on one block. -/
def blockNotes (f : MachineFunction) (b : Block) : List Note :=
  (if b.irLabel.isNone then [.missingIrBlock b.number] else []) ++
  f.edgeNotes .predecessor b.number 0 b.preds ++
  f.edgeNotes .successor b.number 0 b.succs

/-! ## Functions -/

/-- The records of all blocks in layout order. -/
def blockRecords (f : MachineFunction) (printer : Option Printer) : List BlockRecord :=
  f.blocks.mapIdx (f.blockRecord printer)

/-- The notes on all blocks. Instructions are not printed without a target. -/
def graphNotes (f : MachineFunction) (printer : Option Printer) : List Note :=
  (if printer.isSome && f.target.isNone then [.missingTarget] else []) ++
  f.blocks.flatMap f.blockNotes

end MachineFunction

end MachineAtlas
