-- SUMMARY: The blocks of a function that frame code is put into.
import MachineAtlas.Machine.Basic
/-!
# Insertion sites

The blocks that frame code is put into: those that the save and restore points name, or else the
first block in layout order and the blocks that return.
-/
namespace MachineAtlas

structure InsertionSites where
  prologue : Bool
  epilogue : Bool
  deriving DecidableEq, Repr, Inhabited

namespace Frame

/-- The frame is built up in the block at layout position `index`. -/
def isPrologueSite (f : Frame) (b : Block) (index : Nat) : Bool :=
  match f.savePoint with
  | some number => b.number == number
  | none => index == 0

/-- The frame is torn down in the block. -/
def isEpilogueSite (f : Frame) (b : Block) : Bool :=
  match f.restorePoint with
  | some number => b.number == number
  | none => b.isReturnBlock

def sites (f : Frame) (b : Block) (index : Nat) : InsertionSites where
  prologue := f.isPrologueSite b index
  epilogue := f.isEpilogueSite b

end Frame

end MachineAtlas
