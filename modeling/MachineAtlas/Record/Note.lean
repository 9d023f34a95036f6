-- SUMMARY: Notes on what a record leaves out, and their messages.
/-!
# Notes

What a record leaves out of its function, and why. A note is not an error: the record is complete
without the piece that the note names.
-/
namespace MachineAtlas

/-- The two ends of an edge, seen from a block. -/
inductive Side where
  | predecessor
  | successor
  deriving DecidableEq, Repr, Inhabited

def Side.name : Side → String
  | .predecessor => "predecessor"
  | .successor => "successor"

inductive Note where
  | missingTarget
  | missingIrBlock (block : Int32)
  | nullEdge (side : Side) (position : Nat) (block : Int32)
  | danglingEdge (side : Side) (target block : Int32)
  | missingOperand
  | missingModule
  deriving DecidableEq, Repr, Inhabited

def numberText (n : Int32) : String := toString n.toInt

def Note.message : Note → String
  | .missingTarget => "no target description for this function; omitting instruction text"
  | .missingIrBlock block =>
    "no IR block for machine block " ++ numberText block ++ "; emitting partial record"
  | .nullEdge side position block =>
    "null " ++ side.name ++ " at position " ++ toString position ++ " of machine block " ++
      numberText block ++ "; skipping"
  | .danglingEdge side target block =>
    side.name ++ " " ++ numberText target ++ " of machine block " ++ numberText block ++
      " is not in this function; skipping"
  | .missingOperand => "no IR function operand; deriving it from the linkage name"
  | .missingModule => "no owning module; omitting module summary"

end MachineAtlas
