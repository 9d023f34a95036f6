-- SUMMARY: Records: what is recorded of one machine function.
/-!
# Records

What is recorded of one machine function: a self-contained value whose edges refer to blocks of the
same record.
-/
namespace MachineAtlas

/-- A reference to a block of the same record. -/
structure Edge where
  number : Int32
  symbol : String
  deriving DecidableEq, Repr, Inhabited

/-- A reference to a successor, and whether that is the block placed next. -/
structure Successor where
  number : Int32
  symbol : String
  layoutSuccessor : Bool
  deriving DecidableEq, Repr, Inhabited

structure InstrRecord where
  opcode : UInt32
  frameSetup : Bool
  frameDestroy : Bool
  deriving DecidableEq, Repr, Inhabited

/-- The block that a machine block was made from. -/
structure IrBlock where
  operand : String
  deriving DecidableEq, Repr, Inhabited

/-- What is recorded of a machine block. `asm` are its instructions as text, if they were printed. -/
structure MachineBlock where
  number : Int32
  symbol : String
  canFallthrough : Bool
  endsInReturn : Bool
  isEpilogueSite : Bool
  isPrologueSite : Bool
  addressTaken : Bool
  hasInlineAsm : Bool
  preds : List Edge
  succs : List Successor
  instrs : List InstrRecord
  asm : Option (List String)
  deriving DecidableEq, Repr, Inhabited

structure BlockRecord where
  ir : Option IrBlock
  machine : MachineBlock
  deriving DecidableEq, Repr, Inhabited

structure FrameSummary where
  hasStackObjects : Bool
  hasVariadicObjects : Bool
  isFrameAddressTaken : Bool
  isReturnAddressTaken : Bool
  numObjects : UInt32
  numFixedObjects : UInt32
  stackSize : Int64
  adjustsStack : Bool
  deriving DecidableEq, Repr, Inhabited

structure FunctionRecord where
  operand : String
  name : String
  number : UInt32
  isMangled : Bool
  demangledName : Option String
  frame : FrameSummary
  blocks : List BlockRecord
  deriving DecidableEq, Repr, Inhabited

/-- The names of a module and its source, and their stems: the last parts without extension. -/
structure ModuleSummary where
  moduleName : String
  moduleStem : String
  sourceName : String
  sourceStem : String
  deriving DecidableEq, Repr, Inhabited

structure Record where
  function : FunctionRecord
  owner : Option ModuleSummary
  deriving DecidableEq, Repr, Inhabited

end MachineAtlas
