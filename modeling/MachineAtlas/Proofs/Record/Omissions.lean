-- SUMMARY: The notes on a function say all that its record leaves out, and nothing else.
import MachineAtlas.Engine
import MachineAtlas.Proofs.Record.Graph
import MachineAtlas.Proofs.Record.Note
/-!
# What a record leaves out

The notes on a function say all that its record leaves out, and nothing else: one note for each
entry that leads nowhere, in the order of the entries, and one for each piece that the function does
not have. Without notes the record is whole.
-/
namespace MachineAtlas

namespace MachineFunction

/-! ## Dropped entries -/

/-- The entry is null, or no block has the number that it names. -/
def Drops (f : MachineFunction) (entry : Option Int32) : Prop :=
  ∀ b ∈ f.blocks, entry ≠ some b.number

instance (f : MachineFunction) : DecidablePred f.Drops := fun entry =>
  inferInstanceAs (Decidable (∀ b ∈ f.blocks, entry ≠ some b.number))

variable {f : MachineFunction}

theorem drops_none (f : MachineFunction) : f.Drops none := by simp [Drops]

theorem drops_some {number : Int32} : f.Drops (some number) ↔ f.block? number = none := by
  rw [block?_eq_none, Drops]
  simp [eq_comm]

/-- The note on a dropped entry, which stands at a position. -/
def dropNote (side : Side) (block : Int32) : Option Int32 × Nat → Note
  | (none, position) => .nullEdge side position block
  | (some target, _) => .danglingEdge side target block

/-- One note for each dropped entry, in order. -/
def dropNotes (f : MachineFunction) (side : Side) (block : Int32) (entries : List (Option Int32)) :
    List Note :=
  (entries.zipIdx.filter fun e => f.Drops e.1).map (dropNote side block)

theorem edgeNote?_eq (f : MachineFunction) (side : Side) (block : Int32) (position : Nat)
    (entry : Option Int32) : f.edgeNote? side block position entry =
      if f.Drops entry then some (dropNote side block (entry, position)) else none := by
  rcases entry with _ | number
  · rw [if_pos (drops_none f)]
    rfl
  · cases h : f.block? number <;> simp [edgeNote?, drops_some, h, dropNote]

theorem edgeNotes_eq (f : MachineFunction) (side : Side) (block : Int32)
    (entries : List (Option Int32)) :
    f.edgeNotes side block 0 entries = f.dropNotes side block entries := by
  suffices hfrom : ∀ position, f.edgeNotes side block position entries =
      ((entries.zipIdx position).filter fun e => f.Drops e.1).map (dropNote side block) from
    hfrom 0
  induction entries with
  | nil => exact fun _ => rfl
  | cons entry entries ih =>
      intro position
      rw [edgeNotes, edgeNote?_eq, ih, List.zipIdx_cons, List.filter_cons]
      by_cases hentry : f.Drops entry <;> simp [hentry]

theorem length_dropNotes (f : MachineFunction) (side : Side) (block : Int32)
    (entries : List (Option Int32)) :
    (f.dropNotes side block entries).length = (entries.filter (f.Drops ·)).length := by
  have hentries : entries.filter (f.Drops ·) =
      (entries.zipIdx.filter fun e => f.Drops e.1).map Prod.fst := by
    conv_lhs => rw [← List.zipIdx_map_fst 0 entries, List.filter_map]
    rfl
  rw [hentries, dropNotes, List.length_map, List.length_map]

/-- The entries that are not dropped are those that lead to a block. -/
theorem map_resolve (f : MachineFunction) (entries : List (Option Int32)) :
    (f.resolve entries).map (some ·.number) = entries.filter (¬ f.Drops ·) := by
  rw [resolve, List.map_filterMap, ← List.filterMap_eq_filter]
  refine List.filterMap_congr fun entry _ => ?_
  rcases entry with _ | number
  · simp [Option.guard, drops_none]
  · cases hblock : f.block? number with
    | none => simp [Option.guard, drops_some, hblock]
    | some t => simp [Option.guard, drops_some, hblock, (block?_eq_some hblock).2]

/-- Every entry is kept or has a note. -/
theorem length_resolve (f : MachineFunction) (side : Side) (block : Int32)
    (entries : List (Option Int32)) :
    (f.resolve entries).length + (f.dropNotes side block entries).length = entries.length := by
  have hkept := congrArg List.length (f.map_resolve entries)
  rw [List.length_map] at hkept
  have hsplit := List.length_eq_length_filter_add (l := entries) (f.Drops ·)
  simp only [decide_not] at hkept
  rw [hkept, length_dropNotes, Nat.add_comm, ← hsplit]

theorem dropNotes_eq_nil {side : Side} {block : Int32} {entries : List (Option Int32)} :
    f.dropNotes side block entries = [] ↔ (f.resolve entries).map (some ·.number) = entries := by
  rw [map_resolve, List.filter_eq_self, ← List.length_eq_zero_iff, length_dropNotes,
    List.length_eq_zero_iff, List.filter_eq_nil_iff]
  simp

end MachineFunction

/-! ## Whole records -/

/-- The record of a block has all of the block: what it was made from, and all its entries. -/
@[mk_iff]
structure BlockRecord.Whole (b : Block) (r : BlockRecord) : Prop where
  ir : r.ir.isSome
  preds : r.machine.preds.map (some ·.number) = b.preds
  succs : r.machine.succs.map (some ·.number) = b.succs

namespace MachineFunction

variable {f : MachineFunction}

theorem whole_blockRecord {printer : Option Printer} {i : Nat} {b : Block} :
    (f.blockRecord printer i b).Whole b ↔ b.irLabel.isSome ∧
      (f.resolve b.preds).map (some ·.number) = b.preds ∧
      (f.resolve b.succs).map (some ·.number) = b.succs := by
  have hir : (f.blockRecord printer i b).ir.isSome = b.irLabel.isSome := Option.isSome_map
  have hpreds : (f.blockRecord printer i b).machine.preds.map (some ·.number) =
      (f.resolve b.preds).map (some ·.number) := List.map_map
  have hsuccs : (f.blockRecord printer i b).machine.succs.map (some ·.number) =
      (f.resolve b.succs).map (some ·.number) := List.map_map
  rw [BlockRecord.whole_iff, hir, hpreds, hsuccs]

theorem blockNotes_eq (f : MachineFunction) (b : Block) :
    f.blockNotes b = (if b.irLabel = none then [.missingIrBlock b.number] else []) ++
      f.dropNotes .predecessor b.number b.preds ++ f.dropNotes .successor b.number b.succs := by
  simp only [blockNotes, edgeNotes_eq, Option.isNone_iff_eq_none]

/-- A block has no notes exactly if its record is whole. -/
theorem blockNotes_eq_nil {printer : Option Printer} {i : Nat} {b : Block} :
    f.blockNotes b = [] ↔ (f.blockRecord printer i b).Whole b := by
  rw [blockNotes_eq, List.append_eq_nil_iff, List.append_eq_nil_iff, dropNotes_eq_nil,
    dropNotes_eq_nil, whole_blockRecord, and_assoc]
  cases b.irLabel <;> simp

/-- No block has notes exactly if all records are whole. -/
theorem whole_blockRecords (f : MachineFunction) (printer : Option Printer) :
    (∀ b ∈ f.blocks, f.blockNotes b = []) ↔ ∀ (i : Nat) (b : Block) (r : BlockRecord),
      f.blocks[i]? = some b → (f.blockRecords printer)[i]? = some r → r.Whole b := by
  constructor
  · intro hnone i b r hb hr
    obtain rfl := eq_blockRecord hb hr
    exact blockNotes_eq_nil.1 (hnone b (List.mem_of_getElem? hb))
  · intro hwhole b hb
    obtain ⟨i, hi⟩ := List.mem_iff_getElem?.1 hb
    exact blockNotes_eq_nil.2 (hwhole i b _ hi (blockRecords_eq_some.2 ⟨b, hi, rfl⟩))

/-- Every entry of a block is in its record or has a note. -/
theorem length_edges {printer : Option Printer} {i : Nat} {b : Block} {r : BlockRecord}
    (hb : f.blocks[i]? = some b) (hr : (f.blockRecords printer)[i]? = some r) :
    r.machine.preds.length + (f.dropNotes .predecessor b.number b.preds).length =
        b.preds.length ∧
      r.machine.succs.length + (f.dropNotes .successor b.number b.succs).length =
        b.succs.length := by
  obtain rfl := eq_blockRecord hb hr
  rw [← f.length_resolve .predecessor b.number b.preds,
    ← f.length_resolve .successor b.number b.succs, blockRecord, predRecords, succRecords,
    List.length_map, List.length_map]
  exact ⟨rfl, rfl⟩

/-- There are no notes exactly if nothing is left out. -/
theorem notes_eq_nil (a : Assembler) (f : MachineFunction) :
    a.notes f = [] ↔ (a.printer.isSome → f.target.isSome) ∧
      (∀ (i : Nat) (b : Block) (r : BlockRecord),
        f.blocks[i]? = some b → (a.record f).function.blocks[i]? = some r → r.Whole b) ∧
      f.operand = some (a.record f).function.operand ∧ (a.record f).owner.isSome := by
  have htarget : (if a.printer.isSome && f.target.isNone then [Note.missingTarget] else []) = [] ↔
      (a.printer.isSome → f.target.isSome) := by
    cases a.printer <;> cases f.target <;> simp
  have hoperand : (if f.operand.isNone then [Note.missingOperand] else []) = [] ↔
      f.operand = some (a.record f).function.operand := by
    cases h : f.operand <;> simp [h]
  have howner : (if f.owner.isNone then [Note.missingModule] else []) = [] ↔
      (a.record f).owner.isSome := by
    cases h : f.owner <;> simp [h]
  rw [Assembler.notes, graphNotes, List.append_eq_nil_iff, List.append_eq_nil_iff,
    List.append_eq_nil_iff, List.flatMap_eq_nil_iff, htarget, hoperand, howner,
    f.whole_blockRecords a.printer, and_assoc, and_assoc]
  rfl

/-- The notes on a function name all that its record leaves out, in order: that there is no target
to print for, block by block that there is nothing it was made from and which of its entries lead
nowhere, then that the function or its module has no name. So every entry is in the record or has a
note, and there are no notes exactly if nothing is left out. -/
theorem notes_account (e : Engine) (f : MachineFunction) :
    let notes := e.assembler.notes f
    let record := e.assembler.record f
    notes =
      (if e.config.prettyPrintInstrs ∧ f.target = none then [Note.missingTarget] else []) ++
      f.blocks.flatMap (fun b =>
        (if b.irLabel = none then [Note.missingIrBlock b.number] else []) ++
        f.dropNotes Side.predecessor b.number b.preds ++ f.dropNotes Side.successor b.number b.succs) ++
      (if f.operand = none then [Note.missingOperand] else []) ++
      (if f.owner = none then [Note.missingModule] else []) ∧
    (∀ (i : Nat) (b : Block) (r : BlockRecord),
      f.blocks[i]? = some b → record.function.blocks[i]? = some r →
      r.machine.preds.length + (f.dropNotes Side.predecessor b.number b.preds).length =
        b.preds.length ∧
      r.machine.succs.length + (f.dropNotes Side.successor b.number b.succs).length =
        b.succs.length) ∧
    (notes = [] ↔ (e.config.prettyPrintInstrs → f.target.isSome) ∧
      (∀ (i : Nat) (b : Block) (r : BlockRecord),
        f.blocks[i]? = some b → record.function.blocks[i]? = some r → r.Whole b) ∧
      f.operand = some record.function.operand ∧ record.owner.isSome) ∧
    Function.Injective Note.message := by
  intro notes record
  have hprinter : e.assembler.printer.isSome = e.config.prettyPrintInstrs := by
    unfold Engine.assembler
    cases e.config.prettyPrintInstrs <;> rfl
  refine ⟨?_, fun i b r hb hr => length_edges hb hr, ?_, Note.message_injective⟩
  · have hblocks : f.blockNotes = fun b => _ := funext f.blockNotes_eq
    simp only [notes, Assembler.notes, graphNotes, hprinter, hblocks, Bool.and_eq_true,
      Option.isNone_iff_eq_none]
  · rw [← hprinter]
    exact notes_eq_nil e.assembler f

/-- A block that names itself, a block that is not there, and none, in a run that prints. -/
def frayed : MachineFunction where
  name := "frayed"
  blocks := [{ number := 3, symbol := "only", preds := [none, some 3, some 8], succs := [some 3] }]

def printing : Engine where
  config := { prettyPrintInstrs := true }
  streams? := none
  demangle := fun _ => none
  printer := fun _ _ => ""
  summary := {}

theorem notes_account_frayed :
    printing.assembler.notes frayed = [.missingTarget, .missingIrBlock 3,
      .nullEdge .predecessor 0 3, .danglingEdge .predecessor 8 3, .missingOperand,
      .missingModule] ∧
    ∃ b r, frayed.blocks[0]? = some b ∧
      (printing.assembler.record frayed).function.blocks[0]? = some r ∧
      r.machine.preds.length + (frayed.dropNotes .predecessor b.number b.preds).length =
        b.preds.length := by
  obtain ⟨hnotes, hlength, -⟩ := notes_account printing frayed
  exact ⟨hnotes.trans (by decide), _, _, rfl, rfl, (hlength 0 _ _ rfl rfl).1⟩

end MachineFunction

end MachineAtlas
