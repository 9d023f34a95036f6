-- SUMMARY: What a record says of a block does not depend on its place, but for three fields.
import MachineAtlas.Proofs.Record.Comparison
/-!
# Placement

What a record says of a block does not depend on where the blocks are placed, but for three things:
whether control falls through, which successor is placed next, and, in a frame without save point,
whether the block is the first one. This rests on the numbers of blocks being different: a number
then leads to the same block in every order.
-/
namespace MachineAtlas

/-! ## Records without places -/

/-- The record without what depends on the place of its block. A save point says where the frame is
built up in any order. -/
def BlockRecord.placeless (frame : Frame) (r : BlockRecord) : BlockRecord :=
  { r with
    machine := { r.machine with
      canFallthrough := false
      isPrologueSite := frame.savePoint.isSome && r.machine.isPrologueSite
      succs := r.machine.succs.map fun s => { s with layoutSuccessor := false } } }

theorem BlockRecord.reference_placeless (frame : Frame) (r : BlockRecord) :
    (r.placeless frame).machine.succs.map Successor.reference =
      r.machine.succs.map Successor.reference := by
  simp only [placeless, List.map_map]
  rfl

theorem Frame.isPrologueSite_saved (frame : Frame) (b : Block) (i j : Nat) :
    (frame.savePoint.isSome && frame.isPrologueSite b j) =
      (frame.savePoint.isSome && frame.isPrologueSite b i) := by
  unfold isPrologueSite
  cases frame.savePoint <;> rfl

namespace MachineFunction

/-- The function with its blocks placed otherwise. -/
def withBlocks (f : MachineFunction) (blocks : List Block) : MachineFunction := { f with blocks }

variable {f g : MachineFunction} {b : Block} {printer : Option Printer}

/-! ## Blocks with numbers of their own -/

theorem block?_eq_some_iff (hown : (f.blocks.map Block.number).Nodup) {number : Int32} :
    f.block? number = some b ↔ b ∈ f.blocks ∧ b.number = number := by
  constructor
  · exact block?_eq_some
  · rintro ⟨hb, rfl⟩
    exact block?_of_count_eq_one hb (List.count_eq_one_of_mem hown (List.mem_map_of_mem hb))

/-- A number leads to the same block in every order. -/
theorem block?_withBlocks (hown : (f.blocks.map Block.number).Nodup) {blocks : List Block}
    (hperm : blocks.Perm f.blocks) : (f.withBlocks blocks).block? = f.block? := by
  have hown' : ((f.withBlocks blocks).blocks.map Block.number).Nodup :=
    (hperm.map Block.number).nodup_iff.2 hown
  funext number
  apply Option.ext
  intro b
  rw [block?_eq_some_iff hown', block?_eq_some_iff hown]
  exact and_congr_left fun _ => hperm.mem_iff

theorem reference?_withBlocks (hown : (f.blocks.map Block.number).Nodup) {blocks : List Block}
    (hperm : blocks.Perm f.blocks) : (f.withBlocks blocks).reference? = f.reference? := by
  unfold reference?
  rw [block?_withBlocks hown hperm]

/-! ## Records and notes -/

/-- The record of a block is made from what numbers lead to, from the frame and from the target, and
from the place of the block only where it says so. -/
theorem placeless_blockRecord (hlookup : g.reference? = f.reference?) (hframe : g.frame = f.frame)
    (htarget : g.target = f.target) (printer : Option Printer) (i j : Nat) (b : Block) :
    (g.blockRecord printer j b).placeless f.frame =
      (f.blockRecord printer i b).placeless f.frame := by
  have hpreds : g.predRecords b = f.predRecords b := by
    rw [predRecords_eq, predRecords_eq, hlookup]
  have hsuccs : ((g.succRecords j b).map fun s => { s with layoutSuccessor := false }) =
      (f.succRecords i b).map fun s => { s with layoutSuccessor := false } := by
    rw [succRecords_eq, succRecords_eq, hlookup, List.map_map, List.map_map]
    rfl
  have hlister : g.lister printer = f.lister printer := by
    unfold lister
    rw [htarget]
  simp only [BlockRecord.placeless, blockRecord, Frame.sites, hframe, hpreds, hsuccs, hlister,
    f.frame.isPrologueSite_saved b i j]

/-- The records of one block in two orders tell the same of it. -/
theorem placeless_eq_of_number (hown : (f.blocks.map Block.number).Nodup) {blocks : List Block}
    (hperm : blocks.Perm f.blocks) {r s : BlockRecord} (hr : r ∈ f.blockRecords printer)
    (hs : s ∈ (f.withBlocks blocks).blockRecords printer)
    (hnumber : s.machine.number = r.machine.number) :
    s.placeless f.frame = r.placeless f.frame := by
  obtain ⟨i, b, hb, rfl⟩ := mem_blockRecords.1 hr
  obtain ⟨j, c, hc, rfl⟩ := mem_blockRecords.1 hs
  have hcb : c = b := by
    apply List.inj_on_of_nodup_map hown
    · exact hperm.mem_iff.1 (List.mem_of_getElem? hc)
    · exact List.mem_of_getElem? hb
    · exact hnumber
  subst hcb
  exact placeless_blockRecord (reference?_withBlocks hown hperm) rfl rfl printer i j c

theorem placeless_perm (hown : (f.blocks.map Block.number).Nodup) {blocks : List Block}
    (hperm : blocks.Perm f.blocks) (printer : Option Printer) :
    (((f.withBlocks blocks).blockRecords printer).map (·.placeless f.frame)).Perm
      ((f.blockRecords printer).map (·.placeless f.frame)) := by
  -- The records of both orders are compared with those that their blocks would have in front.
  have hplace (i : Nat) (b : Block) : ((f.withBlocks blocks).blockRecord printer i b).placeless
      f.frame = (f.blockRecord printer 0 b).placeless f.frame :=
    placeless_blockRecord (reference?_withBlocks hown hperm) rfl rfl printer 0 i b
  have hself (i : Nat) (b : Block) : (f.blockRecord printer i b).placeless f.frame =
      (f.blockRecord printer 0 b).placeless f.frame :=
    placeless_blockRecord rfl rfl rfl printer 0 i b
  rw [map_blockRecords hplace, map_blockRecords hself]
  exact hperm.map _

theorem notes_perm (a : Assembler) (hown : (f.blocks.map Block.number).Nodup) {blocks : List Block}
    (hperm : blocks.Perm f.blocks) : (a.notes (f.withBlocks blocks)).Perm (a.notes f) := by
  have hnotes := blockNotes_congr (reference?_withBlocks hown hperm)
  simp only [Assembler.notes, graphNotes, hnotes]
  exact (((hperm.flatMap_right f.blockNotes).append_left _).append_right _).append_right _

/-- Where the blocks of a function have numbers of their own, each is recorded alike in every order
of the blocks: the records are the same up to order, and the records with one number are equal, but
for what is said of the next block and, without a save point, of the first one. So the edges keep
their numbers and symbols and the frame is torn down in the same blocks, and the notes are the same
up to order. -/
theorem record_withBlocks (a : Assembler) (f : MachineFunction) (blocks : List Block)
    (hown : (f.blocks.map Block.number).Nodup) (hperm : blocks.Perm f.blocks) :
    let records := (a.record f).function.blocks
    let placed := (a.record (f.withBlocks blocks)).function.blocks
    (placed.map (·.placeless f.frame)).Perm (records.map (·.placeless f.frame)) ∧
    (∀ r ∈ records, ∀ s ∈ placed, s.machine.number = r.machine.number →
      s.placeless f.frame = r.placeless f.frame ∧
      s.machine.preds = r.machine.preds ∧
      s.machine.succs.map Successor.reference = r.machine.succs.map Successor.reference ∧
      s.machine.isEpilogueSite = r.machine.isEpilogueSite) ∧
    (a.notes (f.withBlocks blocks)).Perm (a.notes f) := by
  intro records placed
  refine ⟨placeless_perm hown hperm a.printer, ?_, notes_perm a hown hperm⟩
  intro r hr s hs hnumber
  have heq := placeless_eq_of_number hown hperm hr hs hnumber
  refine ⟨heq, congrArg (·.machine.preds) heq, ?_, congrArg (·.machine.isEpilogueSite) heq⟩
  rw [← s.reference_placeless f.frame, ← r.reference_placeless f.frame, heq]

/-- The body of the loop falls through to the exit, but not if the blocks are placed backwards. -/
theorem record_withBlocks_selfLoop :
    let a : Assembler := ⟨fun _ => none, none⟩
    let backwards := selfLoop.withBlocks selfLoop.blocks.reverse
    (selfLoop.blocks.map Block.number).Nodup ∧ selfLoop.blocks.reverse.Perm selfLoop.blocks ∧
    ∃ r s, (a.record selfLoop).function.blocks[1]? = some r ∧
      (a.record backwards).function.blocks[1]? = some s ∧
      r.machine.canFallthrough = true ∧ s.machine.canFallthrough = false ∧
      s.placeless selfLoop.frame = r.placeless selfLoop.frame ∧
      (a.notes backwards).Perm (a.notes selfLoop) := by
  intro a backwards
  have hown : (selfLoop.blocks.map Block.number).Nodup := by decide
  have hperm : selfLoop.blocks.reverse.Perm selfLoop.blocks := List.reverse_perm _
  obtain ⟨-, hsame, hnotes⟩ := record_withBlocks a selfLoop _ hown hperm
  refine ⟨hown, hperm, _, _, rfl, rfl, by decide, by decide, ?_, hnotes⟩
  exact (hsame _ (List.mem_of_getElem? (i := 1) rfl) _ (List.mem_of_getElem? (i := 1) rfl) rfl).1

end MachineFunction

end MachineAtlas
