-- SUMMARY: The flags of a record never contradict each other or the places of its blocks.
import MachineAtlas.Proofs.Record.Comparison
/-!
# Consistent records

What the flags of a record have to do with each other. They are found by looks at different things,
the layout, the last instruction of a block and the points that frame code was moved to, but a reader
who has the record alone never sees them contradict each other or the places of the blocks.
-/
namespace MachineAtlas

/-! ## What agrees -/

/-- The flags of a block agree with each other and with its place among all blocks. -/
structure MachineBlock.Coheres (m : MachineBlock) (index count : Nat) : Prop where
  not_returns : m.canFallthrough = true → m.endsInReturn = false
  not_last : m.canFallthrough = true → index + 1 < count
  exists_flagged : m.canFallthrough = true → ∃ s ∈ m.succs, s.layoutSuccessor = true
  unflagged_of_last : index + 1 = count → ∀ s ∈ m.succs, s.layoutSuccessor = false
  succs_congr : ∀ s ∈ m.succs, ∀ t ∈ m.succs, s.number = t.number →
    s.symbol = t.symbol ∧ s.layoutSuccessor = t.layoutSuccessor

/-- All blocks are printed, instruction by instruction, or none is. -/
def AllPrinted (records : List BlockRecord) : Prop :=
  (∀ r ∈ records, ∃ lines, r.machine.asm = some lines ∧
    lines.length = r.machine.instrs.length) ∨
  ∀ r ∈ records, r.machine.asm = none

/-- A flag marks the blocks with the number of a point, if there is a point. -/
def Marks (point : Option Int32) (flag : MachineBlock → Bool) (records : List BlockRecord) : Prop :=
  ∀ number, point = some number → ∀ r ∈ records,
    (flag r.machine = true ↔ r.machine.number = number)

/-- The sites of frame code are the blocks that the points of a frame name. Without them they are
the first block and those that return. -/
structure Frame.Sited (frame : Frame) (records : List BlockRecord) : Prop where
  prologue_of_none : frame.savePoint = none → ∀ i r, records[i]? = some r →
    (r.machine.isPrologueSite = true ↔ i = 0)
  prologue_of_some : Marks frame.savePoint MachineBlock.isPrologueSite records
  epilogue_of_none : frame.restorePoint = none → ∀ r ∈ records,
    r.machine.isEpilogueSite = r.machine.endsInReturn
  epilogue_of_some : Marks frame.restorePoint MachineBlock.isEpilogueSite records

/-- Blocks of one number are marked together. -/
theorem Marks.congr {point : Option Int32} {flag : MachineBlock → Bool}
    {records : List BlockRecord} (h : Marks point flag records) (hpoint : point.isSome = true)
    {r s : BlockRecord} (hr : r ∈ records) (hs : s ∈ records)
    (hnumber : r.machine.number = s.machine.number) : flag r.machine = flag s.machine := by
  obtain ⟨number, hsome⟩ := Option.isSome_iff_exists.1 hpoint
  rw [Bool.eq_iff_iff, h number hsome r hr, h number hsome s hs, hnumber]

/-- Where the blocks have numbers of their own, a frame is built up in one place at most. -/
theorem Frame.Sited.prologue_unique {frame : Frame} {records : List BlockRecord}
    (h : frame.Sited records)
    (hnodup : (records.map fun r => r.machine.number).Nodup) {i j : Nat} {r s : BlockRecord}
    (hr : records[i]? = some r) (hs : records[j]? = some s)
    (hrsite : r.machine.isPrologueSite = true) (hssite : s.machine.isPrologueSite = true) :
    i = j := by
  cases hpoint : frame.savePoint with
  | none =>
      rw [h.prologue_of_none hpoint i r hr] at hrsite
      rw [h.prologue_of_none hpoint j s hs] at hssite
      rw [hrsite, hssite]
  | some number =>
      rw [h.prologue_of_some number hpoint r (List.mem_of_getElem? hr)] at hrsite
      rw [h.prologue_of_some number hpoint s (List.mem_of_getElem? hs)] at hssite
      have hlt : i < (records.map fun r => r.machine.number).length := by
        rw [List.length_map]
        exact (List.getElem?_eq_some_iff.1 hr).1
      refine (List.getElem?_inj hlt hnodup).1 ?_
      rw [List.getElem?_map, List.getElem?_map, hr, hs, Option.map_some, Option.map_some, hrsite,
        hssite]

/-- A return is a barrier. -/
theorem Block.endsInBarrier_of_isReturnBlock {b : Block} (h : b.isReturnBlock = true) :
    b.EndsInBarrier := by
  rw [isReturnBlock, Option.any_eq_true] at h
  obtain ⟨last, hlast, hkind⟩ := h
  rw [beq_iff_eq] at hkind
  exact ⟨last, hlast, by simp [hkind]⟩

namespace MachineFunction

variable {f : MachineFunction} {i : Nat} {b : Block}

/-! ## Records of blocks -/

/-- Two successors with one number are one block, so there is nothing in which they could differ. -/
theorem succRecords_congr {s t : Successor} (hs : s ∈ f.succRecords i b)
    (ht : t ∈ f.succRecords i b) (hnumber : s.number = t.number) :
    s.symbol = t.symbol ∧ s.layoutSuccessor = t.layoutSuccessor := by
  obtain ⟨c, hc, rfl⟩ := List.mem_map.1 hs
  obtain ⟨d, hd, rfl⟩ := List.mem_map.1 ht
  have hblock : some c = some d := by
    rw [← block?_of_mem_resolve hc, ← block?_of_mem_resolve hd]
    exact congrArg f.block? hnumber
  obtain rfl := Option.some.inj hblock
  exact ⟨rfl, rfl⟩

theorem coheres_blockRecord (f : MachineFunction) (printer : Option Printer) (i : Nat) (b : Block) :
    (f.blockRecord printer i b).machine.Coheres i f.blocks.length where
  not_returns := by
    intro hfalls
    obtain ⟨-, hopen⟩ := (f.flagsByNumber printer i b).canFallthrough.1 hfalls
    exact Bool.eq_false_iff.2 (mt Block.endsInBarrier_of_isReturnBlock hopen)
  not_last := by
    intro hfalls
    obtain ⟨⟨next, hnext, -⟩, -⟩ := (f.flagsByNumber printer i b).canFallthrough.1 hfalls
    exact (List.getElem?_eq_some_iff.1 hnext).1
  exists_flagged := by
    intro hfalls
    exact List.any_eq_true.1 (Bool.and_eq_true_iff.1 hfalls).2
  unflagged_of_last := by
    intro hlast s hs
    obtain ⟨t, -, rfl⟩ := List.mem_map.1 hs
    have hnone : f.blocks[i + 1]? = none := List.getElem?_eq_none (Nat.le_of_eq hlast.symm)
    rw [Bool.eq_false_iff, Ne, isLayoutSuccessor_iff, hnone]
    rintro ⟨next, hnext, -⟩
    cases hnext
  succs_congr := fun _ hs _ ht hnumber => succRecords_congr hs ht hnumber

theorem allPrinted_blockRecords (f : MachineFunction) (printer : Option Printer) :
    AllPrinted (f.blockRecords printer) := by
  -- Whether there is something to print with is settled before the blocks are looked at.
  cases hlister : f.lister printer with
  | none =>
      right
      intro r hr
      obtain ⟨i, b, -, rfl⟩ := mem_blockRecords.1 hr
      rw [blockRecord, hlister, Option.map_none]
  | some list =>
      left
      intro r hr
      obtain ⟨i, b, -, rfl⟩ := mem_blockRecords.1 hr
      refine ⟨b.instrs.map list, ?_, ?_⟩
      · rw [blockRecord, hlister, Option.map_some]
      · rw [blockRecord, List.length_map, List.length_map]

theorem sited_blockRecords (f : MachineFunction) (printer : Option Printer) :
    f.frame.Sited (f.blockRecords printer) where
  prologue_of_none := by
    intro hpoint i r hr
    obtain ⟨b, -, rfl⟩ := blockRecords_eq_some.1 hr
    simp only [blockRecord, Frame.sites, Frame.isPrologueSite, hpoint, beq_iff_eq]
  prologue_of_some := by
    intro number hpoint r hr
    obtain ⟨i, b, -, rfl⟩ := mem_blockRecords.1 hr
    simp only [blockRecord, Frame.sites, Frame.isPrologueSite, hpoint, beq_iff_eq]
  epilogue_of_none := by
    intro hpoint r hr
    obtain ⟨i, b, -, rfl⟩ := mem_blockRecords.1 hr
    simp only [blockRecord, Frame.sites, Frame.isEpilogueSite, hpoint]
  epilogue_of_some := by
    intro number hpoint r hr
    obtain ⟨i, b, -, rfl⟩ := mem_blockRecords.1 hr
    simp only [blockRecord, Frame.sites, Frame.isEpilogueSite, hpoint, beq_iff_eq]

/-! ## Records of functions -/

/-- The record of a function is consistent whatever the function is like. Control falls through only
out of a block that does not return and is not the last one, and along a flagged edge; the last block
has none. Successors with one number are alike. All blocks are printed in full or none is. The sites
of frame code are those that the frame calls for, so blocks of one number are sites together, and
there is one prologue at most if the numbers differ. -/
theorem record_consistent (a : Assembler) (f : MachineFunction) :
    let records := (a.record f).function.blocks
    (∀ (i : Nat) (r : BlockRecord), records[i]? = some r →
      r.machine.Coheres i records.length) ∧
    AllPrinted records ∧
    f.frame.Sited records ∧
    (f.frame.savePoint.isSome = true → ∀ r ∈ records, ∀ s ∈ records,
      r.machine.number = s.machine.number →
      r.machine.isPrologueSite = s.machine.isPrologueSite) ∧
    (f.frame.restorePoint.isSome = true → ∀ r ∈ records, ∀ s ∈ records,
      r.machine.number = s.machine.number →
      r.machine.isEpilogueSite = s.machine.isEpilogueSite) ∧
    ((records.map fun r => r.machine.number).Nodup →
      ∀ (i j : Nat) (r s : BlockRecord), records[i]? = some r → records[j]? = some s →
        r.machine.isPrologueSite = true → s.machine.isPrologueSite = true → i = j) := by
  intro records
  have hsited : f.frame.Sited records := f.sited_blockRecords a.printer
  refine ⟨fun i r hr => ?_, f.allPrinted_blockRecords a.printer, hsited, ?_, ?_, ?_⟩
  · obtain ⟨b, -, rfl⟩ := blockRecords_eq_some.1 hr
    have hlength : records.length = f.blocks.length := List.length_mapIdx
    rw [hlength]
    exact f.coheres_blockRecord a.printer i b
  · exact fun hpoint r hr s hs hnumber => hsited.prologue_of_some.congr hpoint hr hs hnumber
  · exact fun hpoint r hr s hs hnumber => hsited.epilogue_of_some.congr hpoint hr hs hnumber
  · exact fun hnodup i j r s hr hs hrsite hssite =>
      hsited.prologue_unique hnodup hr hs hrsite hssite

/-- A function whose frame is needed on one path only: its frame code was moved to the second block,
which the first one falls into along two edges. -/
def shrunk : MachineFunction where
  name := "walk"
  frame := { savePoint := some 3, restorePoint := some 3 }
  target := some {}
  blocks := [
    { number := 5, symbol := "entry", instrs := [{ opcode := 1, kind := .condBranch }],
      succs := [some 3, some 7, some 3] },
    { number := 3, symbol := "body", instrs := [{ opcode := 2 }, { opcode := 4, kind := .ret }] },
    { number := 7, symbol := "exit", instrs := [{ opcode := 4, kind := .ret }] }]

theorem record_consistent_shrunk :
    let records := (Assembler.record ⟨fun _ => none, some Instr.listing⟩ shrunk).function.blocks
    ∃ r s, records[0]? = some r ∧ records[1]? = some s ∧
      r.machine.endsInReturn = false ∧ 0 + 1 < records.length ∧
      s.machine.isPrologueSite = true ∧
      ∀ (i : Nat) (t : BlockRecord), records[i]? = some t →
        t.machine.isPrologueSite = true → i = 1 := by
  obtain ⟨hcoheres, -, -, -, -, hunique⟩ :=
    record_consistent ⟨fun _ => none, some Instr.listing⟩ shrunk
  have hfirst := hcoheres 0 _ rfl
  refine ⟨_, _, rfl, rfl, hfirst.not_returns (by decide), hfirst.not_last (by decide),
    by decide, ?_⟩
  intro i t ht hsite
  exact hunique (by decide) i 1 t _ ht rfl hsite (by decide)

end MachineFunction

end MachineAtlas
