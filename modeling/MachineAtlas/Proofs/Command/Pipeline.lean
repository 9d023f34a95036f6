-- SUMMARY: The totals of the records that a command makes are those of the functions it was given.
import Mathlib
import MachineAtlas.Proofs.Command.Inspect
import MachineAtlas.Proofs.Record.Graph
import MachineAtlas.Proofs.Symbol
/-!
# From functions to totals

The totals of the records that a command makes are those of the functions that it was given, so
nothing that they count is lost on the way through both files.
-/
namespace MachineAtlas

open FileSystem (Writable)
open Lines (Lists lineBytes)

/-! ## Counting in lists with positions -/

/-- What does not depend on the position can be counted without it. -/
theorem countP_mapIdx {α β : Type} {p : β → Bool} {q : α → Bool} {g : Nat → α → β}
    (h : ∀ i a, p (g i a) = q a) (as : List α) : (as.mapIdx g).countP p = as.countP q := by
  induction as generalizing g with
  | nil => rfl
  | cons a as ih =>
      rw [List.mapIdx_cons, List.countP_cons, List.countP_cons, h, ih fun i a => h (i + 1) a]

/-- What holds of the first position alone is counted once, if there is one. -/
theorem countP_mapIdx_first {α β : Type} {p : β → Bool} {g : Nat → α → β}
    (h : ∀ i a, p (g i a) = (i == 0)) (as : List α) :
    (as.mapIdx g).countP p = if as.isEmpty then 0 else 1 := by
  cases as with
  | nil => rfl
  | cons a as =>
      have hrest : (as.mapIdx fun i => g (i + 1)).countP p = as.countP fun _ => false :=
        countP_mapIdx (fun i a => by rw [h]; rfl) as
      rw [List.mapIdx_cons, List.countP_cons, hrest, h]
      simp

namespace Command

namespace Totals

/-! ## Totals of functions -/

/-- The blocks that the frame of a function is built up in: those with the number of the save point,
or the first one if there is none. -/
def prologueCount (f : MachineFunction) : Nat :=
  match f.frame.savePoint with
  | some number => f.blocks.countP fun b => b.number == number
  | none => if f.blocks.isEmpty then 0 else 1

/-- The blocks that the frame is torn down in: those with the number of the restore point, or those
whose last instruction returns if there is none. -/
def epilogueCount (f : MachineFunction) : Nat :=
  match f.frame.restorePoint with
  | some number => f.blocks.countP fun b => b.number == number
  | none => f.blocks.countP fun b => b.instrs.getLast?.any fun i => i.kind == .ret

/-- The totals of functions, counted in the functions themselves. -/
def ofFunctions (functions : List MachineFunction) : Totals where
  functions := functions.length
  mangledFunctions := functions.countP fun f => Symbol.startsMangled f.name
  blocks := (functions.map fun f => f.blocks.length).sum
  instructions := (functions.map fun f => (f.blocks.map fun b => b.instrs.length).sum).sum
  prologueSites := (functions.map prologueCount).sum
  epilogueSites := (functions.map epilogueCount).sum
  inlineAsmBlocks :=
    (functions.map fun f => f.blocks.countP fun b => b.instrs.any fun i => i.kind == .inlineAsm).sum
  functionsWithoutModule := functions.countP fun f => f.owner.isNone

theorem prologueSites_record (a : Assembler) (f : MachineFunction) :
    ((a.record f).function.blocks.countP fun b => b.machine.isPrologueSite) = prologueCount f := by
  rw [Assembler.record_blocks, MachineFunction.blockRecords, prologueCount]
  cases hpoint : f.frame.savePoint with
  | none =>
      refine countP_mapIdx_first (fun i b => ?_) f.blocks
      simp [MachineFunction.blockRecord, Frame.sites, Frame.isPrologueSite, hpoint]
  | some number =>
      refine countP_mapIdx (fun i b => ?_) f.blocks
      simp [MachineFunction.blockRecord, Frame.sites, Frame.isPrologueSite, hpoint]

theorem epilogueSites_record (a : Assembler) (f : MachineFunction) :
    ((a.record f).function.blocks.countP fun b => b.machine.isEpilogueSite) = epilogueCount f := by
  rw [Assembler.record_blocks, MachineFunction.blockRecords, epilogueCount]
  cases hpoint : f.frame.restorePoint with
  | none =>
      refine countP_mapIdx (fun i b => ?_) f.blocks
      simp [MachineFunction.blockRecord, Frame.sites, Frame.isEpilogueSite, hpoint,
        Block.isReturnBlock]
  | some number =>
      refine countP_mapIdx (fun i b => ?_) f.blocks
      simp [MachineFunction.blockRecord, Frame.sites, Frame.isEpilogueSite, hpoint]

theorem inlineAsmBlocks_record (a : Assembler) (f : MachineFunction) :
    ((a.record f).function.blocks.countP fun b => b.machine.hasInlineAsm) =
      f.blocks.countP fun b => b.instrs.any fun i => i.kind == .inlineAsm := by
  rw [Assembler.record_blocks, MachineFunction.blockRecords]
  refine countP_mapIdx (fun i b => ?_) f.blocks
  rfl

theorem instructions_record (a : Assembler) (f : MachineFunction) :
    ((a.record f).function.blocks.map fun b => b.machine.instrs.length) =
      f.blocks.map fun b => b.instrs.length :=
  MachineFunction.map_blockRecords fun _ _ => List.length_map Instr.toRecord

/-- The records of functions have the totals of the functions. -/
theorem ofRecords_map (a : Assembler) (functions : List MachineFunction) :
    ofRecords (functions.map a.record) = ofFunctions functions := by
  have hblocks (f : MachineFunction) : (a.record f).function.blocks.length = f.blocks.length :=
    List.length_mapIdx
  simp only [ofRecords, ofFunctions, List.length_map, List.countP_map, List.map_map,
    Function.comp_def, Assembler.record_isMangled, Symbol.isMangled_classify, hblocks,
    instructions_record, prologueSites_record, epilogueSites_record, inlineAsmBlocks_record,
    Assembler.record_owner, Option.isNone_map]

end Totals

/-! ## Both commands -/

/-- If input, output and notes, where they are kept, are ordinary files of their own, functions are
inspected without failure, whatever they are, and the file that is left holds their totals. -/
theorem summarize_inspect {fs : FileSystem} {input : String} {configPath : Option String}
    {o : Config.Overrides} {config : Config} {l k : Location} {content : Bytes}
    {functions : List MachineFunction} (stamp : String) (json json' : Bool) (demangle : Demangler)
    (hinput : fs.find input = .ok (l, .file content))
    (hlists : Lists MachineFunction.codec functions content)
    (hconfig : resolveConfig fs configPath o = .ok config) (henabled : config.enabled = true)
    (hout : Writable fs config.output k) (hne : k ≠ l)
    (hdiag : ∀ path ∈ config.diagnostics, ∃ m, Writable fs path m ∧ m ≠ k ∧ m ≠ l) :
    let command := inspect fs stamp input configPath o json demangle
    (∃ summary, command.result = .ok summary) ∧
    (summarize command.files config.output json').result =
      .ok (Totals.ofFunctions functions) := by
  intro command
  have hout' : ∀ m, fs.locate config.output = .ok m → m ≠ l := fun _ => hout.ne_of_locate hne
  have hdiag' : ∀ path ∈ config.diagnostics, ∀ m, fs.locate path = .ok m → m ≠ l := by
    intro path hpath m hlocate
    obtain ⟨m', hwritable, -, hm'⟩ := hdiag path hpath
    exact hwritable.ne_of_locate hm' hlocate
  obtain ⟨fs', hrun, hrecorded, -, hsame⟩ := Engine.run_of_writable stamp demangle Instr.listing
    functions henabled hout fun path hpath => (hdiag path hpath).imp fun m hm => ⟨hm.1, hm.2.1⟩
  obtain ⟨hfiles, hresult⟩ :=
    inspect_eq_runOver (isFile_of_find hinput) hconfig stamp json demangle
  obtain ⟨hrunOver, hmatches⟩ := runOver_eq_run hinput hlists hout' hdiag'
  rw [hrun] at hrunOver hmatches
  refine ⟨⟨_, hresult.trans hmatches⟩, ?_⟩
  have hleft : command.files = fs' := hfiles.trans hrunOver
  -- The output is found again by its path, since no directory has changed.
  have hread := hout.readBytes_eq hsame hrecorded
  rw [← hleft] at hread
  have hrecords := Lines.lists_flatMap Record.codec (functions.map (Assembler.record
    ⟨demangle, if config.prettyPrintInstrs then some Instr.listing else none⟩))
  rw [List.flatMap_map] at hrecords
  rw [result_summarize, totalsOf_lists hread hrecords, Totals.ofRecords_map]

/-- The function of a file is recorded, and the totals of the records are its own. -/
theorem summarize_inspect_returning :
    (summarize (inspect ⟨"/", [(["i"], .file (lineBytes MachineFunction.codec returning))]⟩
      "" "i" none { output := some "r" } false (fun _ => none)).files "r" false).result =
      .ok { functions := 1, mangledFunctions := 1, blocks := 1, instructions := 1,
            prologueSites := 1, epilogueSites := 1, functionsWithoutModule := 1 } := by
  generalize hcontent : lineBytes MachineFunction.codec returning = content
  have hlists : Lists MachineFunction.codec [returning] content := by
    rw [← hcontent]
    exact Lines.lists_lineBytes MachineFunction.codec returning
  have hconfig : resolveConfig (onlyInput content) none { output := some "r" } =
      .ok { output := "r" } := rfl
  exact (summarize_inspect "" false false (fun _ => none) (find_onlyInput content) hlists hconfig
    rfl (onlyInput_output content) (by decide) (fun _ h => by cases h)).2

end Command

end MachineAtlas
