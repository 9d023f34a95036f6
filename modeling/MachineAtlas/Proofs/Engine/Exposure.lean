-- SUMMARY: Functions that look alike are recorded alike, so nothing else of them gets out.
import MachineAtlas.Proofs.Engine.Counters
import MachineAtlas.Proofs.Record.Comparison
/-!
# What records expose

A record shows little of an instruction: its opcode, two of its flags, whether it is inline assembly
and, of the last one of a block, how it passes on control. Of the objects of a frame it shows their
number, how many are fixed and whether one has no size. Functions that differ in other things only
are recorded alike, so these other things reach neither stream. This holds as long as instructions
are not printed.
-/
namespace MachineAtlas

/-! ## Functions that look alike -/

/-- The kinds may stand for each other at the end of a block: both let control go on to the next
block, or both pass it on elsewhere or end it, without being returns. -/
def InstrKind.EndsLike (k l : InstrKind) : Prop :=
  k = l ∨ (k ∈ [plain, call, condBranch] ∧ l ∈ [plain, call, condBranch]) ∨
    (k ∈ [branch, indirectBranch, trap] ∧ l ∈ [branch, indirectBranch, trap])

instance (k l : InstrKind) : Decidable (k.EndsLike l) :=
  inferInstanceAs (Decidable (_ ∨ _ ∨ _))

/-- The instructions have the same opcode and the same two lowest flags. -/
structure Instr.LooksLike (i j : Instr) : Prop where
  opcode : i.opcode = j.opcode
  flags : ∀ bit < 2, i.flags.toNat.testBit bit = j.flags.toNat.testBit bit

/-- The blocks differ in their instructions only. Instruction by instruction these look alike, the
inner ones are inline assembly in both or in neither, and the last ones end their blocks alike. -/
structure Block.LooksLike (b c : Block) : Prop where
  same : c = { b with instrs := c.instrs }
  instrs : List.Forall₂ Instr.LooksLike b.instrs c.instrs
  inner : List.Forall₂ (fun i j => i.isInlineAsm = j.isInlineAsm) b.instrs.dropLast
    c.instrs.dropLast
  last : Option.Rel (fun i j => i.kind.EndsLike j.kind) b.instrs.getLast? c.instrs.getLast?

/-- The objects are fixed or not and have a size or not, both alike. -/
structure StackObject.LooksLike (o p : StackObject) : Prop where
  fixed : o.fixed = p.fixed
  size : o.size.isSome = p.size.isSome

/-- The frames differ in their objects only, and these look alike. -/
structure Frame.LooksLike (f g : Frame) : Prop where
  same : g = { f with objects := g.objects }
  objects : List.Forall₂ StackObject.LooksLike f.objects g.objects

/-- The functions differ in their frames, blocks and targets only, and all but the targets look
alike. -/
structure MachineFunction.LooksLike (f g : MachineFunction) : Prop where
  same : g = { f with frame := g.frame, blocks := g.blocks, target := g.target }
  frame : f.frame.LooksLike g.frame
  blocks : List.Forall₂ Block.LooksLike f.blocks g.blocks

/-! ## Lists -/

theorem map_eq_of_forall₂ {α β γ : Type} {R : α → β → Prop} {p : α → γ} {q : β → γ}
    {as : List α} {bs : List β} (h : List.Forall₂ R as bs) (hpq : ∀ a b, R a b → p a = q b) :
    as.map p = bs.map q := by
  rw [← List.forall₂_eq_eq_eq, List.forall₂_map_left_iff, List.forall₂_map_right_iff]
  exact h.imp hpq

theorem any_eq_of_forall₂ {α β : Type} {R : α → β → Prop} {p : α → Bool} {q : β → Bool}
    {as : List α} {bs : List β} (h : List.Forall₂ R as bs) (hpq : ∀ a b, R a b → p a = q b) :
    as.any p = bs.any q := by
  have hmap := congrArg (List.any · id) (map_eq_of_forall₂ h hpq)
  rwa [List.any_map, List.any_map] at hmap

theorem any_eq_dropLast {α : Type} (p : α → Bool) (as : List α) :
    as.any p = (as.dropLast.any p || as.getLast?.any p) := by
  rcases List.eq_nil_or_concat as with rfl | ⟨front, last, rfl⟩
  · rfl
  · simp

/-! ## Instructions -/

/-- A mask of one bit asks for that bit. -/
theorem and_ne_zero_eq_testBit {mask : UInt32} (bit : Nat) (hmask : mask.toNat = 2 ^ bit)
    (flags : UInt32) : (flags &&& mask != 0) = flags.toNat.testBit bit := by
  have hand : (flags &&& mask).toNat = (flags.toNat.testBit bit).toNat * 2 ^ bit := by
    rw [UInt32.toNat_and, hmask, Nat.and_two_pow]
  rw [Bool.eq_iff_iff, bne_iff_ne, ne_eq, ← UInt32.toNat_inj, hand]
  cases flags.toNat.testBit bit <;> simp

theorem Instr.isFrameSetup_eq (i : Instr) : i.isFrameSetup = i.flags.toNat.testBit 0 :=
  and_ne_zero_eq_testBit 0 rfl i.flags

theorem Instr.isFrameDestroy_eq (i : Instr) : i.isFrameDestroy = i.flags.toNat.testBit 1 :=
  and_ne_zero_eq_testBit 1 rfl i.flags

theorem Instr.LooksLike.toRecord {i j : Instr} (h : i.LooksLike j) : i.toRecord = j.toRecord := by
  have hsetup := h.flags 0 (by decide)
  have hdestroy := h.flags 1 (by decide)
  unfold Instr.toRecord
  simp only [Instr.isFrameSetup_eq, Instr.isFrameDestroy_eq, h.opcode, hsetup, hdestroy]

/-- What a record shows of the kind of a last instruction. -/
def InstrKind.ending (k : InstrKind) : Bool × Bool × Bool :=
  (k.isBarrier, k == .ret, k == .inlineAsm)

theorem InstrKind.EndsLike.ending {k l : InstrKind} (h : k.EndsLike l) : k.ending = l.ending := by
  have hopen : ∀ k ∈ [plain, call, condBranch], k.ending = (false, false, false) := by decide
  have hbarrier : ∀ k ∈ [branch, indirectBranch, trap], k.ending = (true, false, false) := by
    decide
  rcases h with rfl | ⟨hk, hl⟩ | ⟨hk, hl⟩
  · rfl
  · exact (hopen k hk).trans (hopen l hl).symm
  · exact (hbarrier k hk).trans (hbarrier l hl).symm

/-! ## Blocks -/

namespace Block.LooksLike

variable {b c : Block}

theorem reference (h : b.LooksLike c) : b.reference = c.reference := by
  rw [h.same]
  rfl

/-- What is asked of the last instruction has the same answer, if the kinds that may stand for each
other do not matter to it. -/
theorem last_eq (h : b.LooksLike c) {α : Type} (p : Bool × Bool × Bool → α) :
    b.instrs.getLast?.map (fun i => p i.kind.ending) =
      c.instrs.getLast?.map fun i => p i.kind.ending := by
  have hlast := h.last
  generalize b.instrs.getLast? = i, c.instrs.getLast? = j at hlast
  cases hlast with
  | none => rfl
  | some hends => rw [Option.map_some, Option.map_some, hends.ending]

theorem endsOpen (h : b.LooksLike c) : b.endsOpen = c.endsOpen := by
  have hlast := congrArg (Option.all (! ·)) (h.last_eq (·.1))
  rwa [Option.all_map, Option.all_map] at hlast

theorem isReturnBlock (h : b.LooksLike c) : b.isReturnBlock = c.isReturnBlock := by
  have hlast := congrArg (Option.any id) (h.last_eq (·.2.1))
  rwa [Option.any_map, Option.any_map] at hlast

theorem hasInlineAsm (h : b.LooksLike c) :
    b.instrs.any Instr.isInlineAsm = c.instrs.any Instr.isInlineAsm := by
  -- The inner instructions are compared one by one, the last one by how it ends its block.
  have hlast := congrArg (Option.any id) (h.last_eq (·.2.2))
  rw [Option.any_map, Option.any_map] at hlast
  rw [any_eq_dropLast, any_eq_dropLast _ c.instrs, any_eq_of_forall₂ h.inner fun _ _ h => h]
  exact congrArg _ hlast

theorem instrRecords (h : b.LooksLike c) :
    b.instrs.map Instr.toRecord = c.instrs.map Instr.toRecord :=
  map_eq_of_forall₂ h.instrs fun _ _ h => h.toRecord

end Block.LooksLike

/-! ## Frames -/

theorem Frame.LooksLike.summary {f g : Frame} (h : f.LooksLike g) : f.summary = g.summary := by
  have hlength := h.objects.length_eq
  have hvariadic : (f.objects.any fun o => o.size.isNone) = g.objects.any fun o => o.size.isNone :=
    any_eq_of_forall₂ h.objects fun o p h => by rw [← Option.not_isSome, h.size, Option.not_isSome]
  have hfixed : (f.objects.filter StackObject.fixed).length =
      (g.objects.filter StackObject.fixed).length := by
    have hmap := map_eq_of_forall₂ h.objects fun _ _ h => h.fixed
    have hcount := congrArg (List.countP id) hmap
    rwa [List.countP_map, List.countP_map, List.countP_eq_length_filter,
      List.countP_eq_length_filter] at hcount
  have hempty : f.objects.isEmpty = g.objects.isEmpty := by
    rw [Bool.eq_iff_iff, List.isEmpty_iff_length_eq_zero, hlength, List.isEmpty_iff_length_eq_zero]
  rw [h.same]
  simp only [Frame.summary, hlength, hvariadic, hfixed, hempty]

/-! ## Functions -/

namespace MachineFunction.LooksLike

variable {f g : MachineFunction} {b c : Block}

theorem references (h : f.LooksLike g) :
    f.blocks.map Block.reference = g.blocks.map Block.reference :=
  map_eq_of_forall₂ h.blocks fun _ _ h => h.reference

theorem reference? (h : f.LooksLike g) : g.reference? = f.reference? := by
  funext number
  rw [reference?_eq, reference?_eq, h.references]

/-- The numbers of the blocks placed next are the same. -/
theorem layoutSuccessor (h : f.LooksLike g) (i : Nat) (number : Int32) :
    ((f.layoutSuccessor? i).any fun next => next.number == number) =
      (g.layoutSuccessor? i).any fun next => next.number == number := by
  -- References stand in the order of their blocks, so the block placed next is referred to alike.
  have hnext : (f.layoutSuccessor? i).map Block.reference =
      (g.layoutSuccessor? i).map Block.reference := by
    unfold layoutSuccessor?
    rw [← List.getElem?_map, ← List.getElem?_map, h.references]
  have hany := congrArg (Option.any fun e => e.number == number) hnext
  rwa [Option.any_map, Option.any_map] at hany

theorem predRecords (h : f.LooksLike g) (hb : b.LooksLike c) :
    f.predRecords b = g.predRecords c := by
  rw [predRecords_eq, predRecords_eq, h.reference?, hb.same]

theorem succRecords (h : f.LooksLike g) (hb : b.LooksLike c) (i : Nat) :
    f.succRecords i b = g.succRecords i c := by
  rw [succRecords_eq, succRecords_eq, h.reference?, hb.same]
  simp only [h.layoutSuccessor]

theorem sites (h : f.LooksLike g) (hb : b.LooksLike c) (i : Nat) :
    f.frame.sites b i = g.frame.sites c i := by
  have hnumber : b.number = c.number := congrArg Edge.number hb.reference
  rw [h.frame.same]
  unfold Frame.sites Frame.isPrologueSite Frame.isEpilogueSite
  simp only [hnumber, hb.isReturnBlock]

theorem blockRecord (h : f.LooksLike g) (hb : b.LooksLike c) (i : Nat) :
    f.blockRecord none i b = g.blockRecord none i c := by
  have hrest : b.irRecord = c.irRecord ∧ b.number = c.number ∧ b.symbol = c.symbol ∧
      b.addressTaken = c.addressTaken := by
    rw [hb.same]
    exact ⟨rfl, rfl, rfl, rfl⟩
  obtain ⟨hir, hnumber, hsymbol, haddress⟩ := hrest
  have hlister (f : MachineFunction) : f.lister none = none := rfl
  unfold MachineFunction.blockRecord
  simp only [hir, hnumber, hsymbol, haddress, hb.endsOpen, hb.isReturnBlock, hb.hasInlineAsm,
    hb.instrRecords, h.predRecords hb, h.succRecords hb, h.sites hb, hlister,
    Option.map_none]

theorem blockRecords (h : f.LooksLike g) : f.blockRecords none = g.blockRecords none := by
  have hrecords := map_blockRecords_eq (p := id) (q := id) (h.blocks.imp fun _ _ hb i =>
    h.blockRecord hb i)
  rwa [List.map_id, List.map_id] at hrecords

theorem graphNotes (h : f.LooksLike g) : f.graphNotes none = g.graphNotes none := by
  have hblocks : f.blocks.map f.blockNotes = g.blocks.map g.blockNotes := by
    rw [blockNotes_congr h.reference?]
    apply map_eq_of_forall₂ h.blocks
    intro b c hb
    rw [hb.same]
    rfl
  unfold MachineFunction.graphNotes
  rw [List.flatMap_def, List.flatMap_def, hblocks]
  rfl

variable {a : Assembler}

theorem record (h : f.LooksLike g) (ha : a.printer = none) : a.record f = a.record g := by
  have hblocks := h.blockRecords
  have hframe := h.frame.summary
  rw [Assembler.record_eq, Assembler.record_eq, ha, hblocks, hframe, h.same]

theorem notes (h : f.LooksLike g) (ha : a.printer = none) : a.notes f = a.notes g := by
  have hgraph := h.graphNotes
  unfold Assembler.notes
  rw [ha, hgraph, h.same]

end MachineFunction.LooksLike

/-! ## Runs -/

namespace Engine

variable {e : Engine} {f g : MachineFunction}

theorem inspect_looksLike (ha : e.assembler.printer = none) (h : f.LooksLike g)
    (fs : FileSystem) : e.inspect fs f = e.inspect fs g := by
  have hname : f.name = g.name := by rw [h.same]
  unfold inspect
  rw [h.record ha, h.notes ha, hname]

/-- A run goes on without a printer, and so each of its calls is the same. -/
theorem inspectAll_looksLike {functions others : List MachineFunction}
    (ha : e.assembler.printer = none)
    (h : List.Forall₂ MachineFunction.LooksLike functions others) (fs : FileSystem) :
    inspectAll fs e functions = inspectAll fs e others := by
  induction h generalizing fs e with
  | nil => rfl
  | @cons f g functions others hhead _ ih =>
      simp only [inspectAll, inspect_looksLike ha hhead]
      apply ih
      rw [(inspect_accounts fs e g).assembler]
      exact ha

/-- What records do not show reaches neither stream as long as instructions are not printed:
functions that look alike have the same line and the same notes, a call does the same for either of
them, and so does a run over many. -/
theorem inspect_unexposed {e : Engine} (h : e.config.prettyPrintInstrs = false) :
    (∀ f g : MachineFunction, f.LooksLike g →
      recordLine e.assembler f = recordLine e.assembler g ∧
      e.assembler.notes f = e.assembler.notes g ∧
      ∀ fs, e.inspect fs f = e.inspect fs g) ∧
    ∀ functions others : List MachineFunction,
      List.Forall₂ MachineFunction.LooksLike functions others →
      ∀ fs, inspectAll fs e functions = inspectAll fs e others := by
  have ha : e.assembler.printer = none := by
    rw [assembler, h]
    rfl
  constructor
  · intro f g hlike
    refine ⟨?_, hlike.notes ha, inspect_looksLike ha hlike⟩
    rw [recordLine, recordLine, hlike.record ha]
  · intro functions others hlike
    exact inspectAll_looksLike ha hlike

/-- A loop with a plain block and one with inline assembly. -/
def spare : MachineFunction where
  name := "spin"
  frame := { objects := [{ offset := -8, size := some 8, fixed := true }, {}] }
  blocks := [
    { number := 0, symbol := "head", preds := [some 1], succs := [some 1, some 7],
      instrs := [{ opcode := 3, flags := 1 }, { opcode := 4, kind := .condBranch }] },
    { number := 1, symbol := "tail", preds := [some 0], succs := [some 0],
      instrs := [{ opcode := 5, kind := .inlineAsm }, { opcode := 6, kind := .branch }] }]

/-- The same loop with operands and a target, and with other kinds, higher flags and objects. -/
def laden : MachineFunction where
  name := "spin"
  frame := { objects := [{ offset := -64, size := some 32, fixed := true }, { offset := 16 }] }
  blocks := [
    { number := 0, symbol := "head", preds := [some 1], succs := [some 1, some 7],
      instrs := [{ opcode := 3, flags := 13, kind := .ret, operands := ["rbp"] },
        { opcode := 4, flags := 8, kind := .call, operands := ["f"] }] },
    { number := 1, symbol := "tail", preds := [some 0], succs := [some 0],
      instrs := [{ opcode := 5, flags := 4, kind := .inlineAsm, operands := ["nop"] },
        { opcode := 6, kind := .trap }] }]
  target := some { triple := "x86_64" }

theorem spare_looksLike : spare.LooksLike laden where
  same := rfl
  frame := ⟨rfl, .cons ⟨rfl, rfl⟩ (.cons ⟨rfl, rfl⟩ .nil)⟩
  blocks := by
    refine .cons ?head (.cons ?tail .nil)
    case head =>
      exact ⟨rfl, .cons ⟨rfl, by decide⟩ (.cons ⟨rfl, by decide⟩ .nil), .cons rfl .nil,
        .some (by decide)⟩
    case tail =>
      exact ⟨rfl, .cons ⟨rfl, by decide⟩ (.cons ⟨rfl, by decide⟩ .nil), .cons rfl .nil,
        .some (by decide)⟩

theorem inspect_unexposed_laden :
    spare.LooksLike laden ∧ ∃ fs e,
      start ⟨"/", []⟩ "" twoFiles (fun _ => none) Instr.listing = (fs, .ok e) ∧
      e.isEnabled = true ∧ e.config.prettyPrintInstrs = false ∧
      recordLine e.assembler spare = recordLine e.assembler laden ∧
      e.assembler.notes spare = e.assembler.notes laden ∧
      e.inspect fs spare = e.inspect fs laden ∧
      inspectAll fs e [spare, spare] = inspectAll fs e [laden, laden] := by
  obtain ⟨fs, e, -, -, hstart, -⟩ := twoFiles_finish []
  obtain ⟨-, notes, records, -, -, rfl⟩ := start_eq_ok (rfl : twoFiles.enabled = true) hstart
  obtain ⟨hone, hall⟩ := inspect_unexposed (e := {
    config := twoFiles, streams? := some { records, notes }, demangle := fun _ => none,
    printer := Instr.listing, summary := {} }) rfl
  obtain ⟨hline, hnotes, hinspect⟩ := hone _ _ spare_looksLike
  refine ⟨spare_looksLike, fs, _, hstart, rfl, rfl, hline, hnotes, hinspect fs, ?_⟩
  exact hall _ _ (.cons spare_looksLike (.cons spare_looksLike .nil)) fs

end Engine

end MachineAtlas
