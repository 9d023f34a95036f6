-- SUMMARY: Renumbered functions have renumbered records and notes.
import MachineAtlas.Proofs.Record.Comparison
import MachineAtlas.Proofs.Record.Note
/-!
# Renumbering

The numbers of blocks are names: only whether two of them are equal matters. A function whose
numbers are replaced, different ones by different ones, has the same records with the numbers
replaced, and the same notes.
-/
namespace MachineAtlas

/-! ## Replacing numbers -/

section

variable (s : Int32 → Int32)

def Block.renumber (b : Block) : Block :=
  { b with
    number := s b.number
    preds := b.preds.map (Option.map s)
    succs := b.succs.map (Option.map s) }

def Frame.renumber (f : Frame) : Frame :=
  { f with savePoint := f.savePoint.map s, restorePoint := f.restorePoint.map s }

def MachineFunction.renumber (f : MachineFunction) : MachineFunction :=
  { f with frame := f.frame.renumber s, blocks := f.blocks.map (Block.renumber s) }

def Edge.renumber (e : Edge) : Edge := { e with number := s e.number }

def Successor.renumber (t : Successor) : Successor := { t with number := s t.number }

def MachineBlock.renumber (m : MachineBlock) : MachineBlock :=
  { m with
    number := s m.number
    preds := m.preds.map (Edge.renumber s)
    succs := m.succs.map (Successor.renumber s) }

def BlockRecord.renumber (r : BlockRecord) : BlockRecord :=
  { r with machine := r.machine.renumber s }

def Note.renumber : Note → Note
  | .missingIrBlock block => .missingIrBlock (s block)
  | .nullEdge side position block => .nullEdge side position (s block)
  | .danglingEdge side target block => .danglingEdge side (s target) (s block)
  | .missingTarget => .missingTarget
  | .missingOperand => .missingOperand
  | .missingModule => .missingModule

@[simp] theorem Note.kind_renumber (n : Note) : (n.renumber s).kind = n.kind := by
  cases n <;> rfl

end

/-- The numbers in a block: its own and those of its entries. -/
def Block.numbers (b : Block) : List Int32 := b.number :: (b.preds ++ b.succs).reduceOption

namespace MachineFunction

/-- The numbers in a function: those in its blocks, and the save and restore points. -/
def numbers (f : MachineFunction) : List Int32 :=
  f.blocks.flatMap Block.numbers ++ f.frame.savePoint.toList ++ f.frame.restorePoint.toList

variable {s : Int32 → Int32} {f : MachineFunction} {b : Block}

theorem mem_numbers {n : Int32} : n ∈ f.numbers ↔ (∃ b ∈ f.blocks, n ∈ b.numbers) ∨
    f.frame.savePoint = some n ∨ f.frame.restorePoint = some n := by
  simp [numbers]

theorem number_mem_numbers (hb : b ∈ f.blocks) : b.number ∈ f.numbers :=
  mem_numbers.2 (.inl ⟨b, hb, List.mem_cons_self⟩)

theorem entry_mem_numbers (hb : b ∈ f.blocks) {n : Int32} (hn : some n ∈ b.preds ++ b.succs) :
    n ∈ f.numbers :=
  mem_numbers.2 (.inl ⟨b, hb, List.mem_cons_of_mem _ (List.reduceOption_mem_iff.2 hn)⟩)

/-! ## Graphs -/

/-- The numbers of the function stay different from each other. -/
def KeepsApart (s : Int32 → Int32) (f : MachineFunction) : Prop := Set.InjOn s {n | n ∈ f.numbers}

theorem KeepsApart.beq_eq (h : KeepsApart s f) {m n : Int32} (hm : m ∈ f.numbers)
    (hn : n ∈ f.numbers) : (s m == s n) = (m == n) := by
  rw [Bool.eq_iff_iff, beq_iff_eq, beq_iff_eq]
  exact h.eq_iff hm hn

@[simp] theorem block?_renumber (h : KeepsApart s f) {n : Int32} (hn : n ∈ f.numbers) :
    (f.renumber s).block? (s n) = (f.block? n).map (Block.renumber s) := by
  simp only [block?, renumber, List.find?_map]
  congr 1
  apply List.find?_congr
  intro b hb
  exact h.beq_eq (number_mem_numbers hb) hn

theorem resolve_renumber (h : KeepsApart s f) {entries : List (Option Int32)}
    (hentries : ∀ n, some n ∈ entries → n ∈ f.numbers) :
    (f.renumber s).resolve (entries.map (Option.map s)) =
      (f.resolve entries).map (Block.renumber s) := by
  simp only [resolve, List.filterMap_map, List.map_filterMap]
  apply List.filterMap_congr
  intro entry hentry
  cases entry with
  | none => rfl
  | some n => exact block?_renumber h (hentries n hentry)

theorem isLayoutSuccessor_renumber (h : KeepsApart s f) (i : Nat) {t : Block}
    (ht : t.number ∈ f.numbers) :
    (f.renumber s).isLayoutSuccessor i (t.renumber s) = f.isLayoutSuccessor i t := by
  simp only [isLayoutSuccessor, layoutSuccessor?, renumber, List.getElem?_map]
  cases hnext : f.blocks[i + 1]? with
  | none => rfl
  | some next => exact h.beq_eq (number_mem_numbers (List.mem_of_getElem? hnext)) ht

theorem sites_renumber (h : KeepsApart s f) (hb : b ∈ f.blocks) (i : Nat) :
    (f.frame.renumber s).sites (b.renumber s) i = f.frame.sites b i := by
  have hprologue : (f.frame.renumber s).isPrologueSite (b.renumber s) i =
      f.frame.isPrologueSite b i := by
    simp only [Frame.isPrologueSite, Frame.renumber]
    cases hpoint : f.frame.savePoint with
    | none => rfl
    | some point =>
        exact h.beq_eq (number_mem_numbers hb) (mem_numbers.2 (.inr (.inl hpoint)))
  have hepilogue : (f.frame.renumber s).isEpilogueSite (b.renumber s) =
      f.frame.isEpilogueSite b := by
    simp only [Frame.isEpilogueSite, Frame.renumber]
    cases hpoint : f.frame.restorePoint with
    | none => rfl
    | some point =>
        exact h.beq_eq (number_mem_numbers hb) (mem_numbers.2 (.inr (.inr hpoint)))
  simp only [Frame.sites, hprologue, hepilogue]

/-! ## Records and notes -/

theorem predRecords_renumber (h : KeepsApart s f) (hb : b ∈ f.blocks) :
    (f.renumber s).predRecords (b.renumber s) = (f.predRecords b).map (Edge.renumber s) := by
  have hresolve := resolve_renumber h fun n hn =>
    entry_mem_numbers hb (List.mem_append_left b.succs hn)
  simp only [predRecords, Block.renumber, hresolve, List.map_map]
  rfl

theorem succRecords_renumber (h : KeepsApart s f) (hb : b ∈ f.blocks) (i : Nat) :
    (f.renumber s).succRecords i (b.renumber s) =
      (f.succRecords i b).map (Successor.renumber s) := by
  have hresolve := resolve_renumber h fun n hn =>
    entry_mem_numbers hb (List.mem_append_right b.preds hn)
  simp only [succRecords, Block.renumber, hresolve, List.map_map]
  apply List.map_congr_left
  intro t ht
  -- The flag compares the numbers of two blocks of the function, and these stay apart.
  have ht : t ∈ f.blocks := (block?_eq_some (block?_of_mem_resolve ht)).1
  have hflag := isLayoutSuccessor_renumber h i (number_mem_numbers ht)
  simp only [Function.comp_apply, hflag]
  rfl

theorem blockRecord_renumber (h : KeepsApart s f) (hb : b ∈ f.blocks) (printer : Option Printer)
    (i : Nat) :
    (f.renumber s).blockRecord printer i (b.renumber s) =
      (f.blockRecord printer i b).renumber s := by
  have hflags : ((f.succRecords i b).map (Successor.renumber s)).any Successor.layoutSuccessor =
      (f.succRecords i b).any Successor.layoutSuccessor := List.any_map
  have hsites : (f.renumber s).frame.sites (b.renumber s) i = f.frame.sites b i :=
    sites_renumber h hb i
  simp only [blockRecord, predRecords_renumber h hb, succRecords_renumber h hb i, hflags, hsites]
  rfl

theorem edgeNotes_renumber (h : KeepsApart s f) (side : Side) (block : Int32) (position : Nat)
    {entries : List (Option Int32)} (hentries : ∀ n, some n ∈ entries → n ∈ f.numbers) :
    (f.renumber s).edgeNotes side (s block) position (entries.map (Option.map s)) =
      (f.edgeNotes side block position entries).map (Note.renumber s) := by
  induction entries generalizing position with
  | nil => rfl
  | cons entry entries ih =>
      have hrest := ih (position + 1) fun n hn => hentries n (List.mem_cons_of_mem _ hn)
      -- An entry that leads nowhere leads nowhere by its new number either.
      have hentry : (f.renumber s).edgeNote? side (s block) position (entry.map s) =
          (f.edgeNote? side block position entry).map (Note.renumber s) := by
        cases entry with
        | none => rfl
        | some n =>
            have hblock := block?_renumber h (hentries n List.mem_cons_self)
            simp only [edgeNote?, Option.map_some, hblock, Option.isSome_map]
            cases (f.block? n).isSome <;> rfl
      simp only [edgeNotes, List.map_cons, List.map_append, hentry, hrest]
      cases f.edgeNote? side block position entry <;> rfl

theorem blockNotes_renumber (h : KeepsApart s f) (hb : b ∈ f.blocks) :
    (f.renumber s).blockNotes (b.renumber s) = (f.blockNotes b).map (Note.renumber s) := by
  have hpreds := edgeNotes_renumber h .predecessor b.number 0 fun n hn =>
    entry_mem_numbers hb (List.mem_append_left b.succs hn)
  have hsuccs := edgeNotes_renumber h .successor b.number 0 fun n hn =>
    entry_mem_numbers hb (List.mem_append_right b.preds hn)
  simp only [blockNotes, Block.renumber, List.map_append, hpreds, hsuccs,
    apply_ite (List.map (Note.renumber s))]
  rfl

/-- The numbers of blocks are names. If those of a function are replaced so that different ones stay
different, the save and restore points and the entries that lead nowhere included, then its records
are the same with the numbers replaced, so all flags, symbols and instructions stay, and its notes
are the same in order and kind. -/
theorem extraction_renumber (f : MachineFunction) (printer : Option Printer) (s : Int32 → Int32)
    (h : Set.InjOn s {n | n ∈ f.numbers}) :
    (f.renumber s).blockRecords printer = (f.blockRecords printer).map (BlockRecord.renumber s) ∧
    (f.renumber s).graphNotes printer = (f.graphNotes printer).map (Note.renumber s) ∧
    ((f.renumber s).graphNotes printer).map Note.kind = (f.graphNotes printer).map Note.kind := by
  have hrecords : ((f.renumber s).blockRecords printer).map id =
      (f.blockRecords printer).map (BlockRecord.renumber s) := by
    apply map_blockRecords_eq
    rw [renumber, List.forall₂_map_left_iff, List.forall₂_same]
    intro b hb i
    exact blockRecord_renumber h hb printer i
  have hnotes : (f.renumber s).graphNotes printer =
      (f.graphNotes printer).map (Note.renumber s) := by
    have htarget : (f.renumber s).target = f.target := rfl
    have hblocks : (f.renumber s).blocks.flatMap (f.renumber s).blockNotes =
        (f.blocks.flatMap f.blockNotes).map (Note.renumber s) := by
      rw [List.map_flatMap, renumber, List.flatMap_map]
      apply List.flatMap_congr
      intro b hb
      exact blockNotes_renumber h hb
    simp only [graphNotes, htarget, hblocks, List.map_append]
    split <;> rfl
  refine ⟨by rwa [List.map_id] at hrecords, hnotes, ?_⟩
  rw [hnotes, List.map_map]
  exact List.map_congr_left fun n _ => n.kind_renumber s

/-- Two blocks share the number of the save point, and no block has that of the restore point. -/
def shared : MachineFunction where
  name := "shared"
  frame := { savePoint := some 2, restorePoint := some 7 }
  blocks := [
    { number := 4, symbol := "head", succs := [some 2, none] },
    { number := 2, symbol := "first", preds := [some 4, some 9] },
    { number := 2, symbol := "second" }]

/-- Keeps the numbers of `shared` apart, but no others. -/
def exchange (n : Int32) : Int32 := if n = 2 then 4 else if n = 4 then 2 else if n = 7 then 9 else 0

theorem extraction_renumber_shared :
    Set.InjOn exchange {n | n ∈ shared.numbers} ∧
    (shared.renumber exchange).blockRecords none =
      (shared.blockRecords none).map (BlockRecord.renumber exchange) ∧
    (shared.renumber exchange).graphNotes none =
      [.missingIrBlock 2, .nullEdge .successor 1 2, .missingIrBlock 4,
        .danglingEdge .predecessor 0 4, .missingIrBlock 4] := by
  have hapart : Set.InjOn exchange {n | n ∈ shared.numbers} := by
    intro m hm n hn
    have hnumbers : shared.numbers = [4, 2, 2, 4, 9, 2, 2, 7] := rfl
    revert m n
    simp [hnumbers, exchange]
  obtain ⟨hrecords, hnotes, -⟩ := extraction_renumber shared none exchange hapart
  exact ⟨hapart, hrecords, hnotes.trans (by decide)⟩

end MachineFunction

end MachineAtlas
