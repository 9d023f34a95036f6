-- SUMMARY: Records refer to their own blocks, along the entries that name one, in order.
import Mathlib.Data.List.ReduceOption
import MachineAtlas.Proofs.Record.Successors
import MachineAtlas.Record.Assembly
/-!
# The graph of a record

A record refers to its own blocks only. The edges of a block are those of its entries that name a
block of the function, in order and as often as they are there, so entries that agree between two
blocks give edges that agree.
-/
namespace MachineAtlas

/-! ## References -/

/-- How an edge refers to a block. -/
def Block.reference (b : Block) : Edge := ⟨b.number, b.symbol⟩

def MachineBlock.reference (m : MachineBlock) : Edge := ⟨m.number, m.symbol⟩

def Successor.reference (s : Successor) : Edge := ⟨s.number, s.symbol⟩

namespace MachineFunction

variable {f : MachineFunction} {b : Block}

@[simp] theorem blockRecord_preds (f : MachineFunction) (printer : Option Printer) (i : Nat)
    (b : Block) :
    (f.blockRecord printer i b).machine.preds = (f.resolve b.preds).map Block.reference := rfl

theorem blockRecord_succs (f : MachineFunction) (printer : Option Printer) (i : Nat) (b : Block) :
    (f.blockRecord printer i b).machine.succs.map Successor.reference =
      (f.resolve b.succs).map Block.reference := by
  rw [blockRecord, succRecords, List.map_map]
  rfl

/-- What does not depend on the place of a block can be read off the block. -/
theorem map_blockRecords {α : Type} {printer : Option Printer} {p : BlockRecord → α}
    {q : Block → α} (h : ∀ i b, p (f.blockRecord printer i b) = q b) :
    (f.blockRecords printer).map p = f.blocks.map q := by
  apply List.ext_getElem?
  intro i
  simp only [blockRecords, List.getElem?_map, List.getElem?_mapIdx, Option.map_map,
    Function.comp_def, h]

@[simp] theorem blockRecords_reference (f : MachineFunction) (printer : Option Printer) :
    (f.blockRecords printer).map (·.machine.reference) = f.blocks.map Block.reference :=
  map_blockRecords fun _ _ => rfl

/-! ## Blocks by number -/

theorem block?_eq_some {number : Int32} (h : f.block? number = some b) :
    b ∈ f.blocks ∧ b.number = number :=
  ⟨List.mem_of_find?_eq_some h, by simpa using List.find?_some h⟩

theorem block?_eq_none {number : Int32} :
    f.block? number = none ↔ number ∉ f.blocks.map Block.number := by
  simp [block?, List.find?_eq_none]

/-- A number leads to a block with that number, if there is one. -/
theorem map_number_block? (f : MachineFunction) (number : Int32) :
    (f.block? number).map Block.number =
      if number ∈ f.blocks.map Block.number then some number else none := by
  cases hblock : f.block? number with
  | none => rw [if_neg (block?_eq_none.1 hblock), Option.map_none]
  | some t =>
      obtain ⟨ht, rfl⟩ := block?_eq_some hblock
      rw [if_pos (List.mem_map_of_mem ht), Option.map_some]

/-- A block with a number of its own is the one that this number leads to. -/
theorem block?_of_count_eq_one (hb : b ∈ f.blocks)
    (h : (f.blocks.map Block.number).count b.number = 1) : f.block? b.number = some b := by
  rw [List.count, List.countP_map, List.countP_eq_length_filter, List.length_eq_one_iff] at h
  obtain ⟨c, hc⟩ := h
  have honly : ∀ t ∈ f.blocks, t.number = b.number → t = c := by
    intro t ht hnumber
    have hmem : t ∈ f.blocks.filter ((· == b.number) ∘ Block.number) := by
      rw [List.mem_filter]
      exact ⟨ht, by simpa using hnumber⟩
    rw [hc] at hmem
    exact List.mem_singleton.1 hmem
  cases ht : f.block? b.number with
  | none => exact absurd (List.mem_map_of_mem hb) (block?_eq_none.1 ht)
  | some t =>
      obtain ⟨hmem, hnumber⟩ := block?_eq_some ht
      rw [honly t hmem hnumber, honly b hb rfl]

/-- A record finds the block that a number leads to among its own blocks. -/
theorem find?_blockRecords (f : MachineFunction) (printer : Option Printer) (number : Int32) :
    ((f.blockRecords printer).find? fun r => r.machine.number == number).map
        (·.machine.reference) = (f.block? number).map Block.reference := by
  have hrecords : (((f.blockRecords printer).map (·.machine.reference)).find?
      fun e => e.number == number) = ((f.blocks.map Block.reference).find?
      fun e => e.number == number) := by
    rw [blockRecords_reference]
  rw [List.find?_map, List.find?_map] at hrecords
  exact hrecords

/-! ## Edges -/

/-- The edges of entries have the numbers that a block has, in order. -/
theorem number_resolve (f : MachineFunction) (entries : List (Option Int32)) :
    (f.resolve entries).map Block.number =
      entries.reduceOption.filter (· ∈ f.blocks.map Block.number) := by
  rw [resolve, List.map_filterMap, List.reduceOption, List.filter_filterMap]
  refine List.filterMap_congr fun entry _ => ?_
  cases entry with
  | none => rfl
  | some number =>
      rw [Option.bind_some, map_number_block?]
      simp [Option.filter]

/-- An edge leads to the first block with its number. -/
theorem block?_of_mem_resolve {entries : List (Option Int32)} {t : Block}
    (h : t ∈ f.resolve entries) : f.block? t.number = some t := by
  rw [resolve, List.mem_filterMap] at h
  obtain ⟨entry, -, hentry⟩ := h
  obtain ⟨number, -, hblock⟩ := Option.bind_eq_some_iff.1 hentry
  rwa [(block?_eq_some hblock).2]

/-- Edges refer to a block as often as entries name it, if its number leads to it. -/
theorem count_reference (hb : f.block? b.number = some b) (entries : List (Option Int32)) :
    ((f.resolve entries).map Block.reference).count b.reference =
      entries.count (some b.number) := by
  induction entries with
  | nil => rfl
  | cons entry entries ih =>
      rw [resolve_cons, List.map_append, List.count_append, ih, List.count_cons, Nat.add_comm]
      congr 1
      rcases entry with _ | number
      · rfl
      by_cases hnumber : number = b.number
      · subst hnumber
        rw [Option.bind_some, hb]
        simp
      · have hother : (some number == some b.number) = false := by simpa using hnumber
        rw [Option.bind_some, hother]
        cases hblock : f.block? number with
        | none => rfl
        | some t =>
            have hne : ¬ t.reference = b.reference := by
              intro heq
              exact hnumber ((block?_eq_some hblock).2 ▸ congrArg Edge.number heq)
            simp [hne]

/-! ## Closed graphs -/

section

variable {printer : Option Printer} {i j : Nat} {c : Block} {r s : BlockRecord}

theorem number_edges (hb : f.blocks[i]? = some b) (hr : (f.blockRecords printer)[i]? = some r) :
    r.machine.preds.map Edge.number =
        b.preds.reduceOption.filter (· ∈ f.blocks.map Block.number) ∧
      r.machine.succs.map Successor.number =
        b.succs.reduceOption.filter (· ∈ f.blocks.map Block.number) := by
  obtain rfl := eq_blockRecord hb hr
  rw [← number_resolve, ← number_resolve, blockRecord_preds, blockRecord, succRecords,
    List.map_map, List.map_map]
  exact ⟨rfl, rfl⟩

/-- Every edge refers to the first block of the record with its number. -/
theorem find?_of_mem_edges (hb : f.blocks[i]? = some b)
    (hr : (f.blockRecords printer)[i]? = some r) {e : Edge}
    (he : e ∈ r.machine.preds ++ r.machine.succs.map Successor.reference) :
    ((f.blockRecords printer).find? fun r => r.machine.number == e.number).map
      (·.machine.reference) = some e := by
  obtain rfl := eq_blockRecord hb hr
  rw [blockRecord_preds, blockRecord_succs, ← List.map_append, List.mem_map] at he
  obtain ⟨t, ht, rfl⟩ := he
  have hblock : f.block? t.number = some t := by
    rcases List.mem_append.1 ht with ht | ht
    · exact block?_of_mem_resolve ht
    · exact block?_of_mem_resolve ht
  have hfind := f.find?_blockRecords printer t.number
  rwa [hblock] at hfind

/-- Two blocks are joined by as many edges as entries, if their numbers lead to them. -/
theorem count_edges (hb : f.blocks[i]? = some b) (hc : f.blocks[j]? = some c)
    (hr : (f.blockRecords printer)[i]? = some r) (hs : (f.blockRecords printer)[j]? = some s)
    (hbown : f.block? b.number = some b) (hcown : f.block? c.number = some c) :
    (r.machine.succs.map Successor.reference).count s.machine.reference =
        b.succs.count (some c.number) ∧
      s.machine.preds.count r.machine.reference = c.preds.count (some b.number) := by
  obtain rfl := eq_blockRecord hb hr
  obtain rfl := eq_blockRecord hc hs
  rw [blockRecord_succs, blockRecord_preds]
  exact ⟨count_reference hcown b.succs, count_reference hbown c.preds⟩

end

/-- A record has the blocks of its function in layout order, and all its edges stay among them: they
are the entries that name a block, in order and as often as they are there, and each has the symbol
of the first block of the record with its number. Hence two blocks with numbers of their own, of
which the one names the other as its successor as often as the other names it as its predecessor,
are joined by as many edges in both of their records, and a block that falls through to the next one
is among the predecessors of that. -/
theorem record_closed (a : Assembler) (f : MachineFunction) :
    let records := (a.record f).function.blocks
    let numbers := f.blocks.map Block.number
    records.map (·.machine.reference) = f.blocks.map Block.reference ∧
    (∀ (i : Nat) (b : Block) (r : BlockRecord), f.blocks[i]? = some b → records[i]? = some r →
      r.machine.preds.map Edge.number = b.preds.reduceOption.filter (· ∈ numbers) ∧
      r.machine.succs.map Successor.number = b.succs.reduceOption.filter (· ∈ numbers) ∧
      ∀ e ∈ r.machine.preds ++ r.machine.succs.map Successor.reference,
        (records.find? fun r => r.machine.number == e.number).map (·.machine.reference) = some e) ∧
    ∀ (i j : Nat) (b c : Block) (r s : BlockRecord),
      f.blocks[i]? = some b → f.blocks[j]? = some c →
      records[i]? = some r → records[j]? = some s →
      numbers.count b.number = 1 → numbers.count c.number = 1 →
      b.succs.count (some c.number) = c.preds.count (some b.number) →
      (r.machine.succs.map Successor.reference).count s.machine.reference =
        s.machine.preds.count r.machine.reference ∧
      (j = i + 1 → r.machine.canFallthrough = true → r.machine.reference ∈ s.machine.preds) := by
  intro records numbers
  refine ⟨blockRecords_reference f a.printer, ?_, ?_⟩
  · intro i b r hb hr
    obtain ⟨hpreds, hsuccs⟩ := number_edges hb hr
    exact ⟨hpreds, hsuccs, fun e he => find?_of_mem_edges hb hr he⟩
  · intro i j b c r s hb hc hr hs hbown hcown hcount
    obtain ⟨hsuccs, hpreds⟩ := count_edges hb hc hr hs
      (block?_of_count_eq_one (List.mem_of_getElem? hb) hbown)
      (block?_of_count_eq_one (List.mem_of_getElem? hc) hcown)
    constructor
    · rw [hsuccs, hpreds, hcount]
    · rintro rfl hfalls
      -- Control falls through along an edge to the next block, which so has an entry for it.
      obtain rfl := eq_blockRecord hb hr
      obtain ⟨⟨next, hnext, hentry⟩, -⟩ := (f.flagsByNumber a.printer i b).canFallthrough.1 hfalls
      obtain rfl : c = next := Option.some.inj (hc.symm.trans hnext)
      rw [← List.count_pos_iff, hpreds, ← hcount, List.count_pos_iff]
      exact hentry

/-- A switch of which two cases lead to the block placed next, and that leads back to itself. Both
blocks name each other equally often, between entries that lead nowhere. -/
def doubled : MachineFunction where
  name := "select"
  blocks := [
    { number := 4, symbol := "cases", succs := [some 2, none, some 2] },
    { number := 2, symbol := "body", preds := [some 4, some 9, some 2, some 4],
      succs := [some 2] }]

theorem record_closed_doubled :
    ∃ r s, (doubled.blockRecords none)[0]? = some r ∧ (doubled.blockRecords none)[1]? = some s ∧
      (r.machine.succs.map Successor.reference).count s.machine.reference =
        s.machine.preds.count r.machine.reference ∧ r.machine.reference ∈ s.machine.preds := by
  obtain ⟨-, -, hjoined⟩ := record_closed ⟨fun _ => none, none⟩ doubled
  obtain ⟨hcount, hfalls⟩ := hjoined 0 1 _ _ _ _ rfl rfl rfl rfl (by decide) (by decide)
    (by decide)
  exact ⟨_, _, rfl, rfl, hcount, hfalls rfl (by decide)⟩

end MachineFunction

end MachineAtlas
