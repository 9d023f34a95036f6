-- SUMMARY: When the flags on successors speak of the block that is placed next.
import Mathlib.Data.List.Forall2
import Mathlib.Data.List.Nodup
import Mathlib.Tactic.IntervalCases
import MachineAtlas.Record.Block
/-!
# Successors and the layout

An edge leads to the first block with its number. The flags of a record compare numbers with that of
the block placed next, so they speak of the next block itself exactly where an edge with its number
leads there: always in a function whose blocks have numbers of their own, but not where an earlier
block has the number of the next one.
-/
namespace MachineAtlas

/-- The block does not end open: its last instruction never goes on to the next one. -/
def Block.EndsInBarrier (b : Block) : Prop :=
  ∃ last, b.instrs.getLast? = some last ∧ last.kind ∈ [.branch, .indirectBranch, .ret, .trap]

theorem Block.endsOpen_iff (b : Block) : b.endsOpen = true ↔ ¬ b.EndsInBarrier := by
  simp only [endsOpen, EndsInBarrier]
  cases b.instrs.getLast? with
  | none => simp
  | some last => cases h : last.kind <;> simp [InstrKind.isBarrier, h]

namespace MachineFunction

variable {f : MachineFunction}

/-! ## Where edges lead -/

/-- The position of the first block with a number. -/
def position? (f : MachineFunction) (number : Int32) : Option Nat :=
  f.blocks.findIdx? fun b => b.number == number

/-- The positions of the blocks that edges lead to, without the edges that lead nowhere. -/
def targets (f : MachineFunction) (edges : List (Option Int32)) : List Nat :=
  edges.filterMap fun edge => edge.bind f.position?

theorem position?_eq_some {number : Int32} {j : Nat} :
    f.position? number = some j ↔ (∃ b, f.blocks[j]? = some b ∧ b.number = number) ∧
      ∀ k < j, ∀ c, f.blocks[k]? = some c → c.number ≠ number := by
  rw [position?, List.findIdx?_eq_some_iff_getElem]
  constructor
  · rintro ⟨hlt, hnumber, hbefore⟩
    refine ⟨⟨_, List.getElem?_eq_getElem hlt, by simpa using hnumber⟩, fun k hk c hc => ?_⟩
    obtain ⟨hklt, rfl⟩ := List.getElem?_eq_some_iff.1 hc
    simpa using hbefore k hk
  · rintro ⟨⟨b, hb, hnumber⟩, hbefore⟩
    obtain ⟨hlt, rfl⟩ := List.getElem?_eq_some_iff.1 hb
    refine ⟨hlt, by simpa using hnumber, fun k hk => ?_⟩
    simpa using hbefore k hk _ (List.getElem?_eq_getElem (Nat.lt_trans hk hlt))

/-- A block is the first with its number if no earlier one has that number. -/
theorem position?_eq_some_of_getElem? {b : Block} {j : Nat} (hb : f.blocks[j]? = some b) :
    f.position? b.number = some j ↔
      ∀ k < j, ∀ c, f.blocks[k]? = some c → c.number ≠ b.number := by
  rw [position?_eq_some, and_iff_right ⟨b, hb, rfl⟩]

theorem position?_inj {m n : Int32} {j : Nat} (hm : f.position? m = some j)
    (hn : f.position? n = some j) : m = n := by
  obtain ⟨⟨b, hb, rfl⟩, -⟩ := position?_eq_some.1 hm
  obtain ⟨⟨c, hc, rfl⟩, -⟩ := position?_eq_some.1 hn
  rw [Option.some.inj (hb.symm.trans hc)]

/-- A number that a block has is that of a first block. -/
theorem exists_position? {b : Block} (h : b ∈ f.blocks) : ∃ j, f.position? b.number = some j := by
  rw [← Option.isSome_iff_exists, position?, List.findIdx?_isSome, List.any_eq_true]
  exact ⟨b, h, beq_self_eq_true _⟩

theorem block?_eq (f : MachineFunction) (number : Int32) :
    f.block? number = (f.position? number).bind fun j => f.blocks[j]? :=
  List.find?_eq_bind_findIdx?_getElem?

theorem mem_targets {edges : List (Option Int32)} {j : Nat} :
    j ∈ f.targets edges ↔ ∃ number, some number ∈ edges ∧ f.position? number = some j := by
  simp only [targets, List.mem_filterMap, Option.bind_eq_some_iff]
  constructor
  · rintro ⟨edge, hedge, number, rfl, hposition⟩
    exact ⟨number, hedge, hposition⟩
  · rintro ⟨number, hedge, hposition⟩
    exact ⟨some number, hedge, number, rfl, hposition⟩

@[simp] theorem resolve_cons (f : MachineFunction) (edge : Option Int32)
    (edges : List (Option Int32)) :
    f.resolve (edge :: edges) = (edge.bind f.block?).toList ++ f.resolve edges := by
  cases h : edge.bind f.block? <;> simp [resolve, h]

@[simp] theorem targets_cons (f : MachineFunction) (edge : Option Int32)
    (edges : List (Option Int32)) :
    f.targets (edge :: edges) = (edge.bind f.position?).toList ++ f.targets edges := by
  cases h : edge.bind f.position? <;> simp [targets, h]

/-- Resolving edges finds the blocks at the positions that they lead to. -/
theorem forall₂_resolve (f : MachineFunction) (edges : List (Option Int32)) :
    List.Forall₂ (fun t j => f.blocks[j]? = some t ∧ some t.number ∈ edges ∧
      f.position? t.number = some j) (f.resolve edges) (f.targets edges) := by
  induction edges with
  | nil => exact .nil
  | cons edge edges ih =>
      rw [resolve_cons, targets_cons]
      refine List.rel_append ?_ (ih.imp fun t j ⟨ht, hedge, hposition⟩ =>
        ⟨ht, List.mem_cons_of_mem _ hedge, hposition⟩)
      rcases edge with _ | number
      · exact .nil
      · rw [Option.bind_some, Option.bind_some, block?_eq]
        cases hposition : f.position? number with
        | none => exact .nil
        | some j =>
            obtain ⟨⟨t, ht, rfl⟩, -⟩ := position?_eq_some.1 hposition
            rw [Option.bind_some, ht]
            exact .cons ⟨ht, List.mem_cons_self, hposition⟩ .nil

/-! ## Flags -/

/-- The record stands for the block at a position. -/
def StandsFor (f : MachineFunction) (s : Successor) (j : Nat) : Prop :=
  ∃ t, f.blocks[j]? = some t ∧ s.number = t.number ∧ s.symbol = t.symbol

/-- The flags of the record of the block at a position speak of the block placed next: a successor
is flagged where its edge leads to that block, and control falls through where some edge leads to
that block and the block does not end in a barrier. -/
structure FlagsFit (f : MachineFunction) (i : Nat) (b : Block) (r : MachineBlock) : Prop where
  layoutSuccessor : List.Forall₂
    (fun s j => f.StandsFor s j ∧ (s.layoutSuccessor = true ↔ j = i + 1)) r.succs
    (f.targets b.succs)
  canFallthrough : r.canFallthrough = true ↔
    i + 1 < f.blocks.length ∧ i + 1 ∈ f.targets b.succs ∧ ¬ b.EndsInBarrier

/-- What the flags say in any case: they compare the number of a successor with that of the block
placed next. -/
structure FlagsByNumber (f : MachineFunction) (i : Nat) (b : Block) (r : MachineBlock) : Prop where
  layoutSuccessor : List.Forall₂
    (fun s j => f.StandsFor s j ∧ some s.number ∈ b.succs ∧ f.position? s.number = some j ∧
      (s.layoutSuccessor = true ↔ ∃ next, f.blocks[i + 1]? = some next ∧ next.number = s.number))
    r.succs (f.targets b.succs)
  canFallthrough : r.canFallthrough = true ↔
    (∃ next, f.blocks[i + 1]? = some next ∧ some next.number ∈ b.succs) ∧ ¬ b.EndsInBarrier

theorem isLayoutSuccessor_iff {i : Nat} {t : Block} : f.isLayoutSuccessor i t = true ↔
    ∃ next, f.blocks[i + 1]? = some next ∧ next.number = t.number := by
  rw [isLayoutSuccessor, layoutSuccessor?, Option.any_eq_true]
  simp only [beq_iff_eq]

/-- A successor is flagged if there is an edge with the number of the block placed next. -/
theorem any_layoutSuccessor_iff {i : Nat} {b : Block} :
    (f.succRecords i b).any Successor.layoutSuccessor = true ↔
      ∃ next, f.blocks[i + 1]? = some next ∧ some next.number ∈ b.succs := by
  simp only [succRecords, List.any_map, List.any_eq_true, Function.comp_apply,
    isLayoutSuccessor_iff, resolve, List.mem_filterMap, Option.bind_eq_some_iff]
  constructor
  · rintro ⟨t, ⟨edge, hedge, number, rfl, hblock⟩, next, hnext, hnumber⟩
    have ht : t.number = number := by simpa using List.find?_some hblock
    exact ⟨next, hnext, by rwa [hnumber, ht]⟩
  · rintro ⟨next, hnext, hedge⟩
    -- The edge leads somewhere, if not to that block then to an earlier one with its number.
    have hsome : (f.block? next.number).isSome = true := by
      rw [block?, List.find?_isSome]
      exact ⟨next, List.mem_of_getElem? hnext, beq_self_eq_true _⟩
    obtain ⟨t, ht⟩ := Option.isSome_iff_exists.1 hsome
    have hnumber : t.number = next.number := by simpa using List.find?_some ht
    exact ⟨t, ⟨_, hedge, _, rfl, ht⟩, next, hnext, hnumber.symm⟩

theorem flagsByNumber (f : MachineFunction) (printer : Option Printer) (i : Nat) (b : Block) :
    f.FlagsByNumber i b (f.blockRecord printer i b).machine where
  layoutSuccessor := by
    rw [blockRecord, succRecords, List.forall₂_map_left_iff]
    refine (f.forall₂_resolve b.succs).imp fun t j ⟨ht, hedge, hposition⟩ => ?_
    exact ⟨⟨t, ht, rfl, rfl⟩, hedge, hposition, isLayoutSuccessor_iff⟩
  canFallthrough := by
    rw [blockRecord, Bool.and_eq_true, Block.endsOpen_iff, any_layoutSuccessor_iff, and_comm]

/-- Flags by number fit exactly if the edges with the number of the block placed next lead there. -/
theorem FlagsByNumber.fit_iff {i : Nat} {b : Block} {r : MachineBlock}
    (h : f.FlagsByNumber i b r) :
    f.FlagsFit i b r ↔ ∀ next, f.blocks[i + 1]? = some next → some next.number ∈ b.succs →
      f.position? next.number = some (i + 1) := by
  constructor
  · intro hfit next hnext hedge
    obtain ⟨j, hj⟩ := exists_position? (List.mem_of_getElem? hnext)
    -- The edge leads to the first block with that number, and the record for it is flagged.
    have hpairs : List.Forall₂ (fun j _ => f.position? next.number = some j → j = i + 1)
        (f.targets b.succs) r.succs := by
      refine (List.Forall₂.mp ?_ h.layoutSuccessor hfit.layoutSuccessor).flip
      rintro s j ⟨-, -, hposition, hflag⟩ ⟨-, hfits⟩ hj
      exact hfits.1 (hflag.2 ⟨next, hnext, position?_inj hj hposition⟩)
    have hfirst := ((List.forall₂_and_left _ _).1 (hpairs.imp fun j s hj => ⟨hj, trivial⟩)).1
    rw [hj, hfirst j (mem_targets.2 ⟨_, hedge, hj⟩) hj]
  · intro hleads
    refine ⟨h.layoutSuccessor.imp ?_, h.canFallthrough.trans ?_⟩
    · rintro s j ⟨hstands, hedge, hposition, hflag⟩
      refine ⟨hstands, hflag.trans ⟨?_, ?_⟩⟩
      · rintro ⟨next, hnext, hnumber⟩
        rw [← hnumber] at hposition hedge
        exact Option.some.inj (hposition.symm.trans (hleads next hnext hedge))
      · rintro rfl
        obtain ⟨t, ht, hnumber, -⟩ := hstands
        exact ⟨t, ht, hnumber.symm⟩
    · rw [← and_assoc, and_congr_left_iff]
      intro _
      constructor
      · rintro ⟨next, hnext, hedge⟩
        exact ⟨(List.getElem?_eq_some_iff.1 hnext).1,
          mem_targets.2 ⟨_, hedge, hleads next hnext hedge⟩⟩
      · rintro ⟨-, hmem⟩
        obtain ⟨number, hedge, hposition⟩ := mem_targets.1 hmem
        obtain ⟨⟨next, hnext, rfl⟩, -⟩ := position?_eq_some.1 hposition
        exact ⟨next, hnext, hedge⟩

/-! ## Records -/

theorem blockRecords_eq_some {printer : Option Printer} {i : Nat} {r : BlockRecord} :
    (f.blockRecords printer)[i]? = some r ↔
      ∃ b, f.blocks[i]? = some b ∧ f.blockRecord printer i b = r := by
  rw [blockRecords, List.getElem?_mapIdx, Option.map_eq_some_iff]

theorem eq_blockRecord {printer : Option Printer} {i : Nat} {b : Block} {r : BlockRecord}
    (hb : f.blocks[i]? = some b) (hr : (f.blockRecords printer)[i]? = some r) :
    r = f.blockRecord printer i b := by
  obtain ⟨b', hb', rfl⟩ := blockRecords_eq_some.1 hr
  rw [Option.some.inj (hb.symm.trans hb')]

/-- Where the blocks have numbers of their own, the flags of every record fit. -/
theorem flagsFit_of_nodup (printer : Option Printer)
    (h : (f.blocks.map Block.number).Nodup) (i : Nat) (b : Block) :
    f.FlagsFit i b (f.blockRecord printer i b).machine := by
  rw [(f.flagsByNumber printer i b).fit_iff]
  intro next hnext _
  refine (position?_eq_some_of_getElem? hnext).2 fun k hk c hc hnumber => ?_
  rw [List.nodup_iff_getElem?_ne_getElem?] at h
  refine h k (i + 1) hk (by simpa using (List.getElem?_eq_some_iff.1 hnext).1) ?_
  rw [List.getElem?_map, List.getElem?_map, hc, hnext, Option.map_some, Option.map_some, hnumber]

/-- The flags of a record compare numbers. They speak of the block placed next unless an edge has
the number of that block and an earlier block has it as well, which is then where the edge leads. -/
theorem flagsFit_iff (f : MachineFunction) (printer : Option Printer) {i : Nat} {b : Block}
    {r : BlockRecord} (hb : f.blocks[i]? = some b) (hr : (f.blockRecords printer)[i]? = some r) :
    f.FlagsByNumber i b r.machine ∧
    (f.FlagsFit i b r.machine ↔ ∀ next, f.blocks[i + 1]? = some next →
      some next.number ∈ b.succs → ∀ k ≤ i, ∀ c, f.blocks[k]? = some c →
        c.number ≠ next.number) := by
  obtain ⟨b', hb', rfl⟩ := blockRecords_eq_some.1 hr
  obtain rfl : b = b' := Option.some.inj (hb.symm.trans hb')
  have hnumber := f.flagsByNumber printer i b
  refine ⟨hnumber, hnumber.fit_iff.trans (forall_congr' fun next => ?_)⟩
  refine forall_congr' fun hnext => imp_congr_right fun _ => ?_
  rw [position?_eq_some_of_getElem? hnext]
  simp only [Nat.lt_succ_iff]

/-- A loop: its body leads back to itself and on to the block placed next. -/
def selfLoop : MachineFunction where
  name := "spin"
  blocks := [
    { number := 0, symbol := "entry", succs := [some 1] },
    { number := 1, symbol := "body", succs := [some 1, none, some 2] },
    { number := 2, symbol := "exit" }]

theorem flagsFit_iff_selfLoop :
    ∃ b r, selfLoop.blocks[1]? = some b ∧ (selfLoop.blockRecords none)[1]? = some r ∧
      selfLoop.FlagsFit 1 b r.machine := by
  refine ⟨_, _, rfl, rfl, ((flagsFit_iff selfLoop none rfl rfl).2.2 ?_)⟩
  rintro next hnext - k hk c hc
  obtain rfl : _ = next := Option.some.inj hnext
  interval_cases k <;> obtain rfl : _ = c := Option.some.inj hc <;> decide

/-- Two blocks with one number: the edge of the first leads back to it, not on to the second. -/
def twins : MachineFunction where
  name := "f"
  blocks := [
    { number := 1, symbol := "a", irLabel := some "a", succs := [some 1] },
    { number := 1, symbol := "b", irLabel := some "b" }]

theorem twins_not_flagsFit :
    ∃ b r, twins.blocks[0]? = some b ∧ (twins.blockRecords none)[0]? = some r ∧
      twins.targets b.succs = [0] ∧
      r.machine.succs = [{ number := 1, symbol := "a", layoutSuccessor := true }] ∧
      r.machine.canFallthrough = true ∧ ¬ twins.FlagsFit 0 b r.machine := by
  refine ⟨_, _, rfl, rfl, by decide, by decide, by decide, fun hfit => ?_⟩
  have hmem := (hfit.canFallthrough.1 (by decide)).2.1
  exact absurd hmem (by decide)

end MachineFunction
end MachineAtlas
