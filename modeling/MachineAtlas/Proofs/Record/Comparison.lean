-- SUMMARY: Records of two functions agree if they agree place by place.
import MachineAtlas.Proofs.Record.Graph
/-!
# Comparing records

When the records of two functions agree. Records stand in the order of the blocks, so it is enough
that they agree place by place. What they say of edges is what the numbers of the entries lead to,
and so are the notes on entries.
-/
namespace MachineAtlas.MachineFunction

variable {f g : MachineFunction}

/-! ## Place by place -/

theorem mem_blockRecords {printer : Option Printer} {r : BlockRecord} :
    r ∈ f.blockRecords printer ↔
      ∃ i b, f.blocks[i]? = some b ∧ f.blockRecord printer i b = r := by
  simp only [List.mem_iff_getElem?, blockRecords_eq_some]

/-- The records of two functions agree in a part of them if they do at every place. -/
theorem map_blockRecords_eq {α : Type} {p q : BlockRecord → α} {printer printer' : Option Printer}
    (h : List.Forall₂ (fun b c =>
      ∀ i, p (f.blockRecord printer i b) = q (g.blockRecord printer' i c)) f.blocks g.blocks) :
    (f.blockRecords printer).map p = (g.blockRecords printer').map q := by
  unfold blockRecords
  -- The tail of a list starts at a later place, so the induction is over all places to start from.
  suffices hfrom : ∀ n, (f.blocks.mapIdx fun i => f.blockRecord printer (i + n)).map p =
      (g.blocks.mapIdx fun i => g.blockRecord printer' (i + n)).map q from hfrom 0
  generalize f.blocks = bs, g.blocks = cs at h
  induction h with
  | nil => exact fun _ => rfl
  | cons hhead _ ih =>
      intro n
      simp only [List.mapIdx_cons, List.map_cons, hhead, Nat.add_assoc, Nat.add_comm 1, ih]

/-! ## What numbers lead to -/

/-- How a record refers to the block that a number leads to. -/
def reference? (f : MachineFunction) (number : Int32) : Option Edge :=
  (f.block? number).map Block.reference

@[simp] theorem isSome_reference? (f : MachineFunction) (number : Int32) :
    (f.reference? number).isSome = (f.block? number).isSome :=
  Option.isSome_map

/-- A number is looked up among the references to the blocks. -/
theorem reference?_eq (f : MachineFunction) (number : Int32) :
    f.reference? number = (f.blocks.map Block.reference).find? fun e => e.number == number := by
  rw [reference?, block?, List.find?_map]
  rfl

theorem reference_resolve (f : MachineFunction) (entries : List (Option Int32)) :
    (f.resolve entries).map Block.reference =
      entries.filterMap fun entry => entry.bind f.reference? := by
  unfold resolve
  rw [List.map_filterMap]
  apply List.filterMap_congr
  intro entry _
  cases entry <;> rfl

theorem predRecords_eq (f : MachineFunction) (b : Block) :
    f.predRecords b = b.preds.filterMap fun entry => entry.bind f.reference? :=
  f.reference_resolve b.preds

/-- The record of a successor, by the reference to it. -/
theorem succRecords_eq (f : MachineFunction) (i : Nat) (b : Block) :
    f.succRecords i b = (b.succs.filterMap fun entry => entry.bind f.reference?).map fun e =>
      ⟨e.number, e.symbol, (f.layoutSuccessor? i).any fun next => next.number == e.number⟩ := by
  rw [← reference_resolve, List.map_map]
  rfl

/-- Where numbers lead to blocks of the same names, blocks have the same notes. -/
theorem blockNotes_congr (h : g.reference? = f.reference?) : g.blockNotes = f.blockNotes := by
  have hedge : g.edgeNote? = f.edgeNote? := by
    funext side block position entry
    cases entry with
    | none => rfl
    | some target => simp only [edgeNote?, ← isSome_reference?, h]
  have hedges (side : Side) (block : Int32) (entries : List (Option Int32)) (position : Nat) :
      g.edgeNotes side block position entries = f.edgeNotes side block position entries := by
    induction entries generalizing position with
    | nil => rfl
    | cons entry entries ih => simp only [edgeNotes, hedge, ih]
  funext b
  simp only [blockNotes, hedges]

end MachineAtlas.MachineFunction
