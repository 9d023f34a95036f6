-- SUMMARY: Frame summaries count the objects, and stop at the largest number there is.
import Mathlib
import MachineAtlas.Record.Assembly
/-!
# Summaries of frames

What the summary of a frame says of its objects, however many there are. Counts and sizes that are
too large for their place stand at the largest value there is, and the facts beside them stay true.
-/
namespace MachineAtlas

/-! ## Numbers that are capped -/

@[simp] theorem toNat_cappedCount (n : Nat) : (cappedCount n).toNat = min n (2 ^ 32 - 1) := by
  have hsize : UInt32.size = 2 ^ 32 := rfl
  unfold cappedCount
  split
  · rename_i hlt
    rw [UInt32.toNat_ofNat_of_lt' hlt, Nat.min_eq_left (by omega)]
  · rename_i hge
    rw [Nat.min_eq_right (by omega)]
    rfl

theorem cappedCount_le {m n : Nat} (h : m ≤ n) : cappedCount m ≤ cappedCount n := by
  rw [UInt32.le_iff_toNat_le, toNat_cappedCount, toNat_cappedCount]
  exact min_le_min_right _ h

/-- The cap is not so low that there would seem to be nothing. -/
theorem cappedCount_pos {n : Nat} : 0 < cappedCount n ↔ 0 < n := by
  rw [UInt32.lt_iff_toNat_lt, toNat_cappedCount, UInt32.toNat_zero]
  omega

@[simp] theorem toInt_cappedSize (n : UInt64) :
    (cappedSize n).toInt = (min n.toNat (2 ^ 63 - 1) : Nat) := by
  have hpow : Nat.pow 2 63 = 2 ^ 63 := rfl
  unfold cappedSize
  split
  · rename_i hlt
    rw [Int64.toInt_ofNat_of_lt hlt, Nat.min_eq_left (by omega)]
  · rename_i hge
    rw [Nat.min_eq_right (by omega)]
    rfl

theorem cappedSize_nonneg (n : UInt64) : 0 ≤ cappedSize n := by
  rw [Int64.le_iff_toInt_le, toInt_cappedSize, Int64.toInt_zero]
  exact Int.natCast_nonneg _

/-! ## Facts on objects -/

namespace FrameSummary

/-- The summary says how many objects a frame has and of which kinds, and how large it is. -/
structure Tells (s : FrameSummary) (f : Frame) : Prop where
  numObjects : s.numObjects.toNat = min f.objects.length (2 ^ 32 - 1)
  numFixedObjects : s.numFixedObjects.toNat = min (f.objects.countP StackObject.fixed) (2 ^ 32 - 1)
  numFixedObjects_le : s.numFixedObjects ≤ s.numObjects
  hasStackObjects : s.hasStackObjects = true ↔ 0 < s.numObjects
  hasVariadicObjects : s.hasVariadicObjects = true ↔ ∃ o ∈ f.objects, o.size = none
  pos_of_variadic : s.hasVariadicObjects = true → 0 < s.numObjects
  stackSize : s.stackSize.toInt = (min f.stackSize.toNat (2 ^ 63 - 1) : Nat)
  stackSize_nonneg : 0 ≤ s.stackSize

/-- The summary tells of no objects that another one does not tell of. -/
structure Within (s t : FrameSummary) : Prop where
  numObjects : s.numObjects ≤ t.numObjects
  numFixedObjects : s.numFixedObjects ≤ t.numFixedObjects
  hasStackObjects : s.hasStackObjects = true → t.hasStackObjects = true
  hasVariadicObjects : s.hasVariadicObjects = true → t.hasVariadicObjects = true

end FrameSummary

namespace Frame

/-- There is an object if one is counted, and one is counted if there is one, cap or no cap. -/
theorem hasStackObjects_summary (f : Frame) :
    f.summary.hasStackObjects = true ↔ 0 < f.summary.numObjects := by
  simp only [summary, cappedCount_pos, List.length_pos_iff, Bool.not_eq_true',
    List.isEmpty_eq_false_iff]

theorem hasVariadicObjects_summary (f : Frame) :
    f.summary.hasVariadicObjects = true ↔ ∃ o ∈ f.objects, o.size = none := by
  simp only [summary, List.any_eq_true, Option.isNone_iff_eq_none]

theorem tells_summary (f : Frame) : f.summary.Tells f where
  numObjects := toNat_cappedCount f.objects.length
  numFixedObjects := by
    rw [List.countP_eq_length_filter]
    exact toNat_cappedCount _
  numFixedObjects_le := cappedCount_le (List.length_filter_le _ f.objects)
  hasStackObjects := f.hasStackObjects_summary
  hasVariadicObjects := f.hasVariadicObjects_summary
  pos_of_variadic := by
    intro hvariadic
    obtain ⟨o, ho, -⟩ := f.hasVariadicObjects_summary.1 hvariadic
    exact cappedCount_pos.2 (List.length_pos_of_mem ho)
  stackSize := toInt_cappedSize f.stackSize
  stackSize_nonneg := cappedSize_nonneg f.stackSize

/-- The order of the objects has no part in the summary. -/
theorem summary_eq_of_perm (f : Frame) {objects : List StackObject} (h : objects.Perm f.objects) :
    { f with objects }.summary = f.summary := by
  have hempty : objects.isEmpty = f.objects.isEmpty := h.isEmpty_eq
  have hany : (objects.any fun o => o.size.isNone) = f.objects.any fun o => o.size.isNone :=
    h.any_eq
  simp only [summary, hempty, hany, h.length_eq, (h.filter StackObject.fixed).length_eq]

/-- A frame that has further objects, in whatever places, has no smaller summary. -/
theorem summary_within (f : Frame) {objects : List StackObject} (h : f.objects.Sublist objects) :
    f.summary.Within { f with objects }.summary := by
  have hcount : f.summary.numObjects ≤ { f with objects }.summary.numObjects :=
    cappedCount_le h.length_le
  refine ⟨hcount, cappedCount_le (h.filter StackObject.fixed).length_le, ?_, ?_⟩
  · rw [hasStackObjects_summary, hasStackObjects_summary]
    intro hpos
    exact UInt32.lt_of_lt_of_le hpos hcount
  · rw [hasVariadicObjects_summary, hasVariadicObjects_summary]
    rintro ⟨o, ho, hsize⟩
    exact ⟨o, h.subset ho, hsize⟩

/-- A summary counts the objects and the fixed ones among them up to the largest count, and its other
facts agree with the counts also where these are capped. It is the same for the objects in any order,
and one more object takes nothing back. -/
theorem summary_tallies (f : Frame) :
    f.summary.Tells f ∧
    (∀ objects : List StackObject, objects.Perm f.objects →
      { f with objects }.summary = f.summary) ∧
    ∀ o : StackObject, f.summary.Within { f with objects := f.objects ++ [o] }.summary := by
  refine ⟨f.tells_summary, fun objects hperm => f.summary_eq_of_perm hperm, fun o => ?_⟩
  exact f.summary_within (List.sublist_append_left f.objects [o])

/-- A frame that is larger than any signed size, with an argument and a part of variable size. -/
def sprawling : Frame where
  objects := [{ offset := 16, size := some 8, fixed := true }, { offset := -24 }]
  stackSize := 0xFFFFFFFFFFFFFFFF

theorem summary_tallies_sprawling :
    sprawling.summary.stackSize.toInt = 2 ^ 63 - 1 ∧
      { sprawling with objects := sprawling.objects.reverse }.summary = sprawling.summary := by
  obtain ⟨htells, hperm, -⟩ := summary_tallies sprawling
  exact ⟨htells.stackSize, hperm _ (List.reverse_perm _)⟩

end Frame

end MachineAtlas
