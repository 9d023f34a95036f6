-- SUMMARY: What is left of two writers on one file, byte by byte.
import MachineAtlas.Proofs.Files.Stream
/-!
# Two writers on one file

Handles on one file do not know of each other. Where two of them have written from the start of the
file, each byte is that of one of them at its place, and what the longer one wrote beyond the end of
the other is there.
-/
namespace MachineAtlas

open Buffered (Takes Passes capacity)

namespace FileSystem

/-! ## Bytes over bytes -/

theorem overlay_eq {content : Bytes} {p : Nat} (h : p ≤ content.length) (data : Bytes) :
    overlay content p data = content.take p ++ (data ++ content.drop (p + data.length)) := by
  simp [overlay, Nat.sub_eq_zero_of_le h]

@[simp] theorem length_overlay {content : Bytes} {p : Nat} (h : p ≤ content.length) (data : Bytes) :
    (overlay content p data).length = max content.length (p + data.length) := by
  rw [overlay_eq h, List.length_append, List.length_append, List.length_take, List.length_drop]
  omega

/-- A byte before or behind the data is as before, and the rest are those of the data. -/
theorem getElem?_overlay {content : Bytes} {p : Nat} (h : p ≤ content.length) (data : Bytes)
    (i : Nat) :
    (overlay content p data)[i]? =
      if p ≤ i ∧ i < p + data.length then data[i - p]? else content[i]? := by
  have hlength : (content.take p).length = p := by
    rw [List.length_take]
    omega
  rw [overlay_eq h]
  by_cases hbefore : i < p
  · rw [List.getElem?_append_left (by omega), List.getElem?_take, if_pos hbefore, if_neg (by omega)]
  rw [List.getElem?_append_right (by omega), hlength]
  by_cases hinside : i < p + data.length
  · rw [List.getElem?_append_left (by omega), if_pos (by omega)]
  · rw [List.getElem?_append_right (by omega), List.getElem?_drop, if_neg (by omega)]
    congr 1
    omega

/-- Data is put down piece by piece. -/
theorem overlay_append {content : Bytes} {p : Nat} (h : p ≤ content.length) (data more : Bytes) :
    overlay (overlay content p data) (p + data.length) more = overlay content p (data ++ more) := by
  have hnext : p + data.length ≤ (overlay content p data).length := by
    rw [length_overlay h]
    omega
  -- Byte by byte: the pieces follow each other, so each place is that of one of them or of none.
  apply List.ext_getElem?
  intro i
  rw [getElem?_overlay hnext, getElem?_overlay h, getElem?_overlay h, List.getElem?_append,
    List.length_append]
  by_cases hinside : p ≤ i ∧ i < p + (data.length + more.length)
  · rw [if_pos hinside]
    by_cases hfirst : i < p + data.length
    · rw [if_neg (by omega), if_pos (by omega), if_pos (by omega)]
    · rw [if_pos (by omega), if_neg (by omega)]
      congr 1
      omega
  · rw [if_neg (by omega), if_neg (by omega), if_neg hinside]

/-! ## Two writers -/

/-- What two writers have left of which one wrote `a` and the other `b`, each from the start. Where
both wrote, a byte is that of one of them, and beyond the end of one it is that of the other. -/
structure Overlaid (content a b : Bytes) : Prop where
  either : ∀ i : Nat, content[i]? = a[i]? ∨ content[i]? = b[i]?
  beyond_left : ∀ i : Nat, a.length ≤ i → content[i]? = b[i]?
  beyond_right : ∀ i : Nat, b.length ≤ i → content[i]? = a[i]?

namespace Overlaid

variable {content a b : Bytes}

protected theorem empty : Overlaid [] [] [] :=
  ⟨fun _ => .inl rfl, fun _ _ => rfl, fun _ _ => rfl⟩

protected theorem symm (h : Overlaid content a b) : Overlaid content b a :=
  ⟨fun i => (h.either i).symm, h.beyond_right, h.beyond_left⟩

theorem length_eq (h : Overlaid content a b) : content.length = max a.length b.length := by
  apply Nat.le_antisymm
  · have hend : content[max a.length b.length]? = none := by
      rw [h.beyond_left _ (Nat.le_max_left _ _)]
      exact List.getElem?_eq_none (Nat.le_max_right _ _)
    exact List.getElem?_eq_none_iff.mp hend
  · -- At the end of the content neither of them has a byte left.
    have hleft : a.length ≤ content.length ∨ b.length ≤ content.length := by
      rcases h.either content.length with heq | heq
      all_goals
        rw [List.getElem?_eq_none (Nat.le_refl _), eq_comm, List.getElem?_eq_none_iff] at heq
      · exact .inl heq
      · exact .inr heq
    rcases hleft with hle | hle
    · have hend := h.beyond_left content.length hle
      rw [List.getElem?_eq_none (Nat.le_refl _), eq_comm, List.getElem?_eq_none_iff] at hend
      omega
    · have hend := h.beyond_right content.length hle
      rw [List.getElem?_eq_none (Nat.le_refl _), eq_comm, List.getElem?_eq_none_iff] at hend
      omega

/-- One of the writers goes on writing. -/
theorem write (h : Overlaid content a b) (data : Bytes) :
    Overlaid (overlay content a.length data) (a ++ data) b := by
  have hle : a.length ≤ content.length := by
    rw [h.length_eq]
    omega
  refine ⟨?_, ?_, ?_⟩
  · intro i
    rw [getElem?_overlay hle, List.getElem?_append]
    by_cases hinside : a.length ≤ i ∧ i < a.length + data.length
    · left
      rw [if_pos hinside, if_neg (by omega)]
    · rw [if_neg hinside]
      by_cases hbefore : i < a.length
      · rw [if_pos hbefore]
        exact h.either i
      · exact .inr (h.beyond_left i (by omega))
  · intro i hi
    rw [List.length_append] at hi
    rw [getElem?_overlay hle, if_neg (by omega)]
    exact h.beyond_left i (by omega)
  · intro i hi
    rw [getElem?_overlay hle, List.getElem?_append]
    -- The other writer has nothing here, so before the data it is what this one wrote earlier.
    by_cases hbefore : i < a.length
    · rw [if_neg (by omega), if_pos hbefore]
      exact h.beyond_right i hi
    · by_cases hinside : i < a.length + data.length
      · rw [if_pos (by omega), if_neg hbefore]
      · rw [if_neg (by omega), if_neg hbefore, h.beyond_right i hi,
          List.getElem?_eq_none (by omega), List.getElem?_eq_none (by omega)]

/-- If one has written nothing, all is from the other. -/
theorem eq_right (h : Overlaid content [] b) : content = b :=
  List.ext_getElem? fun i => h.beyond_left i (Nat.zero_le i)

end Overlaid

/-! ## Files as devices for two -/

/-- Writes at a handle in an ordinary file put their bytes down from where it stands. -/
theorem takes_file {device device' : FileSystem × Handle} {taken content : Bytes}
    (h : Takes put device taken device')
    (hnode : device.1.node? device.2.location = some (.file content))
    (hle : device.2.position ≤ content.length) :
    device'.2 = ⟨device.2.location, device.2.position + taken.length⟩ ∧
      device'.1.node? device.2.location =
        some (.file (overlay content device.2.position taken)) := by
  induction h generalizing content with
  | nothing device =>
      refine ⟨rfl, ?_⟩
      rw [hnode, overlay_eq hle, List.nil_append, List.length_nil, Nat.add_zero,
        List.take_append_drop]
  | @write device next last data rest hput _ ih =>
      obtain ⟨fs, handle⟩ := device
      have hroot : handle.location ≠ [] :=
        ne_nil_of_node? (ne_fixed (.inr ⟨_, hnode⟩) .directory rfl)
      simp only [put, hnode] at hput
      cases hput
      have hnext := node?_set_self fs hroot (.file (overlay content handle.position data))
      have hle' : handle.position + data.length ≤
          (overlay content handle.position data).length := by
        rw [length_overlay hle]
        exact Nat.le_max_right _ _
      obtain ⟨hhandle, hlast⟩ := ih hnext hle'
      rw [overlay_append hle] at hlast
      refine ⟨?_, hlast⟩
      rw [hhandle, List.length_append, Nat.add_assoc]

/-- An operation on a buffer before an ordinary file succeeds. -/
theorem passes_file {b b' : Buffered (FileSystem × Handle)} {added content : Bytes}
    {r : Except IoFault Unit} (h : Passes put b added b' r)
    (hnode : b.device.1.node? b.device.2.location = some (.file content))
    (hle : b.device.2.position ≤ content.length) :
    r = .ok () ∧ ∃ taken, taken ++ b'.pending = b.pending ++ added ∧
      b'.device.2 = ⟨b.device.2.location, b.device.2.position + taken.length⟩ ∧
      b'.device.1.node? b.device.2.location =
        some (.file (overlay content b.device.2.position taken)) := by
  obtain ⟨taken, htakes, heq⟩ := h.takes
  obtain ⟨hhandle, hafter⟩ := takes_file htakes hnode hle
  refine ⟨?_, taken, heq, hhandle, hafter⟩
  cases hr : r with
  | ok u => rfl
  | error e =>
      -- A file takes whatever bytes it is given.
      obtain ⟨data, -, hrefused⟩ := h.refused e hr
      rcases hdevice : b'.device with ⟨fs, handle⟩
      rw [hdevice] at hhandle hafter hrefused
      obtain rfl : handle = _ := hhandle
      simp only [put, hafter] at hrefused
      cases hrefused

end FileSystem

open FileSystem (Overlaid overlay)

namespace OpenFile

variable {fs : FileSystem} {file : OpenFile} {l : Location}
  {delivered written content other : Bytes}

/-- The file at `l` has got `delivered` from this writer, who wrote `written` so far. Little stays
in the buffer as a whole. -/
structure Wrote (file : OpenFile) (l : Location) (delivered written : Bytes) : Prop where
  handle_eq : file.handle = ⟨l, delivered.length⟩
  written_eq : delivered ++ file.pending = written
  little : written.length < capacity → delivered = []

theorem wrote_of_create {fs' : FileSystem} {path : String}
    (h : OpenFile.create fs path = (fs', .ok file)) : file.Wrote file.handle.location [] [] := by
  obtain ⟨hcreate, hpending⟩ := create_eq_ok h
  obtain ⟨-, hposition, -⟩ := FileSystem.create_cases hcreate
  refine ⟨?_, hpending, fun _ => rfl⟩
  rw [List.length_nil, ← hposition]

namespace Wrote

/-- What a buffer has room for is not passed on, whatever it is that has been opened. -/
theorem writeAll_of_lt (h : file.Wrote l delivered written) (pieces : List Bytes)
    (hfits : (written ++ pieces.flatten).length < capacity) (fs : FileSystem) :
    delivered = [] ∧ ∃ file', file.writeAll fs pieces = (fs, file', .ok ()) ∧
      file'.Wrote l [] (written ++ pieces.flatten) := by
  obtain ⟨handle, pending⟩ := file
  obtain ⟨rfl, rfl, hlittle⟩ := h
  rw [List.length_append] at hfits
  have hnone : delivered = [] := hlittle (Nat.lt_of_le_of_lt (Nat.le_add_right _ _) hfits)
  subst hnone
  refine ⟨rfl, ⟨⟨l, 0⟩, pending ++ pieces.flatten⟩, ?_, rfl, rfl, fun _ => rfl⟩
  simp only [OpenFile.writeAll, via]
  rw [Buffered.writeAll_eq_of_lt _ hfits]
  rfl

/-- A writer goes on writing to a file that it shares. -/
theorem writeAll (h : file.Wrote l delivered written)
    (hnode : fs.node? l = some (.file content)) (hover : Overlaid content delivered other)
    (pieces : List Bytes) :
    ∃ fs' file' content' delivered', file.writeAll fs pieces = (fs', file', .ok ()) ∧
      file'.Wrote l delivered' (written ++ pieces.flatten) ∧
      fs'.node? l = some (.file content') ∧ Overlaid content' delivered' other := by
  -- Little stays in the buffer as a whole. Of more, any part may have been passed on.
  by_cases hfits : (written ++ pieces.flatten).length < capacity
  · obtain ⟨rfl, file', hwrite, hwrote⟩ := h.writeAll_of_lt pieces hfits fs
    exact ⟨fs, file', content, [], hwrite, hwrote, hnode, hover⟩
  obtain ⟨handle, pending⟩ := file
  obtain ⟨rfl, rfl, hlittle⟩ := h
  have hle : delivered.length ≤ content.length := by
    rw [hover.length_eq]
    omega
  obtain ⟨done, -, hall, hpasses⟩ :=
    Buffered.writeAll_passes FileSystem.put ⟨(fs, ⟨l, delivered.length⟩), pending⟩ pieces
  obtain ⟨hok, taken, heq, hhandle, hafter⟩ := FileSystem.passes_file hpasses hnode hle
  rw [hall hok] at heq
  refine ⟨_, _, _, delivered ++ taken, Prod.ext rfl (Prod.ext rfl ?_), ⟨?_, ?_, ?_⟩, hafter,
    hover.write taken⟩
  · simp only [OpenFile.writeAll, via, hok]
    rfl
  · rw [List.length_append]
    exact hhandle
  · rw [List.append_assoc, List.append_assoc]
    exact congrArg _ heq
  · intro hlt
    exact absurd hlt hfits

/-- A writer who closes a file that it shares puts down what has waited until then. -/
theorem close (h : file.Wrote l delivered written) (hnode : fs.node? l = some (.file content))
    (hover : Overlaid content delivered other) :
    ∃ fs', file.close fs = (fs', .ok ()) ∧
      fs'.node? l = some (.file (overlay content delivered.length file.pending)) := by
  obtain ⟨handle, pending⟩ := file
  obtain ⟨rfl, -, -⟩ := h
  have hle : delivered.length ≤ content.length := by
    rw [hover.length_eq]
    omega
  obtain ⟨hpasses, hempty⟩ :=
    Buffered.flush_passes FileSystem.put ⟨(fs, ⟨l, delivered.length⟩), pending⟩
  obtain ⟨hok, taken, heq, -, hafter⟩ := FileSystem.passes_file hpasses hnode hle
  rw [hempty hok, List.append_nil, List.append_nil] at heq
  subst heq
  rcases hflush : Buffered.flush FileSystem.put ⟨(fs, ⟨l, delivered.length⟩), taken⟩ with ⟨b, r⟩
  rw [hflush] at hok hafter
  cases hok
  refine ⟨b.device.1, ?_, hafter⟩
  simp only [OpenFile.close, OpenFile.flush, via, hflush]
  rfl

end Wrote

end OpenFile

/-- The header of the notes waits to be written, if it is short. -/
theorem NoteStream.create_wrote {fs fs' : FileSystem} {stamp path : String} {s : NoteStream}
    (h : NoteStream.create fs stamp path = (fs', .ok s))
    (hfits : (header stamp).flatten.length < capacity) :
    ∃ file, s = ⟨some file⟩ ∧ fs.create path = .ok (fs', file.handle) ∧
      file.Wrote file.handle.location [] (header stamp).flatten := by
  unfold NoteStream.create at h
  split at h
  · cases h
  · rename_i fs₁ file hcreate
    have hopened := OpenFile.wrote_of_create hcreate
    obtain ⟨-, file', hwrite, hwrote⟩ := hopened.writeAll_of_lt (header stamp) hfits fs₁
    simp only [hwrite] at h
    cases h
    have hhandle : file'.handle = file.handle := hwrote.handle_eq.trans hopened.handle_eq.symm
    refine ⟨file', rfl, ?_, ?_⟩
    · rw [hhandle]
      exact (OpenFile.create_eq_ok hcreate).1
    · rw [hhandle]
      exact hwrote

end MachineAtlas
