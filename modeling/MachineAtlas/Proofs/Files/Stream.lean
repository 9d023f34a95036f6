-- SUMMARY: Streams on ordinary files hold all that was written to them, and closing them puts it there.
import MachineAtlas.Files.Stream
import MachineAtlas.Proofs.Files.Buffered
import MachineAtlas.Proofs.Files.System
/-!
# Streams on files

A stream on an ordinary file holds all that was written to it, part of it in the file and the rest
in its buffer, and closing or dropping it puts the whole into the file. Streams on other files do
not come in between.
-/
namespace MachineAtlas

open FileSystem (Handle SameDirectories SameBut Spares Writable)

/-! ## Files as devices -/

namespace FileSystem

/-- The handle stands at the end of an ordinary file at `l`. -/
structure AtEnd (l : Location) (device : FileSystem × Handle) : Prop where
  location : device.2.location = l
  end_eq : ∃ content, device.1.node? l = some (.file content) ∧ device.2.position = content.length

/-- The bytes of the file at `l`. -/
def contentAt (l : Location) (device : FileSystem × Handle) : Bytes :=
  match device.1.node? l with
  | some (.file content) => content
  | _ => []

theorem contentAt_of_node? {l : Location} {device : FileSystem × Handle} {content : Bytes}
    (h : device.1.node? l = some (.file content)) : contentAt l device = content := by
  simp [contentAt, h]

/-- An ordinary file takes all bytes at its end. -/
theorem put_reliable (l : Location) :
    Buffered.Reliable put (AtEnd l) (contentAt l) := by
  rintro ⟨fs, h⟩ data ⟨rfl, content, hnode, hend⟩
  have hfile : fs.node? h.location ≠ some .directory := by
    rw [hnode]
    simp
  have hne : h.location ≠ [] := ne_nil_of_node? hfile
  have hafter : (fs.set h.location (.file (content ++ data))).node? h.location =
      some (.file (content ++ data)) := node?_set_self fs hne _
  exact ⟨_, put_end hnode hend data, ⟨rfl, _, hafter, rfl⟩,
    by rw [contentAt_of_node? hafter, contentAt_of_node? hnode]⟩

/-- Writes at a handle change nothing but the file that it stands in. -/
def Within (device device' : FileSystem × Handle) : Prop :=
  device'.2.location = device.2.location ∧ SameBut device.2.location device.1 device'.1

theorem put_within : Buffered.Kept put Within where
  refl _ := ⟨rfl, SameBut.refl _ _⟩
  trans h h' := ⟨h'.1.trans h.1, h.2.trans (h.1 ▸ h'.2)⟩
  put hput := sameBut_of_put hput

end FileSystem

open FileSystem (AtEnd contentAt put_reliable put_within contentAt_of_node?)

/-! ## Open files -/

namespace OpenFile

/-- The file at `l` and the buffer hold together what was written. -/
def Holds (fs : FileSystem) (file : OpenFile) (l : Location) (written : Bytes) : Prop :=
  Buffered.Holds (AtEnd l) (contentAt l) ⟨(fs, file.handle), file.pending⟩ written

variable {fs : FileSystem} {file : OpenFile} {l k : Location} {written : Bytes}

namespace Holds

/-- The file holds a front of what was written, and at most one buffer is missing. -/
theorem exists_front (h : file.Holds fs l written) :
    ∃ stored, fs.node? l = some (.file stored) ∧ stored ++ file.pending = written ∧
      file.pending.length ≤ Buffered.capacity := by
  obtain ⟨-, stored, hnode, -⟩ := h.good
  refine ⟨stored, hnode, ?_, h.pending_le⟩
  rw [← h.written_eq, contentAt_of_node? hnode]

theorem location (h : file.Holds fs l written) : file.handle.location = l := h.good.location

theorem of_spares {fs' : FileSystem} (h : file.Holds fs l written) (hspares : Spares l fs fs') :
    file.Holds fs' l written := by
  obtain ⟨⟨hlocation, stored, hnode, hend⟩, hwritten, hpending⟩ := h
  have hnode' : fs'.node? l = some (.file stored) := hspares.node?.trans hnode
  refine ⟨⟨hlocation, stored, hnode', hend⟩, ?_, hpending⟩
  rw [← hwritten, contentAt_of_node? hnode, contentAt_of_node? hnode']

theorem writeAll (h : file.Holds fs l written) (pieces : List Bytes) :
    ∃ fs' file', file.writeAll fs pieces = (fs', file', .ok ()) ∧
      file'.Holds fs' l (written ++ pieces.flatten) := by
  obtain ⟨b, hwrite, hholds⟩ := Buffered.Holds.writeAll (put_reliable l) pieces h
  refine ⟨b.device.1, ⟨b.device.2, b.pending⟩, ?_, hholds⟩
  simp only [OpenFile.writeAll, via, hwrite]
  rfl

theorem flush (h : file.Holds fs l written) :
    ∃ fs' file', file.flush fs = (fs', file', .ok ()) ∧ fs'.node? l = some (.file written) := by
  obtain ⟨b, hflush, hholds, hempty⟩ := Buffered.Holds.flush (put_reliable l) h
  obtain ⟨-, stored, hnode, -⟩ := hholds.good
  refine ⟨b.device.1, ⟨b.device.2, b.pending⟩, ?_, ?_⟩
  · simp only [OpenFile.flush, via, hflush]
    rfl
  · rw [hnode, ← hholds.written_eq, hempty, List.append_nil, contentAt_of_node? hnode]

/-- A dropped file holds all that was written. -/
theorem drop (h : file.Holds fs l written) : (file.drop fs).node? l = some (.file written) := by
  obtain ⟨fs', file', hflush, hnode⟩ := h.flush
  rw [OpenFile.drop, hflush]
  exact hnode

/-- Closing an ordinary file succeeds, and then it holds all that was written. -/
theorem close (h : file.Holds fs l written) :
    ∃ fs', file.close fs = (fs', .ok ()) ∧ fs'.node? l = some (.file written) := by
  obtain ⟨fs', file', hflush, hnode⟩ := h.flush
  exact ⟨fs', by rw [OpenFile.close, hflush], hnode⟩

end Holds

/-- Opening an ordinary file succeeds, and nothing is written to it yet. -/
theorem create_of_writable {path : String} (h : Writable fs path l) :
    ∃ fs' file, OpenFile.create fs path = (fs', .ok file) ∧ file.Holds fs' l [] ∧
      SameBut l fs fs' := by
  refine ⟨fs.set l (.file []), ⟨⟨l, 0⟩, []⟩, by rw [OpenFile.create, h.create_eq], ?_,
    SameBut.set h.node []⟩
  have hnode : (fs.set l (.file [])).node? l = some (.file []) :=
    FileSystem.node?_set_self fs h.ne_nil _
  refine ⟨⟨rfl, [], hnode, rfl⟩, ?_, Nat.zero_le _⟩
  rw [contentAt_of_node? hnode]
  rfl

/-! ## Frames of open files -/

theorem writeAll_within (fs : FileSystem) (file : OpenFile) (pieces : List Bytes) :
    (file.writeAll fs pieces).2.1.handle.location = file.handle.location ∧
      SameBut file.handle.location fs (file.writeAll fs pieces).1 :=
  put_within.writeAll ⟨(fs, file.handle), file.pending⟩ pieces

theorem flush_within (fs : FileSystem) (file : OpenFile) :
    (file.flush fs).2.1.handle.location = file.handle.location ∧
      SameBut file.handle.location fs (file.flush fs).1 :=
  put_within.flush ⟨(fs, file.handle), file.pending⟩

theorem drop_sameBut (fs : FileSystem) (file : OpenFile) :
    SameBut file.handle.location fs (file.drop fs) :=
  (flush_within fs file).2

theorem close_sameBut (fs : FileSystem) (file : OpenFile) :
    SameBut file.handle.location fs (file.close fs).1 := by
  have hflush := flush_within fs file
  unfold OpenFile.close
  split
  · rename_i heq
    rw [heq] at hflush
    exact hflush.2
  · rename_i fs' file' e heq
    rw [heq] at hflush
    have hdrop := drop_sameBut fs' file'
    rw [hflush.1] at hdrop
    exact hflush.2.trans hdrop

/-- A file that has been opened has nothing waiting for it. -/
theorem create_eq_ok {fs' : FileSystem} {path : String}
    (h : OpenFile.create fs path = (fs', .ok file)) :
    fs.create path = .ok (fs', file.handle) ∧ file.pending = [] := by
  unfold OpenFile.create at h
  split at h
  · rename_i hcreate
    cases h
    exact ⟨hcreate, rfl⟩
  · cases h

theorem create_sameBut {fs' : FileSystem} {path : String}
    (h : OpenFile.create fs path = (fs', .ok file)) :
    fs.locate path = .ok file.handle.location ∧ SameBut file.handle.location fs fs' :=
  FileSystem.sameBut_of_create (create_eq_ok h).1

theorem create_eq_error {fs' : FileSystem} {path : String} {fault : StreamFault}
    (h : OpenFile.create fs path = (fs', .error fault)) : fs' = fs := by
  unfold OpenFile.create at h
  split at h
  · cases h
  · cases h
    rfl

end OpenFile

/-! ## Records -/

namespace RecordStream

variable {fs : FileSystem} {s : RecordStream} {l : Location} {written : Bytes}

/-- Appending a value that can be written to an ordinary file succeeds. -/
theorem append_of_holds (h : s.file.Holds fs l written) (value : Json.Value) :
    ∃ fs' s', s.append fs (.ok value) = (fs', s', .ok ()) ∧
      s'.file.Holds fs' l (written ++ textBytes (value.line ++ "\n")) := by
  obtain ⟨fs', file, hwrite, hholds⟩ := h.writeAll [textBytes (value.line ++ "\n")]
  rw [List.flatten_singleton] at hholds
  exact ⟨fs', { s with file }, by simp only [append, hwrite], hholds⟩

theorem append_within (fs : FileSystem) (s : RecordStream)
    (value : Except Json.Value.KeyFault Json.Value) :
    (s.append fs value).2.1.file.handle.location = s.file.handle.location ∧
      SameBut s.file.handle.location fs (s.append fs value).1 := by
  cases value with
  | error key => exact ⟨rfl, SameBut.refl _ _⟩
  | ok value => exact OpenFile.writeAll_within fs s.file [textBytes (value.line ++ "\n")]

theorem create_of_writable {path : String} (h : Writable fs path l) :
    ∃ fs' s, RecordStream.create fs path = (fs', .ok s) ∧ s.file.Holds fs' l [] ∧
      SameBut l fs fs' := by
  obtain ⟨fs', file, hcreate, hholds, hsame⟩ := OpenFile.create_of_writable h
  exact ⟨fs', ⟨path, file⟩, by rw [RecordStream.create, hcreate]; rfl, hholds, hsame⟩

theorem create_eq_ok {fs' : FileSystem} {path : String}
    (h : RecordStream.create fs path = (fs', .ok s)) :
    OpenFile.create fs path = (fs', .ok s.file) := by
  simp only [RecordStream.create] at h
  rcases hcreate : OpenFile.create fs path with ⟨fs₁, (fault | file)⟩
  · rw [hcreate] at h
    cases h
  · rw [hcreate] at h
    cases h
    rfl

/-- Opening the records changes nothing but the file that their path leads to, also if it fails. -/
theorem create_spares {path : String} (hpath : ∀ k, fs.locate path = .ok k → k ≠ l) :
    Spares l fs (RecordStream.create fs path).1 ∧
      ∀ s, (RecordStream.create fs path).2 = .ok s → s.file.handle.location ≠ l := by
  simp only [RecordStream.create]
  rcases hcreate : OpenFile.create fs path with ⟨fs₁, (fault | file)⟩
  · rw [OpenFile.create_eq_error hcreate]
    exact ⟨Spares.refl l fs, fun s hs => by cases hs⟩
  · obtain ⟨hlocate, hsame⟩ := OpenFile.create_sameBut hcreate
    have hne := hpath _ hlocate
    refine ⟨Spares.of_sameBut hsame hne.symm, ?_⟩
    rintro _ ⟨⟩
    exact hne

end RecordStream

/-! ## Notes -/

namespace NoteStream

/-- The notes, if there are any, go to another place. -/
def Avoids (s : NoteStream) (l : Location) : Prop := ∀ file ∈ s.file?, file.handle.location ≠ l

variable {fs : FileSystem} {s : NoteStream} {l : Location}

theorem writeNotes_spares (h : s.Avoids l) (fs : FileSystem) (function : String)
    (notes : List String) :
    (s.writeNotes fs function notes).2.1.Avoids l ∧
      Spares l fs (s.writeNotes fs function notes).1 := by
  obtain ⟨file?⟩ := s
  cases file? with
  | none => exact ⟨h, Spares.refl l fs⟩
  | some file =>
      obtain ⟨hlocation, hsame⟩ :=
        OpenFile.writeAll_within fs file (notes.flatMap (noteLine function))
      have hne := h file rfl
      refine ⟨?_, Spares.of_sameBut hsame hne.symm⟩
      rintro file' hfile'
      cases hfile'
      exact fun heq => hne (hlocation.symm.trans heq)

theorem drop_spares (h : s.Avoids l) (fs : FileSystem) : Spares l fs (s.drop fs) := by
  obtain ⟨file?⟩ := s
  cases file? with
  | none => exact Spares.refl l fs
  | some file => exact Spares.of_sameBut (OpenFile.drop_sameBut fs file) (h file rfl).symm

theorem close_spares (h : s.Avoids l) (fs : FileSystem) : Spares l fs (s.close fs).1 := by
  obtain ⟨file?⟩ := s
  cases file? with
  | none => exact Spares.refl l fs
  | some file => exact Spares.of_sameBut (OpenFile.close_sameBut fs file) (h file rfl).symm

/-- Opening the notes changes nothing but the file that their path leads to, also if it fails. -/
theorem create_spares {path : String} (hpath : ∀ k, fs.locate path = .ok k → k ≠ l)
    (stamp : String) :
    Spares l fs (NoteStream.create fs stamp path).1 ∧
      ∀ s, (NoteStream.create fs stamp path).2 = .ok s → s.Avoids l := by
  unfold NoteStream.create
  split
  · rename_i fs₁ fault hcreate
    rw [OpenFile.create_eq_error hcreate]
    exact ⟨Spares.refl l fs, fun s hs => by cases hs⟩
  · rename_i fs₁ file hcreate
    obtain ⟨hlocate, hopened⟩ := OpenFile.create_sameBut hcreate
    have hne := hpath _ hlocate
    -- The header is written as soon as the file is open, so the file may change twice.
    obtain ⟨hlocation, hheader⟩ := OpenFile.writeAll_within fs₁ file (header stamp)
    split
    · rename_i hwrite
      rw [hwrite] at hlocation hheader
      refine ⟨Spares.of_sameBut (hopened.trans hheader) hne.symm, ?_⟩
      rintro _ ⟨⟩ file' ⟨⟩
      rwa [hlocation]
    · rename_i fs₂ file' fault hwrite
      rw [hwrite] at hlocation hheader
      have hdrop := OpenFile.drop_sameBut fs₂ file'
      rw [hlocation] at hdrop
      exact ⟨Spares.of_sameBut (hopened.trans (hheader.trans hdrop)) hne.symm,
        fun s hs => by cases hs⟩

/-- The notes are dropped, or an ordinary file at `k` holds them. -/
inductive Keeps (fs : FileSystem) : NoteStream → Option Location → Bytes → Prop where
  | discarding (written : Bytes) : Keeps fs discarding none written
  | file {file : OpenFile} {k : Location} {written : Bytes} (h : file.Holds fs k written) :
      Keeps fs ⟨some file⟩ (some k) written

/-- The lines of the notes on a function. -/
def noteBytes (function : String) (notes : List String) : Bytes :=
  (notes.flatMap (noteLine function)).flatten

namespace Keeps

variable {k? : Option Location} {written : Bytes}

theorem avoids (h : s.Keeps fs k? written) (hne : ∀ k ∈ k?, k ≠ l) : s.Avoids l := by
  cases h with
  | discarding => exact fun _ hfile => by cases hfile
  | file hholds =>
      rintro file' hfile'
      cases hfile'
      rw [hholds.location]
      exact hne _ rfl

theorem of_spares {fs' : FileSystem} (h : s.Keeps fs k? written)
    (hspares : ∀ k ∈ k?, Spares k fs fs') : s.Keeps fs' k? written := by
  cases h with
  | discarding => exact .discarding _
  | file hholds => exact .file (hholds.of_spares (hspares _ rfl))

/-- Notes that are kept are all written and counted. -/
theorem writeNotes (h : s.Keeps fs k? written) (function : String) (notes : List String) :
    ∃ fs' s', s.writeNotes fs function notes =
        (fs', s', .ok (if k?.isSome then notes.length else 0)) ∧
      s'.Keeps fs' k? (written ++ noteBytes function notes) := by
  cases h with
  | discarding => exact ⟨fs, NoteStream.discarding, rfl, .discarding _⟩
  | file hholds =>
      obtain ⟨fs', file', hwrite, hholds'⟩ := hholds.writeAll (notes.flatMap (noteLine function))
      exact ⟨fs', ⟨some file'⟩, by simp [NoteStream.writeNotes, hwrite, Except.map], .file hholds'⟩

theorem close (h : s.Keeps fs k? written) :
    ∃ fs', s.close fs = (fs', .ok ()) ∧ ∀ k ∈ k?, fs'.node? k = some (.file written) := by
  cases h with
  | discarding => exact ⟨fs, rfl, fun _ hk => by cases hk⟩
  | file hholds =>
      obtain ⟨fs', hclose, hnode⟩ := hholds.close
      refine ⟨fs', hclose, ?_⟩
      rintro k hk
      cases hk
      exact hnode

theorem drop (h : s.Keeps fs k? written) :
    ∀ k ∈ k?, (s.drop fs).node? k = some (.file written) := by
  cases h with
  | discarding => exact fun _ hk => by cases hk
  | file hholds =>
      rintro k hk
      cases hk
      exact hholds.drop

end Keeps

/-- Notes can be begun in an ordinary file, with the header as their first line. -/
theorem create_of_writable {path : String} {k : Location} (h : Writable fs path k)
    (stamp : String) :
    ∃ fs' s, NoteStream.create fs stamp path = (fs', .ok s) ∧
      s.Keeps fs' (some k) (header stamp).flatten := by
  obtain ⟨fs₁, file, hcreate, hholds, -⟩ := OpenFile.create_of_writable h
  obtain ⟨fs₂, file', hwrite, hholds'⟩ := hholds.writeAll (header stamp)
  exact ⟨fs₂, ⟨some file'⟩, by simp only [NoteStream.create, hcreate, hwrite], .file hholds'⟩

end NoteStream

end MachineAtlas
