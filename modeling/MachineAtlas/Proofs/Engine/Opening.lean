-- SUMMARY: A run fails to start at the first of its outputs that cannot be opened.
import MachineAtlas.Proofs.Engine
import MachineAtlas.Proofs.Files.Overlay
/-!
# Outputs that cannot be opened

The notes are opened before the records, and a run fails to start at the first of its outputs that
cannot be opened. By then nothing has changed but the file of the notes, which is left with its
header.
-/
namespace MachineAtlas.Engine

open Buffered (capacity)
open FileSystem (SameDirectories Spares Writable)

variable {fs fs' : FileSystem} {stamp : String} {config : Config}

/-- The first output of a configuration that cannot be opened, that of the notes being tried before
that of the records. -/
def unopened? (fs : FileSystem) (config : Config) : Option String :=
  (config.diagnostics.toList ++ [config.output]).find? fun path => ! (fs.create path).isOk

/-- Nothing has changed but the file of the notes, which has its header and nothing else. -/
structure HeaderOnly (fs : FileSystem) (stamp : String) (config : Config) (fs' : FileSystem) :
    Prop where
  spares : ∀ l, notesAt fs config ≠ some l → Spares l fs fs'
  header : ∀ path ∈ config.diagnostics, ∀ l, Writable fs path l →
    fs'.node? l = some (.file (NoteStream.header stamp).flatten)

theorem unopened?_of_notes {path : String} {io : IoFault} (hpath : config.diagnostics = some path)
    (hcreate : fs.create path = .error io) : unopened? fs config = some path := by
  simp [unopened?, hpath, hcreate, Except.isOk, Except.toBool]

theorem unopened?_of_notes_isOk (h : ∀ path ∈ config.diagnostics, (fs.create path).isOk = true) :
    unopened? fs config =
      if (fs.create config.output).isOk then none else some config.output := by
  cases hpath : config.diagnostics with
  | none => cases hout : (fs.create config.output).isOk <;> simp [unopened?, hpath, hout]
  | some path =>
      cases hout : (fs.create config.output).isOk <;> simp [unopened?, hpath, h path hpath, hout]

/-! ## Opening -/

/-- Only a header that does not fit into the buffer can fail to be written. -/
theorem writeHeader_eq_error {handle : FileSystem.Handle} {file : OpenFile} {fault : StreamFault}
    (h : OpenFile.writeAll fs ⟨handle, []⟩ (NoteStream.header stamp) = (fs', file, .error fault)) :
    capacity ≤ (NoteStream.header stamp).flatten.length ∧ ∃ io, fault = .unwritten io := by
  simp only [OpenFile.writeAll, OpenFile.via] at h
  rcases hwrite : Buffered.writeAll FileSystem.put ⟨(fs, handle), []⟩ (NoteStream.header stamp)
    with ⟨b, (io | u)⟩
  all_goals
    rw [hwrite] at h
    cases h
  refine ⟨?_, io, rfl⟩
  by_contra hfits
  rw [Buffered.writeAll_eq_of_lt _ (by simpa using hfits)] at hwrite
  cases hwrite

/-- Notes can be begun if their file can be opened, unless their header is too long to wait. -/
theorem openNotes_cases (fs : FileSystem) (stamp : String) (config : Config) :
    (∃ path io, config.diagnostics = some path ∧ fs.create path = .error io ∧
      openNotes fs stamp config = (fs, .error (.unopened path io))) ∨
    (∀ path ∈ config.diagnostics, (fs.create path).isOk = true) ∧
      ((∃ fs' notes, openNotes fs stamp config = (fs', .ok notes)) ∨
        capacity ≤ (NoteStream.header stamp).flatten.length ∧
          ∃ fs' io, openNotes fs stamp config = (fs', .error (.unwritten io))) := by
  cases hpath : config.diagnostics with
  | none =>
      have hdropped : openNotes fs stamp config = (fs, .ok .discarding) := by rw [openNotes, hpath]
      exact .inr ⟨fun _ h => (by cases h), .inl ⟨fs, .discarding, hdropped⟩⟩
  | some path =>
      simp only [openNotes, hpath, NoteStream.create, OpenFile.create]
      rcases hcreate : fs.create path with io | ⟨fs₁, handle⟩
      · exact .inl ⟨path, io, rfl, hcreate, rfl⟩
      refine .inr ⟨?_, ?_⟩
      · rintro _ ⟨⟩
        rw [hcreate]
        rfl
      rcases hwrite : OpenFile.writeAll fs₁ ⟨handle, []⟩ (NoteStream.header stamp)
        with ⟨fs₂, file, (fault | u)⟩
      · obtain ⟨hlong, io, rfl⟩ := writeHeader_eq_error hwrite
        simp only [hwrite]
        exact .inr ⟨hlong, _, io, rfl⟩
      · simp only [hwrite]
        exact .inl ⟨_, _, rfl⟩

/-- Notes that are dropped as soon as they have been begun leave their header. -/
theorem headerOnly_drop {notes : NoteStream}
    (hnotes : openNotes fs stamp config = (fs', .ok notes)) :
    HeaderOnly fs stamp config (notes.drop fs') where
  spares l hl := by
    have hdiag : ∀ path ∈ config.diagnostics, ∀ k, fs.locate path = .ok k → k ≠ l := by
      rintro path hpath k hk rfl
      exact hl (notesAt_eq_some.2 ⟨path, hpath, hk⟩)
    obtain ⟨havoids, hspares⟩ := openNotes_spares hnotes hdiag
    exact hspares.trans (NoteStream.drop_spares havoids fs')
  header path hpath l hl := by
    obtain ⟨fs₁, notes₁, hnotes₁, hkeeps⟩ := openNotes_of_writable stamp fun p hp =>
      ⟨l, Option.some.inj (hpath.symm.trans hp) ▸ hl⟩
    rw [hnotes] at hnotes₁
    cases hnotes₁
    exact hkeeps.drop l (notesAt_eq_some.2 ⟨path, hpath, hl.locate_eq⟩)

/-! ## Starting -/

variable {demangle : Demangler} {printer : Printer}

/-- Once the notes have been begun, it is the records that decide. -/
theorem start_of_begun {notes : NoteStream} (henabled : config.enabled = true)
    (hnotes : openNotes fs stamp config = (fs', .ok notes)) :
    start fs stamp config demangle printer = match fs'.create config.output with
      | .ok (fs'', handle) => (fs'', .ok
          { config, streams? := some { records := ⟨config.output, ⟨handle, []⟩⟩, notes },
            demangle, printer, summary := {} })
      | .error io => (notes.drop fs', .error (.unopened config.output io)) := by
  simp only [start, henabled, if_true, openStreams, hnotes, RecordStream.create, OpenFile.create]
  rcases fs'.create config.output with io | ⟨fs'', handle⟩
  · rfl
  · rfl

/-- A run that is to record starts if all its outputs can be opened. Otherwise it fails for the first
that cannot be, or because its notes have too long a header. -/
theorem start_cases (henabled : config.enabled = true) (fs : FileSystem) (stamp : String)
    (demangle : Demangler) (printer : Printer) :
    (unopened? fs config = none ∧ ∃ fs' e, start fs stamp config demangle printer = (fs', .ok e)) ∨
    (∃ path fs' io, unopened? fs config = some path ∧
      start fs stamp config demangle printer = (fs', .error (.unopened path io)) ∧
      (path ∈ config.diagnostics → fs' = fs) ∧
      (path ∉ config.diagnostics → HeaderOnly fs stamp config fs')) ∨
    capacity ≤ (NoteStream.header stamp).flatten.length ∧
      ∃ fs' io, start fs stamp config demangle printer = (fs', .error (.unwritten io)) := by
  have hfails {fs' : FileSystem} {fault : StreamFault}
      (hnotes : openNotes fs stamp config = (fs', .error fault)) :
      start fs stamp config demangle printer = (fs', .error fault) := by
    simp only [start, henabled, if_true, openStreams, hnotes]
    rfl
  rcases openNotes_cases fs stamp config with
    ⟨path, io, hpath, hcreate, hnotes⟩ | ⟨hdiag, ⟨fs₁, notes, hnotes⟩ | ⟨hlong, fs', io, hnotes⟩⟩
  · exact .inr (.inl ⟨path, fs, io, unopened?_of_notes hpath hcreate, hfails hnotes, fun _ => rfl,
      fun hother => absurd hpath hother⟩)
  · have hsame := openNotes_sameDirectories fs stamp config
    rw [hnotes] at hsame
    -- Beginning the notes makes no difference to whether the records can be opened.
    have hout := hsame.isOk_create config.output
    rw [unopened?_of_notes_isOk hdiag, ← hout, start_of_begun henabled hnotes]
    rcases hrecords : fs₁.create config.output with io | ⟨fs₂, handle⟩
    · refine .inr (.inl ⟨config.output, notes.drop fs₁, io, rfl, rfl, fun hpath => ?_,
        fun _ => headerOnly_drop hnotes⟩)
      rw [hdiag _ hpath, hrecords] at hout
      cases hout
    · exact .inl ⟨rfl, _, _, rfl⟩
  · exact .inr (.inr ⟨hlong, fs', io, hfails hnotes⟩)

end MachineAtlas.Engine
