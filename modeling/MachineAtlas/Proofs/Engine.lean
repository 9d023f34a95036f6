-- SUMMARY: A run leaves the lines of its records in order, and loses none however it ends.
import Mathlib
import MachineAtlas.Engine
import MachineAtlas.Proofs.Files.Lines
import MachineAtlas.Proofs.Files.Stream
/-!
# Runs of the engine

What a run leaves in its files. One call appends one line of records, whatever becomes of its notes,
so a run leaves the lines of its calls in order, and loses none of them however it ends.
-/
namespace MachineAtlas.Engine

open FileSystem (SameBut SameDirectories Spares Writable)
open Lines (lineBytes)

/-! ## One call -/

/-- The line of the record of a function. -/
def recordLine (a : Assembler) (f : MachineFunction) : Bytes := lineBytes Record.codec (a.record f)

/-- The file at `l` and the buffer before it hold together what was recorded, and no note goes
there. -/
def Holds (fs : FileSystem) (e : Engine) (l : Location) (recorded : Bytes) : Prop :=
  ∃ streams, e.streams? = some streams ∧ streams.records.file.Holds fs l recorded ∧
    streams.notes.Avoids l

variable {fs : FileSystem} {e : Engine} {l : Location} {recorded : Bytes}

theorem append_recordLine {s : RecordStream} (h : s.file.Holds fs l recorded) (a : Assembler)
    (f : MachineFunction) :
    ∃ fs' s', s.append fs (.ok (Record.codec.write (a.record f))) = (fs', s', .ok ()) ∧
      s'.file.Holds fs' l (recorded ++ recordLine a f) ∧ SameBut l fs fs' := by
  obtain ⟨fs', s', happend, hholds⟩ :=
    RecordStream.append_of_holds h (Record.codec.write (a.record f))
  have hwithin := RecordStream.append_within fs s (.ok (Record.codec.write (a.record f)))
  rw [happend, h.location] at hwithin
  rw [textBytes_append, textBytes_newline] at hholds
  exact ⟨fs', s', happend, hholds, hwithin.2⟩

/-- A call adds the line of its function to what was recorded and counts it, whatever becomes of the
notes, and makes records as before. -/
theorem Holds.inspect (h : e.Holds fs l recorded) (f : MachineFunction) :
    (e.inspect fs f).2.1.Holds (e.inspect fs f).1 l (recorded ++ recordLine e.assembler f) ∧
      (e.inspect fs f).2.1.assembler = e.assembler ∧
      (e.inspect fs f).2.1.summary.recordsWritten = e.summary.recordsWritten + 1 := by
  obtain ⟨streams, hstreams, hholds, havoids⟩ := h
  obtain ⟨fs₁, records, happend, hholds₁, -⟩ := append_recordLine hholds e.assembler f
  obtain ⟨havoids₂, hspares⟩ := NoteStream.writeNotes_spares havoids fs₁ f.name
    ((e.assembler.notes f).map Note.message)
  simp only [Engine.inspect, hstreams, happend]
  -- Whether the notes fail or not, they leave the record that was appended before them.
  rcases hnotes : streams.notes.writeNotes fs₁ f.name ((e.assembler.notes f).map Note.message)
    with ⟨fs₂, notes, (fault | written)⟩
  all_goals
    rw [hnotes] at havoids₂ hspares
    exact ⟨⟨_, rfl, hholds₁.of_spares hspares, havoids₂⟩, rfl, rfl⟩

/-- At every moment the file holds a front of what was recorded, and at most one buffer of it is
missing. -/
theorem Holds.exists_front (h : e.Holds fs l recorded) :
    ∃ stored missing, fs.node? l = some (.file stored) ∧ stored ++ missing = recorded ∧
      missing.length ≤ Buffered.capacity := by
  obtain ⟨streams, -, hholds, -⟩ := h
  obtain ⟨stored, hnode, hwritten, hle⟩ := hholds.exists_front
  exact ⟨stored, _, hnode, hwritten, hle⟩

/-- A run that is dropped leaves all that was recorded. -/
theorem Holds.drop (h : e.Holds fs l recorded) :
    (e.drop fs).node? l = some (.file recorded) := by
  obtain ⟨streams, hstreams, hholds, havoids⟩ := h
  simp only [Engine.drop, hstreams]
  exact (NoteStream.drop_spares havoids _).node?.trans hholds.drop

/-- A run that is finished leaves all that was recorded, also if its notes cannot be closed. -/
theorem Holds.finish (h : e.Holds fs l recorded) :
    (e.finish fs).1.node? l = some (.file recorded) := by
  obtain ⟨streams, hstreams, hholds, havoids⟩ := h
  have hspares := NoteStream.close_spares havoids fs
  simp only [Engine.finish, hstreams]
  rcases hclose : streams.notes.close fs with ⟨fs₁, (fault | u)⟩
  all_goals
    rw [hclose] at hspares
    have hholds₁ := hholds.of_spares hspares
  -- If the notes cannot be closed, the records are dropped, and that flushes them too.
  · exact hholds₁.drop
  · obtain ⟨fs₂, hrecords, hnode⟩ := hholds₁.close
    simp only [RecordStream.close, hrecords]
    exact hnode

/-! ## All calls -/

/-- Inspects functions in order, going on after those that cannot be inspected. -/
def inspectAll (fs : FileSystem) (e : Engine) : List MachineFunction → FileSystem × Engine
  | [] => (fs, e)
  | f :: rest =>
    let (fs, e, _) := e.inspect fs f
    inspectAll fs e rest

/-- Calls in a row add the lines of their functions in order. -/
theorem Holds.inspectAll (h : e.Holds fs l recorded) (functions : List MachineFunction) :
    (inspectAll fs e functions).2.Holds (inspectAll fs e functions).1 l
        (recorded ++ functions.flatMap (recordLine e.assembler)) ∧
      (inspectAll fs e functions).2.summary.recordsWritten =
        e.summary.recordsWritten + functions.length := by
  induction functions generalizing fs e recorded with
  | nil => simpa [Engine.inspectAll] using h
  | cons f rest ih =>
      obtain ⟨hholds, hassembler, hcount⟩ := h.inspect f
      obtain ⟨hrest, hcounts⟩ := ih hholds
      rw [hassembler, List.append_assoc] at hrest
      rw [hcount] at hcounts
      exact ⟨hrest, hcounts.trans (by rw [List.length_cons]; omega)⟩

/-! ## Starting -/

/-- Opening the notes changes nothing but the file that they go to, also if it fails. -/
theorem openNotes_frame {config : Config}
    (hdiag : ∀ path ∈ config.diagnostics, ∀ k, fs.locate path = .ok k → k ≠ l) (stamp : String) :
    Spares l fs (openNotes fs stamp config).1 ∧
      ∀ notes, (openNotes fs stamp config).2 = .ok notes → notes.Avoids l := by
  unfold openNotes
  split
  · refine ⟨Spares.refl l fs, ?_⟩
    rintro _ ⟨⟩ file ⟨⟩
  · rename_i path hpath
    exact NoteStream.create_spares (hdiag path hpath) stamp

theorem openNotes_spares {stamp : String} {config : Config} {fs' : FileSystem} {notes : NoteStream}
    (h : openNotes fs stamp config = (fs', .ok notes))
    (hdiag : ∀ path ∈ config.diagnostics, ∀ k, fs.locate path = .ok k → k ≠ l) :
    notes.Avoids l ∧ Spares l fs fs' := by
  obtain ⟨hspares, havoids⟩ := openNotes_frame hdiag stamp
  rw [h] at hspares havoids
  exact ⟨havoids notes rfl, hspares⟩

/-- Opening the notes leaves every path leading where it led. -/
theorem openNotes_sameDirectories (fs : FileSystem) (stamp : String) (config : Config) :
    SameDirectories fs (openNotes fs stamp config).1 := by
  -- The notes go to one place at most, so there is one that they do not go to.
  obtain ⟨l, hl⟩ : ∃ l, ∀ path ∈ config.diagnostics, ∀ k, fs.locate path = .ok k → k ≠ l := by
    rcases config.diagnostics with _ | path
    · exact ⟨[], fun _ h => by cases h⟩
    · rcases hlocate : fs.locate path with fault | k
      · refine ⟨[], ?_⟩
        rintro _ ⟨⟩ m hm
        rw [hlocate] at hm
        cases hm
      · refine ⟨k ++ [""], ?_⟩
        rintro _ ⟨⟩ m hm heq
        rw [hlocate] at hm
        cases hm
        simp at heq
  exact (openNotes_frame hl stamp).1.toSameDirectories

/-- A run that has been started has opened the notes and then a file for the records. -/
theorem start_eq_ok {fs' : FileSystem} {stamp : String} {config : Config} {demangle : Demangler}
    {printer : Printer} (henabled : config.enabled = true)
    (hstart : start fs stamp config demangle printer = (fs', .ok e)) :
    ∃ fs₁ notes records, openNotes fs stamp config = (fs₁, .ok notes) ∧
      OpenFile.create fs₁ config.output = (fs', .ok records.file) ∧
      e = { config, streams? := some { records, notes }, demangle, printer, summary := {} } := by
  rcases hnotes : openNotes fs stamp config with ⟨fs₁, (fault | notes)⟩
  · simp [start, henabled, openStreams, hnotes, Except.map] at hstart
  rcases hrecords : RecordStream.create fs₁ config.output with ⟨fs₂, (fault | records)⟩
  · simp [start, henabled, openStreams, hnotes, hrecords, Except.map] at hstart
  · simp only [start, henabled, if_true, openStreams, hnotes, hrecords, Except.map, Prod.mk.injEq,
      Except.ok.injEq] at hstart
    obtain ⟨rfl, rfl⟩ := hstart
    exact ⟨fs₁, notes, records, rfl, RecordStream.create_eq_ok hrecords, rfl⟩

theorem start_sameDirectories {fs' : FileSystem} {stamp : String} {config : Config}
    {demangle : Demangler} {printer : Printer} (henabled : config.enabled = true)
    (hstart : start fs stamp config demangle printer = (fs', .ok e)) : SameDirectories fs fs' := by
  obtain ⟨fs₁, notes, records, hnotes, hcreate, -⟩ := start_eq_ok henabled hstart
  have hsame := openNotes_sameDirectories fs stamp config
  rw [hnotes] at hsame
  exact hsame.trans (OpenFile.create_sameBut hcreate).2.sameDirectories

/-- Records can be begun in an ordinary file that the notes do not go to. -/
theorem start_of_writable {stamp : String} {config : Config} {fs' : FileSystem} {notes : NoteStream}
    (henabled : config.enabled = true) (hout : Writable fs config.output l)
    (hdiag : ∀ path ∈ config.diagnostics, ∀ k, fs.locate path = .ok k → k ≠ l)
    (hnotes : openNotes fs stamp config = (fs', .ok notes)) (demangle : Demangler)
    (printer : Printer) :
    ∃ fs'' records, start fs stamp config demangle printer = (fs'', .ok
        { config, streams? := some { records, notes }, demangle, printer, summary := {} }) ∧
      records.file.Holds fs'' l [] ∧ SameBut l fs' fs'' := by
  obtain ⟨-, hspares⟩ := openNotes_spares hnotes hdiag
  obtain ⟨fs'', records, hcreate, hholds, hsame⟩ :=
    RecordStream.create_of_writable (hout.of_sameDirectories hspares.toSameDirectories)
  refine ⟨fs'', records, ?_, hholds, hsame⟩
  simp [start, henabled, openStreams, hnotes, hcreate, Except.map]

/-- A run that has been started has recorded nothing yet. -/
theorem start_holds {fs' : FileSystem} {stamp : String} {config : Config} {demangle : Demangler}
    {printer : Printer} (henabled : config.enabled = true)
    (hstart : start fs stamp config demangle printer = (fs', .ok e))
    (hout : Writable fs config.output l)
    (hdiag : ∀ path ∈ config.diagnostics, ∀ k, fs.locate path = .ok k → k ≠ l) :
    e.Holds fs' l [] ∧
      e.assembler = ⟨demangle, if config.prettyPrintInstrs then some printer else none⟩ := by
  obtain ⟨fs₁, notes, -, hnotes, -, -⟩ := start_eq_ok henabled hstart
  obtain ⟨fs₂, records, hstart', hholds, -⟩ :=
    start_of_writable henabled hout hdiag hnotes demangle printer
  rw [hstart] at hstart'
  cases hstart'
  exact ⟨⟨_, rfl, hholds, (openNotes_spares hnotes hdiag).1⟩, rfl⟩

/-! ## Nothing is lost -/

/-- A run whose records go to an ordinary file, apart from its notes, starts if its notes can be
begun. Each call then adds one line, which depends on the configuration, the demangler, the printer
and its function alone, and counts it even if the notes fail. Between any two calls the file lacks
at most 8192 bytes at its end, and it lacks none after the run, whether that was finished, failed to
be finished or was dropped. -/
theorem records_complete {fs fs₁ : FileSystem} {stamp : String} {config : Config} {l : Location}
    {notes : NoteStream} (demangle : Demangler) (printer : Printer)
    (henabled : config.enabled = true) (hout : Writable fs config.output l)
    (hdiag : ∀ path ∈ config.diagnostics, ∀ k, fs.locate path = .ok k → k ≠ l)
    (hnotes : openNotes fs stamp config = (fs₁, .ok notes)) :
    ∃ fs₂ e, start fs stamp config demangle printer = (fs₂, .ok e) ∧
      ∀ functions : List MachineFunction,
        let line := recordLine ⟨demangle, if config.prettyPrintInstrs then some printer else none⟩
        let fs₃ := (inspectAll fs₂ e functions).1
        let e₃ := (inspectAll fs₂ e functions).2
        (∀ done, done <+: functions → ∃ stored missing,
          (inspectAll fs₂ e done).1.node? l = some (.file stored) ∧
          stored ++ missing = done.flatMap line ∧ missing.length ≤ 8192) ∧
        e₃.summary.recordsWritten = functions.length ∧
        (e₃.finish fs₃).1.node? l = some (.file (functions.flatMap line)) ∧
        (e₃.drop fs₃).node? l = some (.file (functions.flatMap line)) := by
  obtain ⟨fs₂, records, hstart, hholds, -⟩ :=
    start_of_writable henabled hout hdiag hnotes demangle printer
  have havoids := (openNotes_spares hnotes hdiag).1
  refine ⟨fs₂, _, hstart, fun functions => ?_⟩
  have hbegun : Holds fs₂ ⟨config, some ⟨records, notes⟩, demangle, printer, {}⟩ l [] :=
    ⟨_, rfl, hholds, havoids⟩
  have hrun := hbegun.inspectAll
  obtain ⟨hall, hcount⟩ := hrun functions
  exact ⟨fun done _ => (hrun done).1.exists_front, hcount.trans (Nat.zero_add _), hall.finish,
    hall.drop⟩

/-- A path beside a full device that no notes can be written to. -/
theorem full_output : Writable ⟨"/", [(["d"], .full)]⟩ "r" ["r"] := ⟨by cbv, by decide, .inl rfl⟩

theorem full_apart : ∀ path ∈ some "d", ∀ k,
    FileSystem.locate ⟨"/", [(["d"], .full)]⟩ path = .ok k → k ≠ ["r"] := by
  have hdiag : FileSystem.locate ⟨"/", [(["d"], .full)]⟩ "d" = .ok ["d"] := by cbv
  rintro path hpath k hk
  cases hpath
  rw [hdiag] at hk
  cases hk
  decide

/-- The header waits in the buffer, so the device is opened without failure. -/
theorem openNotes_full :
    openNotes ⟨"/", [(["d"], .full)]⟩ "" { output := "r", diagnostics := some "d" } =
      (⟨"/", [(["d"], .full)]⟩,
        .ok ⟨some ⟨⟨["d"], 0⟩, textBytes "# frameprobe diagnostics (started )\n"⟩⟩) := by
  cbv

/-- Nothing can be written to the device that the notes go to, and still the record is there. -/
theorem records_complete_full :
    ∃ fs e, start ⟨"/", [(["d"], .full)]⟩ "" { output := "r", diagnostics := some "d" }
        (fun _ => none) Instr.listing = (fs, .ok e) ∧
      ((inspectAll fs e [default]).2.finish (inspectAll fs e [default]).1).1.node? ["r"] =
        some (.file (recordLine ⟨fun _ => none, none⟩ default)) := by
  obtain ⟨fs, e, hstart, hrun⟩ := records_complete (fun _ => none) Instr.listing rfl full_output
    full_apart openNotes_full
  obtain ⟨-, -, hfinish, -⟩ := hrun [default]
  rw [List.flatMap_singleton] at hfinish
  exact ⟨fs, e, hstart, hfinish⟩

/-! ## Runs without failures -/

/-- Inspects functions in order, up to the first that cannot be inspected. -/
def inspectEach (fs : FileSystem) (e : Engine) :
    List MachineFunction → FileSystem × Engine × Except StreamFault Unit
  | [] => (fs, e, .ok ())
  | f :: rest =>
    match e.inspect fs f with
    | (fs, e, .error fault) => (fs, e, .error fault)
    | (fs, e, .ok _) => inspectEach fs e rest

/-- A whole run over functions: it is started, inspects each of them, and is finished. It is dropped
where a function cannot be inspected. -/
def run (fs : FileSystem) (stamp : String) (config : Config) (demangle : Demangler)
    (printer : Printer) (functions : List MachineFunction) :
    FileSystem × Except StreamFault RunSummary :=
  match start fs stamp config demangle printer with
  | (fs, .error fault) => (fs, .error fault)
  | (fs, .ok e) =>
    match inspectEach fs e functions with
    | (fs, e, .error fault) => (e.drop fs, .error fault)
    | (fs, e, .ok ()) => e.finish fs

/-- The lines of the notes on a function. -/
def noteLines (a : Assembler) (f : MachineFunction) : Bytes :=
  NoteStream.noteBytes f.name ((a.notes f).map Note.message)

/-- The counters after a function whose record and notes have been written, the notes only if they
are not dropped. -/
def counted (a : Assembler) (keepsNotes : Bool) (s : RunSummary) (f : MachineFunction) :
    RunSummary where
  functionsInspected := s.functionsInspected + 1
  recordsWritten := s.recordsWritten + 1
  diagnosticsWritten := s.diagnosticsWritten + if keepsNotes then (a.notes f).length else 0

/-- Records are held at `l`, and notes are dropped or held elsewhere at `k`. -/
def Keeps (fs : FileSystem) (e : Engine) (l : Location) (k? : Option Location)
    (recorded noted : Bytes) : Prop :=
  ∃ streams, e.streams? = some streams ∧ streams.records.file.Holds fs l recorded ∧
    streams.notes.Keeps fs k? noted ∧ ∀ k ∈ k?, k ≠ l

namespace Keeps

variable {k? : Option Location} {noted : Bytes}

/-- A call succeeds and adds its record and its notes. -/
theorem inspect (h : e.Keeps fs l k? recorded noted) (f : MachineFunction) :
    ∃ fs' e', e.inspect fs f = (fs', e', .ok true) ∧
      e'.Keeps fs' l k? (recorded ++ recordLine e.assembler f) (noted ++ noteLines e.assembler f) ∧
      e'.assembler = e.assembler ∧ e'.summary = counted e.assembler k?.isSome e.summary f ∧
      SameDirectories fs fs' := by
  obtain ⟨streams, hstreams, hholds, hkeeps, hne⟩ := h
  obtain ⟨fs₁, records, happend, hholds₁, hsame⟩ := append_recordLine hholds e.assembler f
  have hkeeps₁ := hkeeps.of_spares fun k hk => Spares.of_sameBut hsame (hne k hk)
  obtain ⟨fs₂, notes, hwrite, hkeeps₂⟩ :=
    hkeeps₁.writeNotes f.name ((e.assembler.notes f).map Note.message)
  have hspares := (NoteStream.writeNotes_spares (hkeeps₁.avoids hne) fs₁ f.name
    ((e.assembler.notes f).map Note.message)).2
  rw [hwrite] at hspares
  simp only [Engine.inspect, hstreams, happend, hwrite]
  refine ⟨_, _, rfl, ⟨_, rfl, hholds₁.of_spares hspares, hkeeps₂, hne⟩, rfl, ?_,
    hsame.sameDirectories.trans hspares.toSameDirectories⟩
  rw [counted, List.length_map]

/-- All calls of a run succeed. -/
theorem inspectEach (h : e.Keeps fs l k? recorded noted) (functions : List MachineFunction) :
    ∃ fs' e', inspectEach fs e functions = (fs', e', .ok ()) ∧
      e'.Keeps fs' l k? (recorded ++ functions.flatMap (recordLine e.assembler))
        (noted ++ functions.flatMap (noteLines e.assembler)) ∧
      e'.summary = functions.foldl (counted e.assembler k?.isSome) e.summary ∧
      SameDirectories fs fs' := by
  induction functions generalizing fs e recorded noted with
  | nil => exact ⟨fs, e, rfl, by simpa using h, rfl, SameDirectories.refl fs⟩
  | cons f rest ih =>
      obtain ⟨fs₁, e₁, hinspect, hkeeps, hassembler, hsummary, hsame⟩ := h.inspect f
      obtain ⟨fs₂, e₂, hrest, hkeeps', hsummary', hsame'⟩ := ih hkeeps
      rw [hassembler, List.append_assoc, List.append_assoc] at hkeeps'
      rw [hassembler, hsummary] at hsummary'
      exact ⟨fs₂, e₂, by simp only [Engine.inspectEach, hinspect, hrest], hkeeps', hsummary',
        hsame.trans hsame'⟩

/-- Finishing the run succeeds and leaves both files whole. -/
theorem finish (h : e.Keeps fs l k? recorded noted) :
    ∃ fs', e.finish fs = (fs', .ok e.summary) ∧ fs'.node? l = some (.file recorded) ∧
      (∀ k ∈ k?, fs'.node? k = some (.file noted)) ∧ SameDirectories fs fs' := by
  obtain ⟨streams, hstreams, hholds, hkeeps, hne⟩ := h
  have hspares := NoteStream.close_spares (hkeeps.avoids hne) fs
  obtain ⟨fs₁, hnotes, hnoted⟩ := hkeeps.close
  rw [hnotes] at hspares
  have hholds₁ := hholds.of_spares hspares
  have hsame := OpenFile.close_sameBut fs₁ streams.records.file
  obtain ⟨fs₂, hrecords, hrecorded⟩ := hholds₁.close
  rw [hrecords, hholds₁.location] at hsame
  refine ⟨fs₂, ?_, hrecorded, fun k hk => ?_,
    hspares.toSameDirectories.trans hsame.sameDirectories⟩
  · simp only [Engine.finish, hstreams, hnotes, RecordStream.close, hrecords]
  · rw [hsame.node? k (hne k hk)]
    exact hnoted k hk

/-- Dropping the run leaves both files whole too. -/
theorem drop (h : e.Keeps fs l k? recorded noted) :
    (e.drop fs).node? l = some (.file recorded) ∧
      ∀ k ∈ k?, (e.drop fs).node? k = some (.file noted) := by
  obtain ⟨streams, hstreams, hholds, hkeeps, hne⟩ := h
  have hholds' : e.Holds fs l recorded := ⟨streams, hstreams, hholds, hkeeps.avoids hne⟩
  have hsame := OpenFile.drop_sameBut fs streams.records.file
  rw [hholds.location] at hsame
  have hkeeps₁ := hkeeps.of_spares fun k hk => Spares.of_sameBut hsame (hne k hk)
  refine ⟨hholds'.drop, ?_⟩
  simp only [Engine.drop, hstreams]
  exact hkeeps₁.drop

end Keeps

/-- Where the notes of a configuration go. -/
def notesAt (fs : FileSystem) (config : Config) : Option Location :=
  config.diagnostics.bind fun path => (fs.locate path).toOption

theorem notesAt_eq_some {config : Config} :
    notesAt fs config = some l ↔ ∃ path ∈ config.diagnostics, fs.locate path = .ok l := by
  rw [notesAt, Option.bind_eq_some_iff]
  refine exists_congr fun path => and_congr_right fun _ => ?_
  cases fs.locate path with
  | error fault => simp [Except.toOption]
  | ok k => simp [Except.toOption]

/-- Notes can be begun if they are dropped or go to an ordinary file. -/
theorem openNotes_of_writable {config : Config} (stamp : String)
    (hdiag : ∀ path ∈ config.diagnostics, ∃ k, Writable fs path k) :
    ∃ fs' notes, openNotes fs stamp config = (fs', .ok notes) ∧
      notes.Keeps fs' (notesAt fs config) (NoteStream.header stamp).flatten := by
  cases hpath : config.diagnostics with
  | none =>
      refine ⟨fs, NoteStream.discarding, by rw [openNotes, hpath], ?_⟩
      rw [notesAt, hpath]
      exact .discarding _
  | some path =>
      obtain ⟨k, hwritable⟩ := hdiag path hpath
      obtain ⟨fs', notes, hcreate, hkeeps⟩ := NoteStream.create_of_writable hwritable stamp
      refine ⟨fs', notes, by rw [openNotes, hpath]; exact hcreate, ?_⟩
      rw [notesAt, hpath, Option.bind_some, hwritable.locate_eq]
      exact hkeeps

/-- A run whose outputs are ordinary files of their own starts, and has recorded nothing yet. -/
theorem start_keeps {config : Config} (stamp : String) (demangle : Demangler) (printer : Printer)
    (henabled : config.enabled = true) (hout : Writable fs config.output l)
    (hdiag : ∀ path ∈ config.diagnostics, ∃ k, Writable fs path k ∧ k ≠ l) :
    ∃ fs' e, start fs stamp config demangle printer = (fs', .ok e) ∧
      e.Keeps fs' l (notesAt fs config) [] (NoteStream.header stamp).flatten ∧
      e.assembler = ⟨demangle, if config.prettyPrintInstrs then some printer else none⟩ ∧
      e.summary = {} ∧ SameDirectories fs fs' := by
  have hpaths : ∀ path ∈ config.diagnostics, ∀ k, fs.locate path = .ok k → k ≠ l := by
    intro path hpath k hlocate
    obtain ⟨k', hwritable, hne⟩ := hdiag path hpath
    exact hwritable.ne_of_locate hne hlocate
  have hne : ∀ k ∈ notesAt fs config, k ≠ l := by
    intro k hk
    obtain ⟨path, hpath, hlocate⟩ := notesAt_eq_some.1 hk
    exact hpaths path hpath k hlocate
  obtain ⟨fs₁, notes, hnotes, hkeeps⟩ := openNotes_of_writable stamp
    fun path hpath => (hdiag path hpath).imp fun k hk => hk.1
  obtain ⟨fs₂, records, hstart, hholds, hsame⟩ :=
    start_of_writable henabled hout hpaths hnotes demangle printer
  exact ⟨fs₂, _, hstart,
    ⟨_, rfl, hholds, hkeeps.of_spares fun k hk => Spares.of_sameBut hsame (hne k hk), hne⟩,
    rfl, rfl, (openNotes_spares hnotes hpaths).2.toSameDirectories.trans hsame.sameDirectories⟩

/-- A run whose outputs are ordinary files of their own succeeds, and leaves in them the records and
the notes of its functions, in order and whole. -/
theorem run_of_writable {config : Config} (stamp : String) (demangle : Demangler)
    (printer : Printer) (functions : List MachineFunction) (henabled : config.enabled = true)
    (hout : Writable fs config.output l)
    (hdiag : ∀ path ∈ config.diagnostics, ∃ k, Writable fs path k ∧ k ≠ l) :
    let a : Assembler := ⟨demangle, if config.prettyPrintInstrs then some printer else none⟩
    ∃ fs', run fs stamp config demangle printer functions =
        (fs', .ok (functions.foldl (counted a (notesAt fs config).isSome) {})) ∧
      fs'.node? l = some (.file (functions.flatMap (recordLine a))) ∧
      (∀ k ∈ notesAt fs config, fs'.node? k = some (.file
        ((NoteStream.header stamp).flatten ++ functions.flatMap (noteLines a)))) ∧
      SameDirectories fs fs' := by
  intro a
  obtain ⟨fs₁, e₁, hstart, hkeeps, hassembler, hempty, hsame⟩ :=
    start_keeps stamp demangle printer henabled hout hdiag
  obtain ⟨fs₂, e₂, heach, hkeeps₂, hsummary, hsame₂⟩ := hkeeps.inspectEach functions
  obtain ⟨fs₃, hfinish, hrecorded, hnoted, hsame₃⟩ := hkeeps₂.finish
  rw [hassembler, hempty] at hsummary
  rw [hassembler] at hrecorded hnoted
  refine ⟨fs₃, ?_, hrecorded, hnoted, hsame.trans (hsame₂.trans hsame₃)⟩
  simp only [run, hstart, heach, hfinish, hsummary]
  rfl

end MachineAtlas.Engine
