-- SUMMARY: Records and notes stay apart in two files, and run into each other in one.
import MachineAtlas.Proofs.Engine.Notes
import MachineAtlas.Proofs.Files.Overlay
import MachineAtlas.Proofs.Record.Framing
/-!
# Records apart from notes

Records and notes go through handles of their own. A run keeps them apart if they go to two files,
and then the one has a line for each call. Nothing compares their paths, and where both lead to one
file, each of the two streams is written over the other.
-/
namespace MachineAtlas.Engine

open Buffered (capacity)
open FileSystem (Overlaid SameDirectories Writable overlay)
open Lines (chomp split)

variable {fs fs' : FileSystem} {e : Engine} {l : Location} {recorded noted : Bytes}

/-! ## Two streams on one file -/

/-- Records and notes go to one file at `l`. What each stream has delivered there lies over what the
other one has. -/
def Shares (fs : FileSystem) (e : Engine) (l : Location) (recorded noted : Bytes) : Prop :=
  ∃ records notes content out out', e.streams? = some { records, notes := ⟨some notes⟩ } ∧
    records.file.Wrote l out recorded ∧ notes.Wrote l out' noted ∧
    fs.node? l = some (.file content) ∧ Overlaid content out out'

namespace Shares

/-- A call succeeds, and writes its record over the notes and its notes over the records. -/
theorem inspect (h : e.Shares fs l recorded noted) (f : MachineFunction) :
    ∃ fs' e', e.inspect fs f = (fs', e', .ok true) ∧
      e'.Shares fs' l (recorded ++ recordLine e.assembler f) (noted ++ noteLines e.assembler f) ∧
      e'.assembler = e.assembler := by
  obtain ⟨records, notes, content, out, out', hstreams, hrecords, hnotes, hnode, hover⟩ := h
  -- The record goes over the notes first, and then the notes go over the records.
  obtain ⟨fs₁, file, content₁, out₁, happend, hrecords₁, hnode₁, hover₁⟩ :=
    hrecords.writeAll hnode hover
      [textBytes ((Record.codec.write (e.assembler.record f)).line ++ "\n")]
  obtain ⟨fs₂, notes₁, content₂, out₂, hwrite, hnotes₁, hnode₂, hover₂⟩ :=
    hnotes.writeAll hnode₁ hover₁.symm
      (((e.assembler.notes f).map Note.message).flatMap (NoteStream.noteLine f.name))
  have hline : [textBytes ((Record.codec.write (e.assembler.record f)).line ++ "\n")].flatten =
      recordLine e.assembler f := by
    rw [List.flatten_singleton]
    exact Record.textBytes_append_newline _
  rw [hline] at hrecords₁
  simp only [Engine.inspect, hstreams, RecordStream.append, happend, NoteStream.writeNotes, hwrite,
    Except.map]
  exact ⟨_, _, rfl, ⟨_, _, _, _, _, rfl, hrecords₁, hnotes₁, hnode₂, hover₂.symm⟩, rfl⟩

/-- All calls of a run go on in this way. -/
theorem inspectAll (h : e.Shares fs l recorded noted) (functions : List MachineFunction) :
    (inspectAll fs e functions).2.Shares (inspectAll fs e functions).1 l
      (recorded ++ functions.flatMap (recordLine e.assembler))
      (noted ++ functions.flatMap (noteLines e.assembler)) := by
  induction functions generalizing fs e recorded noted with
  | nil => simpa [Engine.inspectAll] using h
  | cons f rest ih =>
      obtain ⟨fs₁, e₁, hinspect, hshares, hassembler⟩ := h.inspect f
      have hrest := ih hshares
      rw [hassembler, List.append_assoc, List.append_assoc] at hrest
      simp only [Engine.inspectAll, hinspect, List.flatMap_cons]
      exact hrest

/-- A run is finished with one stream over the other. Records that are few enough to have waited
until then are written last, over the front of the notes. -/
theorem finish (h : e.Shares fs l recorded noted) :
    ∃ fs' content, e.finish fs = (fs', .ok e.summary) ∧ fs'.node? l = some (.file content) ∧
      Overlaid content recorded noted ∧
      (recorded.length < capacity → content = recorded ++ noted.drop recorded.length) := by
  obtain ⟨records, notes, content, out, out', hstreams, hrecords, hnotes, hnode, hover⟩ := h
  -- The notes are closed first, so the records have the last word.
  obtain ⟨fs₁, hclose, hnode₁⟩ := hnotes.close hnode hover.symm
  have hover₁ := (hover.symm.write notes.pending).symm
  rw [hnotes.written_eq] at hover₁
  obtain ⟨fs₂, hlast, hnode₂⟩ := hrecords.close hnode₁ hover₁
  have hover₂ := hover₁.write records.file.pending
  rw [hrecords.written_eq] at hover₂
  refine ⟨fs₂, _, ?_, hnode₂, hover₂, ?_⟩
  · simp only [Engine.finish, hstreams, NoteStream.close, hclose, RecordStream.close, hlast]
  · intro hlt
    obtain rfl := hrecords.little hlt
    -- Nothing of the records has been delivered yet, so the file has the notes and nothing else.
    have hwaits : records.file.pending = recorded := hrecords.written_eq
    rw [hover₁.eq_right, hwaits, List.length_nil, FileSystem.overlay_eq (Nat.zero_le _)]
    rw [List.take_zero, List.nil_append, Nat.zero_add]

end Shares

/-! ## Starting -/

/-- The output of a run that has been started is an ordinary file or a device. -/
theorem output_of_start {stamp : String} {config : Config} {demangle : Demangler}
    {printer : Printer} (henabled : config.enabled = true)
    (hstart : start fs stamp config demangle printer = (fs', .ok e)) :
    ∃ l, fs.locate config.output = .ok l ∧ (Writable fs config.output l ∨
      ∃ n : FileSystem.Node, n.isDevice = true ∧ fs.node? l = some n) := by
  obtain ⟨fs₁, notes, records, hnotes, hopen, -⟩ := start_eq_ok henabled hstart
  have hsame := (openNotes_sameDirectories fs stamp config).symm
  rw [hnotes] at hsame
  obtain ⟨hlocate, -, hcases⟩ := FileSystem.create_cases (OpenFile.create_eq_ok hopen).1
  refine ⟨_, hsame.locate_eq_ok hlocate, ?_⟩
  rcases hcases with ⟨hwritable, -⟩ | ⟨⟨n, hn, hnode⟩, -⟩
  · exact .inl (hwritable.of_sameDirectories hsame)
  · exact .inr ⟨n, hn, (hsame.fixed _ n (n.isFixed_of_isDevice hn)).2 hnode⟩

/-- A run starts if its outputs can be files, be they two or one. -/
theorem exists_start {config : Config} (stamp : String) (demangle : Demangler)
    (printer : Printer) (henabled : config.enabled = true) (hout : Writable fs config.output l)
    (hdiag : ∀ path ∈ config.diagnostics, ∃ k, Writable fs path k) :
    ∃ fs' e, start fs stamp config demangle printer = (fs', .ok e) := by
  obtain ⟨fs₁, notes, hnotes, -⟩ := openNotes_of_writable stamp hdiag
  have hsame := openNotes_sameDirectories fs stamp config
  rw [hnotes] at hsame
  obtain ⟨fs₂, records, hrecords, -⟩ :=
    RecordStream.create_of_writable (hout.of_sameDirectories hsame)
  refine ⟨fs₂, ⟨config, some ⟨records, notes⟩, demangle, printer, {}⟩, ?_⟩
  simp [start, henabled, openStreams, hnotes, hrecords, Except.map]

/-- If both paths lead to one file, the header waits for a file that has been made empty for the
records. -/
theorem start_shares {stamp path : String} {config : Config} {demangle : Demangler}
    {printer : Printer} (henabled : config.enabled = true)
    (hstart : start fs stamp config demangle printer = (fs', .ok e))
    (hout : Writable fs config.output l) (hpath : config.diagnostics = some path)
    (hdiag : fs.locate path = .ok l) (hfits : (NoteStream.header stamp).flatten.length < capacity) :
    e.Shares fs' l [] (NoteStream.header stamp).flatten ∧
      e.assembler = ⟨demangle, if config.prettyPrintInstrs then some printer else none⟩ := by
  obtain ⟨fs₁, notes, records, hnotes, hrecords, rfl⟩ := start_eq_ok henabled hstart
  have hsame := openNotes_sameDirectories fs stamp config
  rw [hnotes] at hsame
  have hopen : NoteStream.create fs stamp path = (fs₁, .ok notes) := by
    rw [← hnotes, openNotes, hpath]
  obtain ⟨file, rfl, hcreate, hwrote⟩ := NoteStream.create_wrote hopen hfits
  obtain rfl : l = file.handle.location :=
    Except.ok.inj (hdiag.symm.trans (FileSystem.create_cases hcreate).1)
  -- The records are opened last, at the same place, and whatever stands there is dropped.
  have hwritable := hout.of_sameDirectories hsame
  have hbegun := OpenFile.wrote_of_create hrecords
  have hlast := (OpenFile.create_eq_ok hrecords).1
  rw [hwritable.create_eq] at hlast
  obtain ⟨rfl, hhandle⟩ := Prod.mk.inj (Except.ok.inj hlast)
  rw [← hhandle] at hbegun
  refine ⟨⟨_, file, [], [], [], rfl, hbegun, hwrote, ?_, Overlaid.empty⟩, rfl⟩
  exact FileSystem.node?_set_self fs₁ hwritable.ne_nil _

/-- Starting empties a file that an output leads to. A short header waits. -/
theorem start_empties {stamp : String} {config : Config} {demangle : Demangler} {printer : Printer}
    {content : Bytes} (henabled : config.enabled = true)
    (hstart : start fs stamp config demangle printer = (fs', .ok e))
    (hnode : fs.node? l = some (.file content))
    (hleads : fs.locate config.output = .ok l ∨ notesAt fs config = some l)
    (hfits : (NoteStream.header stamp).flatten.length < capacity) :
    fs'.node? l = some (.file []) := by
  obtain ⟨fs₁, notes, records, hnotes, hrecords, -⟩ := start_eq_ok henabled hstart
  have hsame := openNotes_sameDirectories fs stamp config
  rw [hnotes] at hsame
  obtain ⟨hlocate, hbut⟩ := OpenFile.create_sameBut hrecords
  have houtput : fs.locate config.output = .ok records.file.handle.location :=
    hsame.symm.locate_eq_ok hlocate
  by_cases hl : l = records.file.handle.location
  · subst hl
    -- Only the content of the file can have changed until the records are opened.
    obtain ⟨-, -, ⟨hwritable, rfl⟩ | ⟨⟨n, hn, hdevice⟩, -⟩⟩ :=
      FileSystem.create_cases (OpenFile.create_eq_ok hrecords).1
    · exact FileSystem.node?_set_self fs₁ hwritable.ne_nil _
    · have hfixed := n.isFixed_of_isDevice hn
      exact absurd ((hsame.fixed _ n hfixed).1 hdevice)
        (FileSystem.ne_fixed (.inr ⟨_, hnode⟩) n hfixed)
  · rcases hleads with hout | hdiag
    · exact absurd (Except.ok.inj (hout.symm.trans houtput)) hl
    rw [hbut.node? l hl]
    obtain ⟨path, hpath, hdiag⟩ := notesAt_eq_some.1 hdiag
    rw [openNotes, hpath] at hnotes
    obtain ⟨file, -, hcreate, -⟩ := NoteStream.create_wrote hnotes hfits
    obtain rfl : l = file.handle.location :=
      Except.ok.inj (hdiag.symm.trans (FileSystem.create_cases hcreate).1)
    exact FileSystem.empty_of_create hcreate hnode

/-! ## Files of records -/

/-- What a run has recorded is split into lines that are read as the records of its calls. -/
theorem parse_records (a : Assembler) (functions : List MachineFunction) :
    split (functions.flatMap (recordLine a)) = functions.map (recordLine a) ∧
      (functions.map (recordLine a)).map (fun line =>
        (bytesText? (chomp line)).map Record.codec.parse) =
        functions.map fun f => some (.ok (a.record f)) := by
  constructor
  · have hsplit := Lines.split_flatMap Record.codec (functions.map a.record)
    rw [List.flatMap_map, List.map_map] at hsplit
    exact hsplit
  · rw [List.map_map]
    exact List.map_congr_left fun f _ =>
      Lines.parse_lineBytes Record.codec_selfDelimiting (a.record f)

/-- The output of a run that is finished is a device or a file. In the file stand the records of the
calls, a line for each, if the notes do not go there. If they do, each byte is that of the records
or that of the notes at its place, and what is longer sticks out: few records replace the front of
the notes, and the rest of the notes follows them. -/
theorem finish_isolated {fs fs₁ fs₂ : FileSystem} {stamp : String} {config : Config} {e : Engine}
    {summary : RunSummary} (demangle : Demangler) (printer : Printer)
    (functions : List MachineFunction) (henabled : config.enabled = true)
    (hstart : start fs stamp config demangle printer = (fs₁, .ok e))
    (hfinish : (inspectAll fs₁ e functions).2.finish (inspectAll fs₁ e functions).1 =
      (fs₂, .ok summary)) :
    let a : Assembler := ⟨demangle, if config.prettyPrintInstrs then some printer else none⟩
    let records := functions.flatMap (recordLine a)
    let header := (NoteStream.header stamp).flatten
    let notes := header ++ functions.flatMap (noteLines a)
    ∃ l, fs.locate config.output = .ok l ∧
      ((∃ n : FileSystem.Node, n.isDevice = true ∧ fs.node? l = some n) ∨
        ((∀ path ∈ config.diagnostics, ∀ k, fs.locate path = .ok k → k ≠ l) →
          fs₂.node? l = some (.file records) ∧
          split records = functions.map (recordLine a) ∧
          (split records).map (fun line => (bytesText? (chomp line)).map Record.codec.parse) =
            functions.map fun f => some (.ok (a.record f))) ∧
        ∀ path ∈ config.diagnostics, fs.locate path = .ok l → header.length < 8192 →
          ∃ content, fs₂.node? l = some (.file content) ∧ Overlaid content records notes ∧
            (content = records → notes.length ≤ records.length) ∧
            (records.length < 8192 → content = records ++ notes.drop records.length)) := by
  intro a records header notes
  obtain ⟨l, hlocate, hwritable | hdevice⟩ := output_of_start henabled hstart
  · refine ⟨l, hlocate, .inr ⟨?_, ?_⟩⟩
    · intro hapart
      obtain ⟨hbegun, hassembler⟩ := start_holds henabled hstart hwritable hapart
      have hnode := (hbegun.inspectAll functions).1.finish
      rw [hfinish, hassembler] at hnode
      obtain ⟨hsplit, hparse⟩ := parse_records a functions
      exact ⟨hnode, hsplit, hsplit ▸ hparse⟩
    · intro path hpath hdiag hfits
      obtain ⟨hbegun, hassembler⟩ :=
        start_shares henabled hstart hwritable hpath hdiag hfits
      have hshares := hbegun.inspectAll functions
      rw [hassembler, List.nil_append] at hshares
      obtain ⟨fs', content, hfinish', hnode, hover, hsmall⟩ := hshares.finish
      rw [hfinish] at hfinish'
      cases hfinish'
      refine ⟨content, hnode, hover, ?_, hsmall⟩
      intro heq
      have hlength := hover.length_eq
      rw [heq] at hlength
      exact Nat.le_trans (Nat.le_max_right _ _) (Nat.le_of_eq hlength.symm)
  · exact ⟨l, hlocate, .inl hdevice⟩

/-- One call leaves one line in the file of the records, and that is read as the record. -/
theorem finish_isolated_twoFiles :
    ∃ fs₁ e fs₂ summary content,
      start ⟨"/", []⟩ "" twoFiles (fun _ => none) Instr.listing = (fs₁, .ok e) ∧
      (inspectAll fs₁ e [default]).2.finish (inspectAll fs₁ e [default]).1 = (fs₂, .ok summary) ∧
      fs₂.node? ["r"] = some (.file content) ∧
      (split content).map (fun line => (bytesText? (chomp line)).map Record.codec.parse) =
        [some (.ok (Assembler.record ⟨fun _ => none, none⟩ default))] := by
  obtain ⟨fs₁, e, fs₂, summary, hstart, hfinish, -⟩ := twoFiles_finish [default]
  obtain ⟨l, hlocate, hcases⟩ :=
    finish_isolated (fun _ => none) Instr.listing [default] rfl hstart hfinish
  rw [twoFiles_output.locate_eq] at hlocate
  cases hlocate
  rcases hcases with ⟨n, hn, hnode⟩ | ⟨hapart, -⟩
  · exact absurd hnode (FileSystem.ne_fixed twoFiles_output.node n (n.isFixed_of_isDevice hn))
  · obtain ⟨hnode, -, hparse⟩ := hapart fun path hpath => by
      cases hpath
      exact fun _ => twoFiles_diagnostics.ne_of_locate (by decide)
    exact ⟨fs₁, e, fs₂, summary, _, hstart, hfinish, hnode, hparse⟩

/-- Records and notes go to one file. -/
def oneFile : Config := { output := "r", diagnostics := some "r" }

theorem oneFile_output : Writable ⟨"/", []⟩ oneFile.output ["r"] := ⟨by cbv, by decide, .inl rfl⟩

/-- A run without calls leaves a line in the file of the records, and that is not a record. -/
theorem header_among_records :
    ∃ fs₁ e fs₂ summary content,
      start ⟨"/", []⟩ "" oneFile (fun _ => none) Instr.listing = (fs₁, .ok e) ∧
      (inspectAll fs₁ e []).2.finish (inspectAll fs₁ e []).1 = (fs₂, .ok summary) ∧
      fs₂.node? ["r"] = some (.file content) ∧ split content = [content] ∧
      (bytesText? (chomp content)).map Record.codec.parse =
        some (.error (.flaw .malformed)) := by
  obtain ⟨fs₁, e, hstart⟩ := exists_start "" (fun _ => none) Instr.listing rfl oneFile_output
    fun path hpath => by cases hpath; exact ⟨_, oneFile_output⟩
  have hheader : (NoteStream.header "").flatten.length < capacity := by cbv
  obtain ⟨hshares, -⟩ :=
    start_shares rfl hstart oneFile_output rfl oneFile_output.locate_eq hheader
  obtain ⟨fs₂, content, hfinish, hnode, -, hfew⟩ := hshares.finish
  obtain rfl : content = (NoteStream.header "").flatten := hfew (by decide)
  exact ⟨fs₁, e, fs₂, _, _, hstart, hfinish, hnode, by cbv, by cbv⟩

end MachineAtlas.Engine
