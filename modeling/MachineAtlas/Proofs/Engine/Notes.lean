-- SUMMARY: The notes that a run leaves, in order, and when each is on a line of its own.
import MachineAtlas.Proofs.Engine
import MachineAtlas.Proofs.Record.Note
/-!
# Notes of a run

A run that is finished leaves a header and one note after the other in the file of its notes, in the
order of its calls, whatever becomes of its records. A call whose record cannot be written leaves no
notes. Each note is on a line of its own as long as no function has a newline in its name.
-/
namespace MachineAtlas.Engine

open FileSystem (SameBut SameDirectories Spares Writable)

variable {fs fs' : FileSystem} {e : Engine} {k : Location} {stamp : String}
  {noted : List NamedNote}

/-! ## One call -/

/-- The notes on a function under its name. -/
def namedNotes (a : Assembler) (f : MachineFunction) : List NamedNote :=
  (a.notes f).map (NamedNote.mk f.name)

/-- The file of a run begun at `stamp` with its notes. -/
def notesContent (stamp : String) (noted : List NamedNote) : Bytes :=
  (NoteStream.header stamp).flatten ++ noted.flatMap NamedNote.line

theorem notesContent_append (a : Assembler) (f : MachineFunction) :
    notesContent stamp noted ++ NoteStream.noteBytes f.name ((a.notes f).map Note.message) =
      notesContent stamp (noted ++ namedNotes a f) := by
  rw [notesContent, notesContent, NoteStream.noteBytes_eq, List.flatMap_append, List.append_assoc,
    namedNotes]

/-- The run counts its notes and keeps them in an ordinary file at `k`, where no record goes. -/
def Notes (fs : FileSystem) (e : Engine) (k : Location) (stamp : String)
    (noted : List NamedNote) : Prop :=
  ∃ streams, e.streams? = some streams ∧
    streams.notes.Keeps fs (some k) (notesContent stamp noted) ∧
    streams.records.file.handle.location ≠ k ∧ e.summary.diagnosticsWritten = noted.length

/-- What a call with this result adds to the notes. -/
def added (a : Assembler) (f : MachineFunction) : Except StreamFault Bool → List NamedNote
  | .ok _ => namedNotes a f
  | .error _ => []

/-- A call that succeeds adds the notes on its function, one that fails none. -/
theorem Notes.inspect (h : e.Notes fs k stamp noted) (f : MachineFunction) :
    (e.inspect fs f).2.1.Notes (e.inspect fs f).1 k stamp
        (noted ++ added e.assembler f (e.inspect fs f).2.2) ∧
      (e.inspect fs f).2.1.assembler = e.assembler := by
  obtain ⟨streams, hstreams, hkeeps, hne, hcount⟩ := h
  have hwithin := RecordStream.append_within fs streams.records
    (.ok (Record.codec.write (e.assembler.record f)))
  simp only [Engine.inspect, hstreams]
  rcases happend : streams.records.append fs (.ok (Record.codec.write (e.assembler.record f)))
    with ⟨fs₁, records, (fault | u)⟩
  all_goals
    rw [happend] at hwithin
    obtain ⟨hlocation, hsame⟩ := hwithin
    have hkeeps₁ := hkeeps.of_spares fun j hj =>
      Spares.of_sameBut hsame (by cases hj; exact hne.symm)
    rw [← hlocation] at hne
  · exact ⟨⟨_, rfl, by rwa [added, List.append_nil], hne, by simp [added, hcount]⟩, rfl⟩
  -- The file of the notes is an ordinary one, so they are written once the record is.
  · obtain ⟨fs₂, notes, hwrite, hkeeps₂⟩ :=
      hkeeps₁.writeNotes f.name ((e.assembler.notes f).map Note.message)
    rw [notesContent_append] at hkeeps₂
    simp only [hwrite]
    exact ⟨⟨_, rfl, hkeeps₂, hne, by simp [added, namedNotes, hcount]⟩, rfl⟩

/-! ## All calls -/

/-- The functions whose calls succeed, of those that are inspected in order. -/
def succeeding (fs : FileSystem) (e : Engine) : List MachineFunction → List MachineFunction
  | [] => []
  | f :: rest =>
    match e.inspect fs f with
    | (fs, e, .ok _) => f :: succeeding fs e rest
    | (fs, e, .error _) => succeeding fs e rest

/-- A run notes the functions whose calls succeed, in their order. -/
theorem Notes.inspectAll (h : e.Notes fs k stamp noted) (functions : List MachineFunction) :
    (inspectAll fs e functions).2.Notes (inspectAll fs e functions).1 k stamp
      (noted ++ (succeeding fs e functions).flatMap (namedNotes e.assembler)) := by
  induction functions generalizing fs e noted with
  | nil => simpa [Engine.inspectAll, succeeding] using h
  | cons f rest ih =>
      obtain ⟨hnotes, hassembler⟩ := h.inspect f
      have hrest := ih hnotes
      rw [hassembler, List.append_assoc] at hrest
      simp only [Engine.inspectAll, succeeding]
      rcases hcall : e.inspect fs f with ⟨fs₁, e₁, (fault | b)⟩
      · rwa [hcall] at hrest
      · rw [hcall] at hrest
        exact hrest

/-- All calls succeed if the records go to an ordinary file too. -/
theorem Keeps.succeeding_eq {l : Location} {k? : Option Location} {recorded noted : Bytes}
    (h : e.Keeps fs l k? recorded noted) (functions : List MachineFunction) :
    succeeding fs e functions = functions := by
  induction functions generalizing fs e recorded noted with
  | nil => rfl
  | cons f rest ih =>
      obtain ⟨fs₁, e₁, hinspect, hkeeps, -⟩ := h.inspect f
      simp only [succeeding, hinspect, ih hkeeps]

/-! ## Whole runs -/

theorem start_notes {config : Config} {path : String} {demangle : Demangler} {printer : Printer}
    (henabled : config.enabled = true) (hpath : config.diagnostics = some path)
    (hdiag : Writable fs path k) (hout : ∀ l, fs.locate config.output = .ok l → l ≠ k)
    (hstart : start fs stamp config demangle printer = (fs', .ok e)) :
    e.Notes fs' k stamp [] ∧
      e.assembler = ⟨demangle, if config.prettyPrintInstrs then some printer else none⟩ := by
  have hpaths : ∀ p ∈ config.diagnostics, p = path := fun p hp =>
    Option.some.inj (hp.symm.trans hpath)
  obtain ⟨fs₁, notes, records, hnotes, hcreate, rfl⟩ := start_eq_ok henabled hstart
  obtain ⟨fs₁', notes', hnotes', hkeeps⟩ := openNotes_of_writable stamp fun p hp =>
    ⟨k, hpaths p hp ▸ hdiag⟩
  rw [hnotes] at hnotes'
  cases hnotes'
  have hat : notesAt fs config = some k := notesAt_eq_some.2 ⟨path, hpath, hdiag.locate_eq⟩
  rw [hat] at hkeeps
  have hsame := openNotes_sameDirectories fs stamp config
  rw [hnotes] at hsame
  obtain ⟨hlocate, hopened⟩ := OpenFile.create_sameBut hcreate
  have hne : records.file.handle.location ≠ k := hout _ (hsame.symm.locate_eq_ok hlocate)
  refine ⟨⟨_, rfl, ?_, hne, rfl⟩, rfl⟩
  rw [notesContent, List.flatMap_nil, List.append_nil]
  refine hkeeps.of_spares fun j hj => Spares.of_sameBut hopened ?_
  cases hj
  exact hne.symm

/-- A run that is finished leaves all its notes, also if its records cannot be closed. -/
theorem Notes.finish (h : e.Notes fs k stamp noted) :
    (e.finish fs).1.node? k = some (.file (notesContent stamp noted)) ∧
      ∀ summary, (e.finish fs).2 = .ok summary → summary.diagnosticsWritten = noted.length := by
  obtain ⟨streams, hstreams, hkeeps, hne, hcount⟩ := h
  obtain ⟨fs₁, hclose, hnoted⟩ := hkeeps.close
  have hsame := OpenFile.close_sameBut fs₁ streams.records.file
  simp only [Engine.finish, hstreams, hclose, RecordStream.close]
  rcases hrecords : streams.records.file.close fs₁ with ⟨fs₂, (fault | u)⟩
  all_goals
    rw [hrecords] at hsame
    refine ⟨(hsame.node? k hne.symm).trans (hnoted k rfl), ?_⟩
    rintro summary ⟨⟩
  exact hcount

/-! ## Small runs -/

theorem inspectAll_of_inspectEach {fs fs' : FileSystem} {e e' : Engine}
    {functions : List MachineFunction} (h : inspectEach fs e functions = (fs', e', .ok ())) :
    inspectAll fs e functions = (fs', e') := by
  induction functions generalizing fs e with
  | nil =>
      cases h
      rfl
  | cons f rest ih =>
      simp only [inspectEach] at h
      rcases hcall : e.inspect fs f with ⟨fs₁, e₁, (fault | b)⟩
      · simp [hcall] at h
      · rw [hcall] at h
        simp only [inspectAll, hcall, ih h]

/-- A run whose records and notes go to ordinary files of their own is begun and finished. -/
theorem finish_of_writable {config : Config} {l : Location} (stamp : String) (demangle : Demangler)
    (printer : Printer) (functions : List MachineFunction) (henabled : config.enabled = true)
    (hout : Writable fs config.output l)
    (hdiag : ∀ path ∈ config.diagnostics, ∃ k, Writable fs path k ∧ k ≠ l) :
    ∃ fs₁ e fs₂ summary, start fs stamp config demangle printer = (fs₁, .ok e) ∧
      (inspectAll fs₁ e functions).2.finish (inspectAll fs₁ e functions).1 =
        (fs₂, .ok summary) ∧ succeeding fs₁ e functions = functions := by
  obtain ⟨fs₁, e₁, hstart, hkeeps, -⟩ := start_keeps stamp demangle printer henabled hout hdiag
  obtain ⟨fs₂, e₂, heach, hkeeps₂, -⟩ := hkeeps.inspectEach functions
  obtain ⟨fs₃, hfinish, -⟩ := hkeeps₂.finish
  refine ⟨fs₁, e₁, fs₃, e₂.summary, hstart, ?_, hkeeps.succeeding_eq functions⟩
  rw [inspectAll_of_inspectEach heach]
  exact hfinish

/-- Records go to one file and notes to another. -/
def twoFiles : Config := { output := "r", diagnostics := some "d" }

theorem twoFiles_output : Writable ⟨"/", []⟩ twoFiles.output ["r"] := ⟨by cbv, by decide, .inl rfl⟩

theorem twoFiles_diagnostics : Writable ⟨"/", []⟩ "d" ["d"] := ⟨by cbv, by decide, .inl rfl⟩

theorem twoFiles_apart {l : Location}
    (h : FileSystem.locate ⟨"/", []⟩ twoFiles.output = .ok l) : l ≠ ["d"] := by
  rw [twoFiles_output.locate_eq] at h
  cases h
  decide

theorem twoFiles_finish (functions : List MachineFunction) :
    ∃ fs₁ e fs₂ summary,
      start ⟨"/", []⟩ "" twoFiles (fun _ => none) Instr.listing = (fs₁, .ok e) ∧
      (inspectAll fs₁ e functions).2.finish (inspectAll fs₁ e functions).1 =
        (fs₂, .ok summary) ∧ succeeding fs₁ e functions = functions := by
  refine finish_of_writable _ _ _ functions rfl twoFiles_output fun path hpath => ?_
  cases hpath
  exact ⟨_, twoFiles_diagnostics, by decide⟩

/-! ## Files of notes -/

/-- A run that is finished leaves in the file of its notes a header and the notes of the calls that
succeeded, in order, and has counted them. All calls succeed where the records go to an ordinary
file as well. The lines behind the header are the notes exactly if no function with a note has a
newline in its name. In that case a reader that goes line by line finds each note under its function
and nothing else. -/
theorem finish_notes {fs fs₁ fs₂ : FileSystem} {stamp path : String} {config : Config}
    {k : Location} {e : Engine} {summary : RunSummary} (demangle : Demangler) (printer : Printer)
    (functions : List MachineFunction) (henabled : config.enabled = true)
    (hpath : config.diagnostics = some path) (hdiag : Writable fs path k)
    (hout : ∀ l, fs.locate config.output = .ok l → l ≠ k) (hstamp : '\n' ∉ stamp.toList)
    (hstart : start fs stamp config demangle printer = (fs₁, .ok e))
    (hfinish : (inspectAll fs₁ e functions).2.finish (inspectAll fs₁ e functions).1 =
      (fs₂, .ok summary)) :
    let a : Assembler := ⟨demangle, if config.prettyPrintInstrs then some printer else none⟩
    let noted := (succeeding fs₁ e functions).flatMap (namedNotes a)
    let header := (NoteStream.header stamp).flatten
    ∃ content, fs₂.node? k = some (.file content) ∧
      content = header ++ noted.flatMap NamedNote.line ∧
      summary.diagnosticsWritten = noted.length ∧
      ((∀ l, Writable fs config.output l → succeeding fs₁ e functions = functions)) ∧
      (Lines.split content = header :: noted.map NamedNote.line ↔
        ∀ n ∈ noted, '\n' ∉ n.function.toList) ∧
      ((∀ n ∈ noted, '\n' ∉ n.function.toList) →
        (Lines.split content).filterMap NamedNote.read? =
          noted.map fun n => (n.function, n.note.message)) := by
  intro a noted header
  obtain ⟨hbegun, hassembler⟩ := start_notes henabled hpath hdiag hout hstart
  have hall := hbegun.inspectAll functions
  rw [List.nil_append, hassembler] at hall
  obtain ⟨hnode, hcount⟩ := hall.finish
  rw [hfinish] at hnode hcount
  have hlines := split_notes_iff hstamp noted
  refine ⟨_, hnode, rfl, hcount summary rfl, fun l hl => ?_, hlines, fun hnames => ?_⟩
  · obtain ⟨fs₁', e', hstart', hkeeps, -⟩ := start_keeps stamp demangle printer henabled hl
      (by
        intro p hp
        obtain rfl : path = p := Option.some.inj (hpath.symm.trans hp)
        exact ⟨k, hdiag, (hout l hl.locate_eq).symm⟩)
    rw [hstart] at hstart'
    cases hstart'
    exact hkeeps.succeeding_eq functions
  -- With one line a note, the reader meets the header, which it passes over, and then the notes.
  · rw [notesContent, hlines.2 hnames, List.filterMap_cons, NoteStream.read?_header]
    simp only [List.filterMap_map, Function.comp_def, NamedNote.read?_line]
    rw [List.filterMap_eq_map']

/-- A function that lacks an operand and a module is noted twice, on the second and third lines. -/
theorem finish_notes_bare :
    ∃ fs₁ e fs₂ summary content,
      start ⟨"/", []⟩ "" twoFiles (fun _ => none) Instr.listing = (fs₁, .ok e) ∧
      (inspectAll fs₁ e [{ name := "f" }]).2.finish (inspectAll fs₁ e [{ name := "f" }]).1 =
        (fs₂, .ok summary) ∧
      fs₂.node? ["d"] = some (.file content) ∧ summary.diagnosticsWritten = 2 ∧
      (Lines.split content).filterMap NamedNote.read? =
        [("f", Note.missingOperand.message), ("f", Note.missingModule.message)] := by
  obtain ⟨fs₁, e, fs₂, summary, hstart, hfinish, -⟩ := twoFiles_finish [{ name := "f" }]
  obtain ⟨content, hnode, -, hcount, hall, -, hread⟩ := finish_notes (fun _ => none) Instr.listing
    [{ name := "f" }] rfl rfl twoFiles_diagnostics (fun l => twoFiles_apart) (by decide) hstart
    hfinish
  rw [hall _ twoFiles_output] at hcount hread
  exact ⟨fs₁, e, fs₂, summary, content, hstart, hfinish, hnode, hcount, hread (by decide)⟩

/-- A newline in the name of a function ends the line of its only note, and neither that line nor
the next one is read as a note. -/
theorem newline_splits_note :
    ∃ fs₁ e fs₂ summary content,
      start ⟨"/", []⟩ "" twoFiles (fun _ => none) Instr.listing = (fs₁, .ok e) ∧
      (inspectAll fs₁ e [{ name := "a\nb", operand := some "@a" }]).2.finish
        (inspectAll fs₁ e [{ name := "a\nb", operand := some "@a" }]).1 = (fs₂, .ok summary) ∧
      fs₂.node? ["d"] = some (.file content) ∧ summary.diagnosticsWritten = 1 ∧
      Lines.split content = [(NoteStream.header "").flatten, textBytes ("[" ++ "a") ++
        [Lines.newline], textBytes ("b" ++ "] " ++ Note.missingModule.message) ++
        [Lines.newline]] ∧
      (Lines.split content).filterMap NamedNote.read? = [] := by
  obtain ⟨fs₁, e, fs₂, summary, hstart, hfinish, hsucceeding⟩ :=
    twoFiles_finish [{ name := "a\nb", operand := some "@a" }]
  obtain ⟨hbegun, hassembler⟩ := start_notes rfl rfl twoFiles_diagnostics
    (fun l => twoFiles_apart) hstart
  have hall := hbegun.inspectAll [{ name := "a\nb", operand := some "@a" }]
  rw [hsucceeding, hassembler] at hall
  obtain ⟨hnode, hcount⟩ := hall.finish
  rw [hfinish] at hnode hcount
  have hname : "a\nb" = "a" ++ "\n" ++ "b" := by decide
  have hlines : Lines.split (notesContent "" [⟨"a\nb", .missingModule⟩]) =
      [(NoteStream.header "").flatten, textBytes ("[" ++ "a") ++ [Lines.newline],
        textBytes ("b" ++ "] " ++ Note.missingModule.message) ++ [Lines.newline]] := by
    rw [notesContent, NoteStream.header_eq, List.append_assoc, List.singleton_append,
      Lines.split_line (NoteStream.newline_notMem_headerText (by decide)), List.flatMap_singleton,
      hname, NamedNote.split_line_of_newline (by decide) (by decide)]
  have hfirst : NamedNote.ofText? ("[" ++ "a") = none := by decide
  have hsecond : NamedNote.ofText? ("b" ++ "] " ++ Note.missingModule.message) = none := by decide
  refine ⟨fs₁, e, fs₂, summary, _, hstart, hfinish, hnode, hcount summary rfl, hlines, ?_⟩
  refine (congrArg (List.filterMap NamedNote.read?) hlines).trans ?_
  rw [List.filterMap_cons, NoteStream.read?_header]
  simp only [List.filterMap_cons, List.filterMap_nil, NamedNote.read?, List.dropLast_concat,
    bytesText?_textBytes, Option.bind_some, hfirst, hsecond]

end MachineAtlas.Engine
