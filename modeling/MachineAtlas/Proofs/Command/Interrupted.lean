-- SUMMARY: A line that cannot be read ends the command behind the records of the lines before it.
import MachineAtlas.Proofs.Command.Observer
/-!
# Commands that are interrupted

A line that cannot be read ends the command. What was read before it is recorded as in a run that
is finished, since streams that are dropped write what they hold, and what comes after it is never
looked at.
-/
namespace MachineAtlas.Command

open FileSystem (Writable)
open Lines (lineBytes newline reading split)

variable {fs : FileSystem} {input : String} {config : Config} {l k : Location} {content bad : Bytes}
  {good later : List Bytes}

/-- A run over a file ends at the first line that cannot be read, with the failure of that line, and
is dropped as the calls for the lines before it have left it. -/
theorem runOver_interrupted (stamp : String) (demangle : Demangler)
    (hinput : fs.find input = .ok (l, .file content)) (henabled : config.enabled = true)
    (havoid : Engine.OutputsAvoid fs config l) (hout : Writable fs config.output k)
    (hdiag : ∀ path ∈ config.diagnostics, ∃ m, Writable fs path m ∧ m ≠ k)
    (hlines : split content = good ++ bad :: later)
    (hgood : ∀ line ∈ good, (reading MachineFunction.codec line).isReadable = true)
    {fault : Lines.Fault Failure}
    (hbad : (reading MachineFunction.codec bad).fault? good.length = some fault) :
    let a : Assembler := ⟨demangle, if config.prettyPrintInstrs then some Instr.listing else none⟩
    let functions := Lines.values MachineFunction.codec good
    let run := runOver fs stamp input config demangle
    run.2 = .error (lineFailure "function snapshot" input fault) ∧
      run.1.node? k = some (.file (functions.flatMap (Engine.recordLine a))) ∧
      ∀ m, Engine.notesAt fs config = some m → run.1.node? m = some (.file
        ((NoteStream.header stamp).flatten ++ functions.flatMap (Engine.noteLines a))) := by
  intro a functions run
  obtain ⟨fs₁, e₁, hstart, hkeeps, hassembler, -, -⟩ :=
    Engine.start_keeps stamp demangle Instr.listing henabled hout hdiag
  obtain ⟨fs₂, e₂, heach, hkeeps₂, -, -⟩ := hkeeps.inspectEach functions
  rw [hassembler, List.nil_append] at hkeeps₂
  obtain ⟨hrecorded, hnoted⟩ := hkeeps₂.drop
  -- The streams are other files, so the input is still there when it is read.
  have hspares := (Engine.start_frame havoid stamp demangle Instr.listing).1
  rw [hstart] at hspares
  have hread := FileSystem.readBytes_of_spares hinput hspares
  have hall := visitAll_inspectOne fs₁ e₁ functions
  rw [heach] at hall
  have hvisit : Lines.visit MachineFunction.codec inspectOne (fs₁, e₁) content =
      ((fs₂, e₂), .error fault) := by
    rw [Lines.visit, hlines, Lines.visitFrom_append hgood, hall]
    exact Lines.visitFrom_bad (Nat.zero_add _ ▸ hbad) inspectOne _ _ later
  have hwalk : visitFile MachineFunction.codec "function snapshot" input fs₁ inspectOne (fs₁, e₁) =
      _ := visitFile_of_readBytes hread inspectOne (fs₁, e₁)
  rw [hvisit] at hwalk
  have hrun : run = (e₂.drop fs₂, .error (lineFailure "function snapshot" input fault)) := by
    simp only [run, runOver, hstart, hwalk, Except.mapError]
  rw [hrun]
  exact ⟨rfl, hrecorded, hnoted⟩

/-- A file whose first line that cannot be read comes after some others, where the outputs are
ordinary files of their own: the command fails with the number of that line, or because it is no
text, and leaves in its outputs the records and the notes of the functions on the lines before it,
in order and whole. Nothing else has changed, and nothing depends on the lines after it. -/
theorem inspect_interrupted {fs : FileSystem} {input : String} {configPath : Option String}
    {o : Config.Overrides} {config : Config} {l k : Location} {content bad : Bytes}
    {good later : List Bytes} (stamp : String) (json : Bool) (demangle : Demangler)
    (hinput : fs.find input = .ok (l, .file content))
    (hconfig : resolveConfig fs configPath o = .ok config) (henabled : config.enabled = true)
    (hout : Writable fs config.output k) (hne : k ≠ l)
    (hdiag : ∀ path ∈ config.diagnostics, ∃ m, Writable fs path m ∧ m ≠ k ∧ m ≠ l)
    (hlines : split content = good ++ bad :: later)
    (hgood : ∀ line ∈ good, (reading MachineFunction.codec line).isReadable = true)
    (hbad : (reading MachineFunction.codec bad).isReadable = false) :
    let a : Assembler := ⟨demangle, if config.prettyPrintInstrs then some Instr.listing else none⟩
    let functions := Lines.values MachineFunction.codec good
    let command := inspect fs stamp input configPath o json demangle
    (∃ failure, command.result = .error failure ∧
      (∀ fault, reading MachineFunction.codec bad = .malformed fault →
        failure.message = "Failed to parse function snapshot at " ++ input ++ ":" ++
          toString (good.length + 1) ∧ failure.causes = [.json fault]) ∧
      (reading MachineFunction.codec bad = .notText →
        failure.message = "Failed to read function snapshot file " ++ input ∧
          failure.causes = [.io .notText])) ∧
    command.output = "" ∧
    command.files.node? k = some (.file (functions.flatMap (Engine.recordLine a))) ∧
    (∀ m, Engine.notesAt fs config = some m → command.files.node? m = some (.file
      ((NoteStream.header stamp).flatten ++ functions.flatMap (Engine.noteLines a)))) ∧
    ∀ m, m ≠ k → Engine.notesAt fs config ≠ some m → command.files.node? m = fs.node? m := by
  intro a functions command
  have havoid : ∀ m, m ≠ k → Engine.notesAt fs config ≠ some m →
      Engine.OutputsAvoid fs config m := by
    intro m hm hnotes
    refine Engine.outputsAvoid_iff.2 fun _ => ⟨?_, hnotes⟩
    intro hlocate
    exact hm (Except.ok.inj (hlocate.symm.trans hout.locate_eq))
  have hnotes : Engine.notesAt fs config ≠ some l := by
    intro hat
    obtain ⟨path, hpath, hlocate⟩ := Engine.notesAt_eq_some.1 hat
    obtain ⟨m, hwritable, -, hml⟩ := hdiag path hpath
    exact hwritable.ne_of_locate hml hlocate rfl
  obtain ⟨fault, hfault⟩ := Lines.Reading.exists_fault (ε := Failure) hbad good.length
  have hapart : ∀ path ∈ config.diagnostics, ∃ m, Writable fs path m ∧ m ≠ k :=
    fun path hpath => (hdiag path hpath).imp fun m hm => ⟨hm.1, hm.2.1⟩
  obtain ⟨hresult, hrecorded, hnoted⟩ := runOver_interrupted stamp demangle hinput henabled
    (havoid l hne.symm hnotes) hout hapart hlines hgood hfault
  have hframe (m : Location) (hm : m ≠ k) (hat : Engine.notesAt fs config ≠ some m) :
      (runOver fs stamp input config demangle).1.node? m = fs.node? m :=
    (runOver_frame (havoid m hm hat) stamp input demangle).node?
  rcases hrun : runOver fs stamp input config demangle with ⟨fs', r⟩
  rw [hrun] at hresult hrecorded hnoted
  simp only [hrun] at hframe
  obtain rfl : r = .error (lineFailure "function snapshot" input fault) := hresult
  have hcommand : command = ⟨fs', "", .error (lineFailure "function snapshot" input fault)⟩ := by
    simp only [command, inspect, isFile_of_find hinput, hconfig, hrun]
    rfl
  rw [hcommand]
  refine ⟨⟨_, rfl, ?_, ?_⟩, rfl, hrecorded, hnoted, hframe⟩
  · intro flaw hreading
    rw [hreading] at hfault
    cases hfault
    exact ⟨rfl, rfl⟩
  · intro hreading
    rw [hreading] at hfault
    cases hfault
    exact ⟨rfl, rfl⟩

/-- The third line is no function, and the first one has been recorded. -/
theorem inspect_interrupted_third :
    let a : Assembler := ⟨fun _ => none, none⟩
    let content := lineBytes MachineFunction.codec default ++ [newline, 0x78, newline]
    let command := inspect ⟨"/", [(["i"], .file content)]⟩ "" "i" none
      { output := some "r", diagnostics := some "d" } false (fun _ => none)
    (∃ failure, command.result = .error failure ∧
      failure.message = "Failed to parse function snapshot at i:3") ∧
    command.files.node? ["r"] = some (.file (Engine.recordLine a default)) ∧
    command.files.node? ["d"] = some (.file
      ((NoteStream.header "").flatten ++ Engine.noteLines a default)) := by
  have hlines : split (lineBytes MachineFunction.codec default ++ [newline, 0x78, newline]) =
      [lineBytes MachineFunction.codec default, [newline]] ++ [0x78, newline] :: [] := by
    rw [lineBytes, List.append_assoc]
    exact Lines.split_line (Lines.newline_notMem_textBytes MachineFunction.codec default)
      [newline, 0x78, newline]
  have hvalue : reading MachineFunction.codec (lineBytes MachineFunction.codec default) =
      .value default :=
    Lines.reading_lineBytes MachineFunction.codec_selfDelimiting default
  have hblank : reading MachineFunction.codec [newline] = .blank := by cbv
  have hbad : reading MachineFunction.codec [0x78, newline] = .malformed (.flaw .malformed) := by
    cbv
  generalize lineBytes MachineFunction.codec default = line at hlines hvalue
  intro a content
  have hgood : ∀ l ∈ [line, [newline]], (reading MachineFunction.codec l).isReadable = true := by
    simp [hvalue, hblank, Lines.Reading.isReadable]
  have hfunctions : Lines.values MachineFunction.codec [line, [newline]] = [default] := by
    simp [Lines.values, hvalue, hblank, Lines.Reading.value?]
  have hdiag := onlyInput_diagnostics content
  have hat : Engine.notesAt (onlyInput content) Engine.twoFiles = some ["d"] :=
    Engine.notesAt_eq_some.2 ⟨"d", rfl, (hdiag "d" rfl).locate_eq⟩
  have hconfig : resolveConfig (onlyInput content) none
      { output := some "r", diagnostics := some "d" } = .ok Engine.twoFiles := rfl
  obtain ⟨⟨failure, hresult, hmalformed, -⟩, -, hrecorded, hnoted, -⟩ :=
    inspect_interrupted "" false (fun _ => none) (find_onlyInput content) hconfig rfl
      (onlyInput_output content) (by decide)
      (fun path hpath => ⟨_, hdiag path hpath, by decide, by decide⟩) hlines hgood
      (by rw [hbad]; rfl)
  rw [hfunctions, List.flatMap_singleton] at hrecorded
  have hnotes := hnoted ["d"] hat
  rw [hfunctions, List.flatMap_singleton] at hnotes
  obtain ⟨hmessage, -⟩ := hmalformed _ hbad
  exact ⟨⟨failure, hresult, hmessage.trans (by cbv)⟩, hrecorded, hnotes⟩

end MachineAtlas.Command
