-- SUMMARY: Inspecting a file of functions does what a run of the engine over them does.
import MachineAtlas.Command.Inspect
import MachineAtlas.Proofs.Command.Summarize
import MachineAtlas.Proofs.Engine.Frame
import MachineAtlas.Proofs.Engine.Notes
import MachineAtlas.Proofs.Machine.Wire
/-!
# The command as a run

Inspecting a file of functions does what a run of the engine over these functions does: it leaves
the same files, counts the same, and fails where the run does and for the same cause.
-/
namespace MachineAtlas

open FileSystem (Spares Writable)
open Lines (Lists lineBytes newline)

theorem MachineFunction.codec_selfDelimiting : MachineFunction.codec.SelfDelimiting :=
  { MachineFunction.codec_lawful with writes_object := fun _ => ⟨_, rfl⟩ }

namespace Command

/-! ## Visiting functions -/

/-- Visiting functions one by one inspects each of them, up to the first failure. -/
theorem visitAll_inspectOne (fs : FileSystem) (e : Engine) (functions : List MachineFunction) :
    match Engine.inspectEach fs e functions with
    | (fs', e', .ok ()) => Lines.visitAll inspectOne (fs, e) functions = ((fs', e'), .ok ())
    | (fs', e', .error fault) => ∃ name, Lines.visitAll inspectOne (fs, e) functions =
        ((fs', e'), .error (.notRecorded name fault)) := by
  induction functions generalizing fs e with
  | nil => rfl
  | cons f rest ih =>
      rcases hinspect : e.inspect fs f with ⟨fs₁, e₁, (fault | recorded)⟩
      · simp only [Engine.inspectEach, Lines.visitAll, inspectOne, hinspect]
        exact ⟨f.name, rfl⟩
      · simp only [Engine.inspectEach, Lines.visitAll, inspectOne, hinspect]
        exact ih fs₁ e₁

/-- The command ends as the run does: with the same counters, or with the fault of the run as its
cause. -/
def Matches : Except StreamFault RunSummary → Except Failure RunSummary → Prop
  | .ok summary, r => r = .ok summary
  | .error fault, r => ∃ failure, r = .error failure ∧ failure.causes = streamCauses fault

theorem runOver_eq_run {fs : FileSystem} {stamp input : String} {config : Config}
    {demangle : Demangler} {l : Location} {content : Bytes} {functions : List MachineFunction}
    (hinput : fs.find input = .ok (l, .file content))
    (hlists : Lists MachineFunction.codec functions content)
    (hout : ∀ k, fs.locate config.output = .ok k → k ≠ l)
    (hdiag : ∀ path ∈ config.diagnostics, ∀ k, fs.locate path = .ok k → k ≠ l) :
    (runOver fs stamp input config demangle).1 =
        (Engine.run fs stamp config demangle Instr.listing functions).1 ∧
      Matches (Engine.run fs stamp config demangle Instr.listing functions).2
        (runOver fs stamp input config demangle).2 := by
  simp only [runOver, Engine.run]
  rcases hstart : Engine.start fs stamp config demangle Instr.listing with ⟨fs₁, (fault | e)⟩
  · exact ⟨rfl, _, rfl, rfl⟩
  -- The input is read after the streams have been opened, and is still what it was.
  have hspares :=
    (Engine.start_frame (fun _ => ⟨hout, hdiag⟩) stamp demangle Instr.listing).1
  rw [hstart] at hspares
  have hread := FileSystem.readBytes_of_spares hinput hspares
  simp only [visitFile_of_readBytes hread, Lines.visit_lists MachineFunction.codec_selfDelimiting _
    hlists]
  have hvisit := visitAll_inspectOne fs₁ e functions
  rcases heach : Engine.inspectEach fs₁ e functions with ⟨fs₂, e₂, (fault | u)⟩
  · rw [heach] at hvisit
    obtain ⟨name, hvisit⟩ := hvisit
    simp only [hvisit]
    exact ⟨rfl, _, rfl, rfl⟩
  · rw [heach] at hvisit
    rcases hfinish : e₂.finish fs₂ with ⟨fs₃, (fault | summary)⟩
    · simp only [hvisit, Except.mapError, hfinish]
      exact ⟨trivial, _, rfl, rfl⟩
    · simp only [hvisit, Except.mapError, hfinish]
      exact ⟨trivial, rfl⟩

theorem isFile_of_find {fs : FileSystem} {path : String} {l : Location} {content : Bytes}
    (h : fs.find path = .ok (l, .file content)) : fs.isFile path = true := by
  rw [FileSystem.isFile, h]

/-- With a file and a configuration the command is a run over the file. -/
theorem inspect_eq_runOver {fs : FileSystem} {input : String} {configPath : Option String}
    {o : Config.Overrides} {config : Config} (hfile : fs.isFile input = true)
    (hconfig : resolveConfig fs configPath o = .ok config) (stamp : String) (json : Bool)
    (demangle : Demangler) :
    (inspect fs stamp input configPath o json demangle).files =
        (runOver fs stamp input config demangle).1 ∧
      (inspect fs stamp input configPath o json demangle).result =
        (runOver fs stamp input config demangle).2 := by
  simp only [inspect, hfile, hconfig]
  rcases runOver fs stamp input config demangle with ⟨fs', (failure | summary)⟩
  · exact ⟨rfl, rfl⟩
  · exact ⟨rfl, rfl⟩

/-! ## Two functions -/

/-- A function with a mangled name whose only block returns. -/
def returning : MachineFunction where
  name := "_Zf"
  blocks := [{ number := 0, symbol := "b", instrs := [{ opcode := 1, kind := .ret }] }]

/-- Two functions with a blank line between them. -/
def twoFunctions : Bytes :=
  lineBytes MachineFunction.codec returning ++
    newline :: lineBytes MachineFunction.codec { name := "g" }

theorem lists_twoFunctions :
    Lists MachineFunction.codec [returning, { name := "g" }] twoFunctions := by
  have hblank : Lists MachineFunction.codec [{ name := "g" }]
      (textBytes "" ++ newline :: lineBytes MachineFunction.codec { name := "g" }) :=
    .blank "" rfl (by decide) (Lines.lists_lineBytes MachineFunction.codec _)
  have hboth := Lists.append [returning] hblank
  rwa [List.flatMap_singleton, textBytes_empty, List.nil_append, List.singleton_append,
    ← twoFunctions] at hboth

/-- A file and nothing else. -/
def onlyInput (content : Bytes) : FileSystem := ⟨"/", [(["i"], .file content)]⟩

theorem find_onlyInput (content : Bytes) :
    (onlyInput content).find "i" = .ok (["i"], .file content) := by
  cbv

theorem onlyInput_output (content : Bytes) :
    Writable (onlyInput content) Engine.twoFiles.output ["r"] :=
  ⟨by cbv, by decide, .inl rfl⟩

theorem onlyInput_diagnostics (content : Bytes) : ∀ path ∈ Engine.twoFiles.diagnostics,
    Writable (onlyInput content) path ["d"] := by
  rintro path ⟨⟩
  exact ⟨by cbv, by decide, .inl rfl⟩

/-! ## The command -/

/-- A command over a file of functions, apart from the outputs, leaves the same file system as a run
of the engine over the functions and gives the counters of the run. It fails if the run does, with
the fault of the run as its cause. Where the outputs are ordinary files of their own, a run at
another time has the same counters and records, and the same notes after the header. -/
theorem inspect_refines_run {fs : FileSystem} {input : String} {configPath : Option String}
    {o : Config.Overrides} {config : Config} {l : Location} {content : Bytes}
    {functions : List MachineFunction} (stamp : String) (json : Bool) (demangle : Demangler)
    (hinput : fs.find input = .ok (l, .file content))
    (hlists : Lists MachineFunction.codec functions content)
    (hconfig : resolveConfig fs configPath o = .ok config)
    (hout : ∀ k, fs.locate config.output = .ok k → k ≠ l)
    (hdiag : ∀ path ∈ config.diagnostics, ∀ k, fs.locate path = .ok k → k ≠ l) :
    let command := inspect fs stamp input configPath o json demangle
    let run (stamp : String) := Engine.run fs stamp config demangle Instr.listing functions
    command.files = (run stamp).1 ∧
    (∀ summary, (run stamp).2 = .ok summary → command.result = .ok summary) ∧
    (∀ fault, (run stamp).2 = .error fault →
      ∃ failure, command.result = .error failure ∧ failure.causes = streamCauses fault) ∧
    (∀ fs' fault, Engine.start fs stamp config demangle Instr.listing = (fs', .error fault) →
      command.result = .error (.notStarted config.output fault)) ∧
    (∀ (stamp' : String) (k : Location), config.enabled = true → Writable fs config.output k →
      (∀ path ∈ config.diagnostics, ∃ m, Writable fs path m ∧ m ≠ k) →
      (∃ summary, (run stamp').2 = .ok summary ∧ command.result = .ok summary) ∧
      (run stamp').1.node? k = command.files.node? k ∧
      ∀ path ∈ config.diagnostics, ∀ m, fs.locate path = .ok m → ∃ lines,
        (run stamp').1.node? m = some (.file ((NoteStream.header stamp').flatten ++ lines)) ∧
        command.files.node? m = some (.file ((NoteStream.header stamp).flatten ++ lines))) := by
  intro command run
  obtain ⟨hfiles, hresult⟩ :=
    inspect_eq_runOver (isFile_of_find hinput) hconfig stamp json demangle
  obtain ⟨hrun, hmatches⟩ := runOver_eq_run hinput hlists hout hdiag
  rw [← hfiles] at hrun
  rw [← hresult] at hmatches
  have hok : ∀ summary, (run stamp).2 = .ok summary → command.result = .ok summary := by
    intro summary hsummary
    rwa [hsummary] at hmatches
  refine ⟨hrun, hok, ?_, ?_, ?_⟩
  · intro fault hfault
    rwa [hfault] at hmatches
  · intro fs' fault hstart
    rw [hresult, runOver, hstart]
  · intro stamp' k henabled hwritable hnotes
    obtain ⟨fs₁, hnow, hrecorded, hnoted, -⟩ := Engine.run_of_writable stamp demangle Instr.listing
      functions henabled hwritable hnotes
    -- The same holds of a run at any other time, so both have the same records and notes.
    obtain ⟨fs₂, hlater, hrecorded', hnoted', -⟩ := Engine.run_of_writable stamp' demangle
      Instr.listing functions henabled hwritable hnotes
    have hfs₁ : command.files = fs₁ := hrun.trans (congrArg Prod.fst hnow)
    have hfs₂ : (run stamp').1 = fs₂ := congrArg Prod.fst hlater
    refine ⟨⟨_, congrArg Prod.snd hlater, hok _ (congrArg Prod.snd hnow)⟩, ?_, ?_⟩
    · rw [hfs₁, hfs₂, hrecorded, hrecorded']
    · intro path hpath m hlocate
      have hm : m ∈ Engine.notesAt fs config := by
        rw [Engine.notesAt, hpath, Option.bind_some, hlocate]
        rfl
      rw [hfs₁, hfs₂]
      exact ⟨_, hnoted' m hm, hnoted m hm⟩

/-- The two functions are recorded. At another time a run leaves the same records, and the same five
notes behind its header. -/
theorem inspect_refines_run_twoFunctions :
    let fs := onlyInput twoFunctions
    let command := inspect fs "" "i" none { output := some "r", diagnostics := some "d" } false
      (fun _ => none)
    command.result =
      .ok { functionsInspected := 2, recordsWritten := 2, diagnosticsWritten := 5 } ∧
    ∃ later summary lines,
      Engine.run fs "later" Engine.twoFiles (fun _ => none) Instr.listing
        [returning, { name := "g" }] = (later, .ok summary) ∧
      later.node? ["r"] = command.files.node? ["r"] ∧
      later.node? ["d"] = some (.file ((NoteStream.header "later").flatten ++ lines)) ∧
      command.files.node? ["d"] = some (.file ((NoteStream.header "").flatten ++ lines)) := by
  have hinput := find_onlyInput twoFunctions
  have hout := onlyInput_output twoFunctions
  have hdiag := onlyInput_diagnostics twoFunctions
  -- Nothing else is needed of the files, so they need not be evaluated.
  generalize onlyInput twoFunctions = fs at hinput hout hdiag ⊢
  have hconfig : resolveConfig fs none { output := some "r", diagnostics := some "d" } =
      .ok Engine.twoFiles := rfl
  have hnotes : ∀ path ∈ Engine.twoFiles.diagnostics, ∃ m, Writable fs path m ∧ m ≠ ["r"] :=
    fun path hpath => ⟨["d"], hdiag path hpath, by decide⟩
  have hat : Engine.notesAt fs Engine.twoFiles = some ["d"] :=
    Engine.notesAt_eq_some.2 ⟨"d", rfl, (hdiag "d" rfl).locate_eq⟩
  obtain ⟨now, hnow, -⟩ := Engine.run_of_writable "" (fun _ => none) Instr.listing
    [returning, { name := "g" }] rfl hout hnotes
  obtain ⟨later, hlater, -⟩ := Engine.run_of_writable "later" (fun _ => none) Instr.listing
    [returning, { name := "g" }] rfl hout hnotes
  obtain ⟨-, hok, -, -, hsame⟩ := inspect_refines_run "" false (fun _ => none) hinput
    lists_twoFunctions hconfig (fun _ => hout.ne_of_locate (by decide))
    (fun path hpath _ => (hdiag path hpath).ne_of_locate (by decide))
  obtain ⟨-, hrecords, hlines⟩ := hsame "later" ["r"] rfl hout hnotes
  simp only [hnow, hat, hlater] at hok hrecords hlines
  obtain ⟨lines, hnoted⟩ := hlines "d" rfl ["d"] (hdiag "d" rfl).locate_eq
  exact ⟨hok _ rfl, later, _, lines, hlater, hrecords, hnoted⟩

end Command

end MachineAtlas
