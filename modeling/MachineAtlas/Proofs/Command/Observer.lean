-- SUMMARY: Inspecting leaves its input alone and visits all of it if no output leads to it.
import MachineAtlas.Proofs.Command.Inspect
import MachineAtlas.Proofs.Engine.Counters
import MachineAtlas.Proofs.Engine.Isolation
import MachineAtlas.Proofs.Files.Reading
/-!
# The input of a command

Inspecting a file leaves it as it is and visits every line of it that is not blank, as long as no
output leads to it. The outputs are opened before the input is read, and nothing compares their
paths with it, so a file that is its own output is emptied first, and nothing in it is inspected.
-/
namespace MachineAtlas

open Buffered (capacity)
open FileSystem (SameDirectories Spares Writable)
open Lines (isBlankLine lineBytes split)

namespace Engine

variable {fs fs' : FileSystem} {e e' : Engine} {l : Location}

/-! ## Outputs that lead to a place -/

theorem outputsAvoid_iff {config : Config} : OutputsAvoid fs config l ↔
    (config.enabled = true →
      fs.locate config.output ≠ .ok l ∧ notesAt fs config ≠ some l) := by
  constructor
  · intro h henabled
    obtain ⟨hout, hdiag⟩ := h henabled
    constructor
    · intro hlocate
      exact hout l hlocate rfl
    · intro hnotes
      obtain ⟨path, hpath, hlocate⟩ := notesAt_eq_some.1 hnotes
      exact hdiag path hpath l hlocate rfl
  · intro h henabled
    obtain ⟨hout, hnotes⟩ := h henabled
    constructor
    · rintro k hk rfl
      exact hout hk
    · rintro path hpath k hk rfl
      exact hnotes (notesAt_eq_some.2 ⟨path, hpath, hk⟩)

theorem not_outputsAvoid {config : Config} : ¬ OutputsAvoid fs config l ↔
    config.enabled = true ∧ (fs.locate config.output = .ok l ∨ notesAt fs config = some l) := by
  rw [outputsAvoid_iff, Classical.not_imp, not_and_or, not_not, not_not]

/-! ## Runs without calls -/

section

variable {stamp : String} {config : Config} {demangle : Demangler} {printer : Printer}
  {content : Bytes}

/-- A file that the output of a started run leads to can be written. -/
theorem writable_output (henabled : config.enabled = true)
    (hstart : start fs stamp config demangle printer = (fs', .ok e))
    (hnode : fs.node? l = some (.file content)) (hout : fs.locate config.output = .ok l) :
    Writable fs config.output l := by
  obtain ⟨k, hlocate, hcases⟩ := output_of_start henabled hstart
  obtain rfl : l = k := Except.ok.inj (hout.symm.trans hlocate)
  rcases hcases with hwritable | ⟨n, hn, hdevice⟩
  · exact hwritable
  · exact absurd hdevice (FileSystem.ne_fixed (.inr ⟨_, hnode⟩) n (n.isFixed_of_isDevice hn))

/-- A file that the notes of a started run lead to can be written. -/
theorem writable_notes {path : String} (henabled : config.enabled = true)
    (hstart : start fs stamp config demangle printer = (fs', .ok e))
    (hnode : fs.node? l = some (.file content)) (hpath : config.diagnostics = some path)
    (hdiag : fs.locate path = .ok l) (hfits : (NoteStream.header stamp).flatten.length < capacity) :
    Writable fs path l := by
  obtain ⟨fs₁, notes, records, hnotes, -, -⟩ := start_eq_ok henabled hstart
  rw [openNotes, hpath] at hnotes
  obtain ⟨file, -, hcreate, -⟩ := NoteStream.create_wrote hnotes hfits
  obtain ⟨hlocate, -, hcases⟩ := FileSystem.create_cases hcreate
  obtain rfl : l = file.handle.location := Except.ok.inj (hdiag.symm.trans hlocate)
  rcases hcases with ⟨hwritable, -⟩ | ⟨⟨n, hn, hdevice⟩, -⟩
  · exact hwritable
  · exact absurd hdevice (FileSystem.ne_fixed (.inr ⟨_, hnode⟩) n (n.isFixed_of_isDevice hn))

/-- A run without calls leaves an empty file, or one with a header if the notes lead to it, in place
of any file that was there. -/
theorem finish_of_start (henabled : config.enabled = true)
    (hstart : start fs stamp config demangle printer = (fs', .ok e))
    (hnode : fs.node? l = some (.file content))
    (hleads : fs.locate config.output = .ok l ∨ notesAt fs config = some l)
    (hfits : (NoteStream.header stamp).flatten.length < capacity) :
    (e.finish fs').1.node? l = some (.file
      (if notesAt fs config = some l then (NoteStream.header stamp).flatten else [])) := by
  by_cases hat : notesAt fs config = some l
  · rw [if_pos hat]
    obtain ⟨path, hpath, hdiag⟩ := notesAt_eq_some.1 hat
    -- The records may go there too, but as there are none, they do not show.
    by_cases hout : fs.locate config.output = .ok l
    · have hwritable := writable_output henabled hstart hnode hout
      obtain ⟨hshares, -⟩ := start_shares henabled hstart hwritable hpath hdiag hfits
      obtain ⟨fs₂, left, hfinish, hleft, -, hfew⟩ := hshares.finish
      rw [hfinish, hleft, hfew (by decide)]
      rfl
    · have hwritable := writable_notes henabled hstart hnode hpath hdiag hfits
      have hapart : ∀ k, fs.locate config.output = .ok k → k ≠ l := by
        rintro k hk rfl
        exact hout hk
      obtain ⟨hnoted, -⟩ := start_notes henabled hpath hwritable hapart hstart
      obtain ⟨hleft, -⟩ := hnoted.finish
      rw [hleft, notesContent, List.flatMap_nil, List.append_nil]
  · rw [if_neg hat]
    have hapart : ∀ path ∈ config.diagnostics, ∀ k, fs.locate path = .ok k → k ≠ l := by
      rintro path hpath k hk rfl
      exact hat (notesAt_eq_some.2 ⟨path, hpath, hk⟩)
    have hwritable := writable_output henabled hstart hnode (hleads.resolve_right hat)
    obtain ⟨hholds, -⟩ := start_holds henabled hstart hwritable hapart
    exact hholds.finish

end

end Engine

namespace Command

variable {fs fs' : FileSystem} {stamp input : String} {config : Config} {demangle : Demangler}
  {l : Location} {content : Bytes} {summary : RunSummary}

/-! ## Inputs apart from the outputs -/

/-- What every visit preserves holds after all visits. -/
theorem visitFile_invariant {α σ : Type} {I : σ → Prop} {visitor : σ → α → σ × Except Failure Unit}
    (hvisit : ∀ s a, I s → I (visitor s a).1) {s : σ} (h : I s) (codec : Json.Codec α)
    (what path : String) (fs : FileSystem) : I (visitFile codec what path fs visitor s).1 := by
  unfold visitFile
  split
  · exact h
  · split
    · exact h
    · exact Lines.visitFrom_invariant hvisit h _ _ _

/-- The calls for the lines of a file leave a place alone that no stream goes to, the place of the
file itself not excepted. -/
theorem inspectOne_frame (hspares : Spares l fs fs') {e : Engine} (havoids : e.Avoids l)
    (input : String) :
    let visited := visitFile MachineFunction.codec "function snapshot" input fs' inspectOne (fs', e)
    Spares l fs visited.1.1 ∧ visited.1.2.Avoids l := by
  let kept (s : FileSystem × Engine) : Prop := Spares l fs s.1 ∧ s.2.Avoids l
  have hcall (s : FileSystem × Engine) (f : MachineFunction) (h : kept s) :
      kept (inspectOne s f).1 := by
    obtain ⟨hstep, hnext⟩ := h.2.inspect s.1 f
    exact ⟨h.1.trans hstep, hnext⟩
  have hbegun : kept (fs', e) := ⟨hspares, havoids⟩
  exact visitFile_invariant hcall hbegun MachineFunction.codec "function snapshot" input fs'

/-- A run over a file leaves a place alone that no output leads to, however it ends. -/
theorem runOver_frame (havoid : Engine.OutputsAvoid fs config l) (stamp input : String)
    (demangle : Demangler) : Spares l fs (runOver fs stamp input config demangle).1 := by
  obtain ⟨hspares, havoids⟩ := Engine.start_frame havoid stamp demangle Instr.listing
  rcases hstart : Engine.start fs stamp config demangle Instr.listing with ⟨fs₁, (fault | e)⟩
  · rw [hstart] at hspares
    simp only [runOver, hstart]
    exact hspares
  rw [hstart] at hspares havoids
  obtain ⟨hvisited, havoids₂⟩ := inspectOne_frame hspares (havoids e rfl) input
  rcases hwalk : visitFile MachineFunction.codec "function snapshot" input fs₁ inspectOne (fs₁, e)
    with ⟨⟨fs₂, e₂⟩, (failure | n)⟩
  all_goals
    rw [hwalk] at hvisited havoids₂
  · simp only [runOver, hstart, hwalk]
    exact hvisited.trans (havoids₂.drop fs₂)
  have hfinish := havoids₂.finish fs₂
  rcases hend : e₂.finish fs₂ with ⟨fs₃, (fault | summary)⟩
  all_goals
    rw [hend] at hfinish
    simp only [runOver, hstart, hwalk, hend]
    exact hvisited.trans hfinish

/-- A run over a file that succeeds has inspected all lines that are not blank. -/
theorem runOver_counts (hinput : fs.find input = .ok (l, .file content))
    (havoid : Engine.OutputsAvoid fs config l) (henabled : config.enabled = true)
    (hrun : (runOver fs stamp input config demangle).2 = .ok summary) :
    summary.functionsInspected = (split content).countP fun line => ! isBlankLine line := by
  have hspares := (Engine.start_frame havoid stamp demangle Instr.listing).1
  rcases hstart : Engine.start fs stamp config demangle Instr.listing with ⟨fs₁, (fault | e)⟩
  · simp [runOver, hstart] at hrun
  rw [hstart] at hspares
  have hread := FileSystem.readBytes_of_spares hinput hspares
  have hwalk : visitFile MachineFunction.codec "function snapshot" input fs₁ inspectOne (fs₁, e) =
      _ := visitFile_of_readBytes hread inspectOne (fs₁, e)
  rcases hvisit : Lines.visit MachineFunction.codec inspectOne (fs₁, e) content
    with ⟨⟨fs₂, e₂⟩, (fault | n)⟩
  all_goals
    rw [hvisit] at hwalk
  · simp [runOver, hstart, hwalk, Except.mapError] at hrun
  rcases hend : e₂.finish fs₂ with ⟨fs₃, (fault | summary')⟩
  · simp [runOver, hstart, hwalk, hend, Except.mapError] at hrun
  simp only [runOver, hstart, hwalk, hend, Except.mapError, Except.ok.injEq] at hrun
  subst hrun
  -- The walk has come to the end, so no line was skipped but blank ones.
  obtain ⟨hreadable, hall⟩ := Lines.visitFrom_eq_ok hvisit
  have heach := visitAll_inspectOne fs₁ e (Lines.values MachineFunction.codec (split content))
  rcases hcalls : Engine.inspectEach fs₁ e (Lines.values MachineFunction.codec (split content))
    with ⟨fs₂', e₂', (fault | u)⟩
  · rw [hcalls, hall] at heach
    obtain ⟨name, heq⟩ := heach
    cases heq
  rw [hcalls, hall] at heach
  cases heach
  obtain ⟨fs₀, notes, records, -, -, rfl⟩ := Engine.start_eq_ok henabled hstart
  rw [Engine.finish_eq_ok hend, Engine.inspectEach_counts rfl hcalls,
    Lines.length_values hreadable]
  exact Nat.zero_add _

/-! ## Inputs that are outputs -/

/-- A run over a file that has been emptied ends as it was begun. -/
theorem runOver_of_empty {e : Engine}
    (hstart : Engine.start fs stamp config demangle Instr.listing = (fs', .ok e))
    (hread : fs'.readBytes input = .ok []) :
    (runOver fs stamp input config demangle).1 = (e.finish fs').1 ∧
      ∀ summary, (runOver fs stamp input config demangle).2 = .ok summary →
        summary = e.summary := by
  have hwalk : visitFile MachineFunction.codec "function snapshot" input fs' inspectOne (fs', e) =
      ((fs', e), .ok 0) := visitFile_of_readBytes hread inspectOne (fs', e)
  simp only [runOver, hstart, hwalk]
  rcases hend : e.finish fs' with ⟨fs₂, (fault | summary)⟩
  · refine ⟨rfl, ?_⟩
    rintro summary ⟨⟩
  · refine ⟨rfl, ?_⟩
    rintro _ ⟨⟩
    exact Engine.finish_eq_ok hend

/-- If no output leads to the input of a command, the input is left as it was, whatever the command
ends in, and if it succeeds, every line of the input that is not blank has been inspected. If one
does, the input is emptied before it is read: nothing of it is inspected, and what is left there is
the header of the notes if it is these that go there, and else nothing. -/
theorem inspect_observes {fs : FileSystem} {input : String} {l : Location} {content : Bytes}
    (hinput : fs.find input = .ok (l, .file content)) (stamp : String)
    (configPath : Option String) (o : Config.Overrides) (json : Bool) (demangle : Demangler) :
    let command := inspect fs stamp input configPath o json demangle
    let header := (NoteStream.header stamp).flatten
    ((∀ config, resolveConfig fs configPath o = .ok config → Engine.OutputsAvoid fs config l) →
      command.files.node? l = some (.file content) ∧
      ∀ config, resolveConfig fs configPath o = .ok config → config.enabled = true →
        ∀ summary, command.result = .ok summary →
          summary.functionsInspected = (split content).countP fun line => ! isBlankLine line) ∧
    ∀ config fs' e, resolveConfig fs configPath o = .ok config →
      ¬ Engine.OutputsAvoid fs config l →
      Engine.start fs stamp config demangle Instr.listing = (fs', .ok e) → header.length < 8192 →
      command.files.node? l =
        some (.file (if Engine.notesAt fs config = some l then header else [])) ∧
      ∀ summary, command.result = .ok summary → summary = {} := by
  intro command header
  have hfile := isFile_of_find hinput
  obtain ⟨-, -, hnode⟩ := FileSystem.find_file hinput
  constructor
  · intro havoid
    constructor
    · rcases hconfig : resolveConfig fs configPath o with failure | config
      · have hcommand : command = ⟨fs, "", .error failure⟩ := by
          simp only [command, inspect, hfile, hconfig]
          rfl
        rw [hcommand]
        exact hnode
      · rw [(inspect_eq_runOver hfile hconfig stamp json demangle).1]
        have hspares := runOver_frame (havoid config hconfig) stamp input demangle
        exact hspares.node?.trans hnode
    · intro config hconfig henabled summary hresult
      rw [(inspect_eq_runOver hfile hconfig stamp json demangle).2] at hresult
      exact runOver_counts hinput (havoid config hconfig) henabled hresult
  · intro config fs' e hconfig hleads hstart hfits
    obtain ⟨henabled, hleads⟩ := Engine.not_outputsAvoid.1 hleads
    obtain ⟨hfiles, hresult⟩ := inspect_eq_runOver hfile hconfig stamp json demangle
    have hsame := Engine.start_sameDirectories henabled hstart
    have hempty := Engine.start_empties henabled hstart hnode hleads hfits
    have hread : fs'.readBytes input = .ok [] := (Writable.of_find hinput).readBytes_eq hsame hempty
    obtain ⟨hrun, hsummary⟩ := runOver_of_empty hstart hread
    obtain ⟨fs₀, notes, records, -, -, rfl⟩ := Engine.start_eq_ok henabled hstart
    refine ⟨?_, fun summary h => hsummary summary (hresult ▸ h)⟩
    rw [hfiles, hrun]
    exact Engine.finish_of_start henabled hstart hnode hleads hfits

/-- Both functions of a file are inspected, and are still in the file with the line between them. -/
theorem inspect_observes_twoFunctions :
    let command := inspect (onlyInput twoFunctions) "" "i" none
      { output := some "r", diagnostics := some "d" } false (fun _ => none)
    command.files.node? ["i"] = some (.file twoFunctions) ∧
      ∃ summary, command.result = .ok summary ∧ summary.functionsInspected = 2 := by
  obtain ⟨hreadable, hvalues⟩ := lists_twoFunctions.values_eq MachineFunction.codec_selfDelimiting
  have hlines := Lines.length_values hreadable
  rw [hvalues] at hlines
  have hinput := find_onlyInput twoFunctions
  have hout := onlyInput_output twoFunctions
  have hdiag := onlyInput_diagnostics twoFunctions
  generalize onlyInput twoFunctions = fs at hinput hout hdiag ⊢
  have hconfig : resolveConfig fs none { output := some "r", diagnostics := some "d" } =
      .ok Engine.twoFiles := rfl
  have hne : ∀ k, fs.locate Engine.twoFiles.output = .ok k → k ≠ ["i"] :=
    fun _ => hout.ne_of_locate (by decide)
  have hapart : ∀ path ∈ Engine.twoFiles.diagnostics, ∀ k, fs.locate path = .ok k → k ≠ ["i"] :=
    fun path hpath _ => (hdiag path hpath).ne_of_locate (by decide)
  -- The run succeeds, as its outputs are ordinary files.
  obtain ⟨fs', hrun, -⟩ := Engine.run_of_writable "" (fun _ => none) Instr.listing
    [returning, { name := "g" }] rfl hout fun path hpath => ⟨["d"], hdiag path hpath, by decide⟩
  obtain ⟨-, hok⟩ := runOver_eq_run hinput lists_twoFunctions hne hapart
  rw [hrun] at hok
  have hresult := (inspect_eq_runOver (isFile_of_find hinput) hconfig "" false _).2.trans hok
  obtain ⟨hobserves, -⟩ := inspect_observes hinput "" none
    { output := some "r", diagnostics := some "d" } false (fun _ => none)
  have havoid : ∀ config, resolveConfig fs none { output := some "r", diagnostics := some "d" } =
      .ok config → Engine.OutputsAvoid fs config ["i"] := by
    intro config h
    rw [hconfig] at h
    cases h
    exact fun _ => ⟨hne, hapart⟩
  obtain ⟨hnode, hcount⟩ := hobserves havoid
  exact ⟨hnode, _, hresult, (hcount _ hconfig rfl _ hresult).trans hlines.symm⟩

/-- A file of one function. -/
def oneFunction : FileSystem :=
  ⟨"/", [(["i"], .file (textBytes "\x7b\"name\":\"f\"\x7d\n"))]⟩

/-- A file whose records go to itself is emptied, and its function is not inspected. -/
theorem inspect_empties :
    let command := inspect oneFunction "" "i" none { output := some "i" } false (fun _ => none)
    ∃ content, oneFunction.node? ["i"] = some (.file content) ∧
      ((split content).countP fun line => ! isBlankLine line) = 1 ∧
      command.files.node? ["i"] = some (.file []) ∧ command.result = .ok {} := by
  exact ⟨_, rfl, by cbv, by cbv, by cbv⟩

end Command

end MachineAtlas
