-- SUMMARY: What a command that fails before it inspects has changed, and where it fails.
import MachineAtlas.Proofs.Command.Observer
import MachineAtlas.Proofs.Engine.Opening
/-!
# Commands that fail before they inspect

A command looks for its input, then for its configuration, and opens its outputs last. Up to there
it has changed nothing, except that notes may have been begun when the records cannot be. A command
that is disabled changes nothing at all.
-/
namespace MachineAtlas.Command

open FileSystem (Writable)

variable {fs fs' : FileSystem} {stamp input : String} {configPath : Option String}
  {o : Config.Overrides} {config : Config} {demangle : Demangler} {failure : Failure}

namespace Failure

/-- The configuration cannot be read, or what was read is none. -/
def isOfConfig : Failure → Bool
  | .configUnread .. | .configMalformed .. | .configMalformedYaml .. => true
  | _ => false

/-- The command has not come to its functions. -/
def isEarly : Failure → Bool
  | .noInput _ | .notStarted .. => true
  | failure => failure.isOfConfig

theorem isEarly_of_isOfConfig {failure : Failure} (h : failure.isOfConfig = true) :
    failure.isEarly = true := by
  unfold isEarly
  split
  · rfl
  · rfl
  · exact h

end Failure

/-! ## Configurations -/

theorem isOfConfig_of_loadConfig {path : String} (h : loadConfig fs path = .error failure) :
    failure.isOfConfig = true := by
  unfold loadConfig at h
  split at h
  · cases h
    rfl
  · split at h
    · split at h
      · cases h
      · cases h
        rfl
    · split at h
      · cases h
      · cases h
        rfl

theorem isOfConfig_of_resolveConfig (h : resolveConfig fs configPath o = .error failure) :
    failure.isOfConfig = true := by
  cases configPath with
  | none => cases h
  | some path =>
      rcases hload : loadConfig fs path with failure' | config
      · simp only [resolveConfig, hload, bind, Except.bind, Except.error.injEq] at h
        exact h ▸ isOfConfig_of_loadConfig hload
      · simp [resolveConfig, hload, bind, Except.bind, pure, Except.pure] at h

/-! ## Runs over files -/

/-- A walk over a file fails for what is in it, or as its visitor does. -/
theorem visitFile_late {α σ : Type} {visitor : σ → α → σ × Except Failure Unit}
    (hvisit : ∀ s a e, (visitor s a).2 = .error e → e.isEarly = false) {codec : Json.Codec α}
    {what path : String} {s s' : σ}
    (h : visitFile codec what path fs visitor s = (s', .error failure)) :
    failure.isEarly = false := by
  unfold visitFile at h
  split at h
  · cases h
    rfl
  split at h
  · cases h
    rfl
  rename_i content _
  rcases hwalk : Lines.visit codec visitor s content with ⟨s₁, (fault | n)⟩
  · simp only [hwalk, Except.mapError, Prod.mk.injEq, Except.error.injEq] at h
    obtain ⟨-, rfl⟩ := h
    cases fault with
    | unreadable io => rfl
    | malformed line fault => rfl
    | refused e =>
        obtain ⟨s₀, a, hrefused⟩ := Lines.visitFrom_refused hwalk
        exact hvisit s₀ a e hrefused
  · simp [hwalk, Except.mapError] at h

/-- A run that has been started fails for its functions or when it is closed. -/
theorem runOver_late {e : Engine}
    (hstart : Engine.start fs stamp config demangle Instr.listing = (fs', .ok e))
    (h : (runOver fs stamp input config demangle).2 = .error failure) :
    failure.isEarly = false := by
  rcases hwalk : visitFile MachineFunction.codec "function snapshot" input fs' inspectOne (fs', e)
    with ⟨⟨fs₂, e₂⟩, (failure' | n)⟩
  · simp only [runOver, hstart, hwalk, Except.error.injEq] at h
    subst h
    refine visitFile_late (fun s f e herror => ?_) hwalk
    simp only [inspectOne] at herror
    split at herror
    · cases herror
    · cases herror
      rfl
  · rcases hend : e₂.finish fs₂ with ⟨fs₃, (fault | summary)⟩
    · simp only [runOver, hstart, hwalk, hend, Except.error.injEq] at h
      subst h
      rfl
    · simp [runOver, hstart, hwalk, hend] at h

/-- A run that is not enabled leaves all files as they are, whatever is in the input. -/
theorem runOver_of_disabled (h : config.enabled = false) :
    (runOver fs stamp input config demangle).1 = fs := by
  let e : Engine := { config, streams? := none, demangle, printer := Instr.listing, summary := {} }
  have hstart : Engine.start fs stamp config demangle Instr.listing = (fs, .ok e) :=
    Engine.start_of_disabled h
  have hcall (s : FileSystem × Engine) (f : MachineFunction) (hs : s = (fs, e)) :
      (inspectOne s f).1 = (fs, e) := by
    rw [hs]
    rfl
  have hvisited := visitFile_invariant hcall rfl MachineFunction.codec "function snapshot" input fs
  rcases hwalk : visitFile MachineFunction.codec "function snapshot" input fs inspectOne (fs, e)
    with ⟨s, (failure | n)⟩
  all_goals
    rw [hwalk] at hvisited
    cases hvisited
    simp only [runOver, hstart, hwalk]
    rfl

/-- A run over a file has its configuration and an input to look for. -/
theorem runOver_configured (h : (runOver fs stamp input config demangle).2 = .error failure) :
    failure.isOfConfig = false ∧ ∀ path, failure ≠ .noInput path := by
  rcases hstart : Engine.start fs stamp config demangle Instr.listing with ⟨fs', (fault | e)⟩
  · simp only [runOver, hstart, Except.error.injEq] at h
    subst h
    exact ⟨rfl, fun path heq => by cases heq⟩
  · have hlate := runOver_late hstart h
    constructor
    · rw [Bool.eq_false_iff]
      intro hconfig
      rw [Failure.isEarly_of_isOfConfig hconfig] at hlate
      cases hlate
    · rintro path rfl
      cases hlate

/-- A run that fails to open an output has changed nothing but the file of its notes, if that could
be opened, and no output before this one fails. -/
theorem runOver_unopened {output path : String} {io : IoFault}
    (h : (runOver fs stamp input config demangle).2 =
      .error (.notStarted output (.unopened path io))) :
    output = config.output ∧ Engine.unopened? fs config = some path ∧
      (path ∈ config.diagnostics → (runOver fs stamp input config demangle).1 = fs) ∧
      (path ∉ config.diagnostics →
        Engine.HeaderOnly fs stamp config (runOver fs stamp input config demangle).1) := by
  cases henabled : config.enabled with
  | false => cases runOver_late (Engine.start_of_disabled henabled) h
  | true =>
      rcases Engine.start_cases henabled fs stamp demangle Instr.listing with
        ⟨-, fs', e, hstart⟩ | ⟨first, fs', io', hfirst, hstart, hleft⟩ | ⟨-, fs', io', hstart⟩
      · cases runOver_late hstart h
      · have hrun : runOver fs stamp input config demangle =
            (fs', .error (.notStarted config.output (.unopened first io'))) := by
          simp only [runOver, hstart]
        rw [hrun] at h ⊢
        cases h
        exact ⟨rfl, hfirst, hleft⟩
      · simp [runOver, hstart] at h

/-- A run that is enabled and has a short header fails for the first of its outputs that cannot be
opened. -/
theorem exists_runOver_unopened {path : String} (henabled : config.enabled = true)
    (hfits : (NoteStream.header stamp).flatten.length < Buffered.capacity)
    (h : Engine.unopened? fs config = some path) :
    ∃ io, (runOver fs stamp input config demangle).2 =
      .error (.notStarted config.output (.unopened path io)) := by
  rcases Engine.start_cases henabled fs stamp demangle Instr.listing with
    ⟨hnone, -⟩ | ⟨first, fs', io, hfirst, hstart, -⟩ | ⟨hlong, -⟩
  · rw [hnone] at h
    cases h
  · rw [hfirst] at h
    cases h
    exact ⟨io, by simp only [runOver, hstart]⟩
  · exact absurd hfits (Nat.not_lt.2 hlong)

/-! ## Commands -/

theorem inspect_of_no_input (h : fs.isFile input = false) (json : Bool) :
    inspect fs stamp input configPath o json demangle = ⟨fs, "", .error (.noInput input)⟩ := by
  simp [inspect, h]

theorem inspect_of_no_config (hfile : fs.isFile input = true)
    (h : resolveConfig fs configPath o = .error failure) (json : Bool) :
    inspect fs stamp input configPath o json demangle = ⟨fs, "", .error failure⟩ := by
  simp [inspect, hfile, h]

/-- A command fails for its input exactly if that is no file. -/
theorem inspect_eq_noInput (json : Bool) (path : String) :
    (inspect fs stamp input configPath o json demangle).result = .error (.noInput path) ↔
      path = input ∧ fs.isFile input = false := by
  cases hfile : fs.isFile input with
  | false =>
      rw [inspect_of_no_input hfile]
      simp [eq_comm]
  | true =>
      refine ⟨fun h => ?_, fun ⟨_, h⟩ => by cases h⟩
      rcases hconfig : resolveConfig fs configPath o with failure | config
      · rw [inspect_of_no_config hfile hconfig] at h
        cases h
        cases isOfConfig_of_resolveConfig hconfig
      · rw [(inspect_eq_runOver hfile hconfig stamp json demangle).2] at h
        exact absurd rfl ((runOver_configured h).2 path)

/-- A command with an input fails for its configuration exactly if there is none. -/
theorem inspect_eq_ofConfig (json : Bool) (h : failure.isOfConfig = true) :
    (inspect fs stamp input configPath o json demangle).result = .error failure ↔
      fs.isFile input = true ∧ resolveConfig fs configPath o = .error failure := by
  cases hfile : fs.isFile input with
  | false =>
      rw [inspect_of_no_input hfile]
      refine ⟨fun heq => ?_, fun ⟨hfalse, _⟩ => by cases hfalse⟩
      cases heq
      cases h
  | true =>
      rw [eq_self, true_and]
      rcases hconfig : resolveConfig fs configPath o with failure' | config
      · rw [inspect_of_no_config hfile hconfig, Except.error.injEq, Except.error.injEq]
      · refine ⟨fun heq => ?_, fun heq => by cases heq⟩
        rw [(inspect_eq_runOver hfile hconfig stamp json demangle).2] at heq
        rw [(runOver_configured heq).1] at h
        cases h

/-- A command without input or configuration leaves all files as they are. -/
theorem inspect_files (json : Bool)
    (h : fs.isFile input = false ∨ ∃ failure, resolveConfig fs configPath o = .error failure) :
    (inspect fs stamp input configPath o json demangle).files = fs := by
  cases hfile : fs.isFile input with
  | false => rw [inspect_of_no_input hfile]
  | true =>
      obtain ⟨failure, hconfig⟩ := h.resolve_left (by simp [hfile])
      rw [inspect_of_no_config hfile hconfig]

/-- A command that does not come to its functions has changed nothing but the file of its notes, and
that one only if it is the records that cannot be opened. It fails for its input exactly if that is
no file, and else for its configuration exactly if there is none. The output that it fails to open
is the first that cannot be opened, and a command that is enabled does fail for it unless the header
of its notes is too long. A command that is disabled changes nothing however it ends. -/
theorem inspect_unstarted (fs : FileSystem) (stamp input : String) (configPath : Option String)
    (o : Config.Overrides) (json : Bool) (demangle : Demangler) :
    let command := inspect fs stamp input configPath o json demangle
    (∀ path, command.result = .error (.noInput path) ↔ path = input ∧ fs.isFile input = false) ∧
    (fs.isFile input = false → command.files = fs) ∧
    (∀ failure, failure.isOfConfig = true → (command.result = .error failure ↔
      fs.isFile input = true ∧ resolveConfig fs configPath o = .error failure)) ∧
    (∀ failure, resolveConfig fs configPath o = .error failure →
      failure.isOfConfig = true ∧ command.files = fs) ∧
    ∀ config, resolveConfig fs configPath o = .ok config →
      (config.enabled = false → command.files = fs) ∧
      (∀ output path io, command.result = .error (.notStarted output (.unopened path io)) →
        output = config.output ∧ Engine.unopened? fs config = some path ∧
        (path ∈ config.diagnostics → command.files = fs) ∧
        (path ∉ config.diagnostics → Engine.HeaderOnly fs stamp config command.files)) ∧
      (config.enabled = true → fs.isFile input = true →
        (NoteStream.header stamp).flatten.length < 8192 →
        ∀ path, Engine.unopened? fs config = some path →
          ∃ io, command.result = .error (.notStarted config.output (.unopened path io))) := by
  intro command
  refine ⟨inspect_eq_noInput json, fun hfile => inspect_files json (.inl hfile),
    fun failure => inspect_eq_ofConfig json, fun failure hconfig =>
      ⟨isOfConfig_of_resolveConfig hconfig, inspect_files json (.inr ⟨failure, hconfig⟩)⟩,
    fun config hconfig => ?_⟩
  cases hfile : fs.isFile input with
  | false =>
      have hcommand : command = ⟨fs, "", .error (.noInput input)⟩ := inspect_of_no_input hfile json
      rw [hcommand]
      exact ⟨fun _ => rfl, fun _ _ _ h => (by cases h), fun _ h => (by cases h)⟩
  | true =>
      obtain ⟨hfiles, hresult⟩ := inspect_eq_runOver hfile hconfig stamp json demangle
      rw [hfiles, hresult]
      exact ⟨runOver_of_disabled, fun output path io => runOver_unopened,
        fun henabled _ hfits path => exists_runOver_unopened henabled hfits⟩

/-- There is no directory for the records, so only the header of the notes is written. -/
theorem inspect_unstarted_headerOnly :
    let fs : FileSystem := ⟨"/", [(["i"], .file [])]⟩
    let command := inspect fs "" "i" none { output := some "a/r", diagnostics := some "d" } false
      (fun _ => none)
    (∃ io, command.result = .error (.notStarted "a/r" (.unopened "a/r" io))) ∧
      command.files.node? ["i"] = some (.file []) ∧
      command.files.node? ["d"] = some (.file (NoteStream.header "").flatten) := by
  intro fs command
  have hdiag : Writable fs "d" ["d"] := ⟨by cbv, by decide, .inl rfl⟩
  obtain ⟨-, -, -, -, hconfigured⟩ := inspect_unstarted fs "" "i" none
    { output := some "a/r", diagnostics := some "d" } false (fun _ => none)
  obtain ⟨-, hleft, hfails⟩ := hconfigured { output := "a/r", diagnostics := some "d" } rfl
  obtain ⟨io, hresult⟩ := hfails rfl (by cbv) (by cbv) "a/r" (by cbv)
  obtain ⟨-, -, -, honly⟩ := hleft _ _ _ hresult
  have hheader := honly (by decide)
  exact ⟨⟨io, hresult⟩, (hheader.spares ["i"] (by decide)).node?, hheader.header "d" rfl _ hdiag⟩

end MachineAtlas.Command
