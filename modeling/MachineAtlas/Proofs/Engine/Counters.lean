-- SUMMARY: The counters of a run say what became of its calls, whatever others do to the files.
import MachineAtlas.Proofs.Engine.Notes
import MachineAtlas.Proofs.Files.Delivery
/-!
# Counters of a run

The counters of a run say what became of its calls, however many of them failed and at whichever
write. A call counts as inspected from its start, as recorded once its record is written, and its
notes count once they are all written. This does not rest on what the files are: others may change
them in any way before each call.
-/
namespace MachineAtlas.Engine

open FileSystem (SameBut)

variable {fs fs' : FileSystem} {e e' : Engine}

/-! ## What becomes of a call -/

/-- How far a call comes: it is skipped where nothing is recorded, and otherwise it fails at its
record, fails at its notes, or succeeds. -/
inductive Outcome where
  | skipped
  | unrecorded (fault : StreamFault)
  | unnoted (fault : StreamFault)
  | noted
  deriving DecidableEq, Repr

namespace Outcome

/-- The record of the call was written. -/
@[simp]
def isRecorded : Outcome → Bool
  | .unnoted _ | .noted => true
  | .skipped | .unrecorded _ => false

/-- The record of the call was written, but its notes could not be. -/
@[simp]
def isUnnoted : Outcome → Bool
  | .unnoted _ => true
  | _ => false

/-- What the caller is told. -/
@[simp]
def result : Outcome → Except StreamFault Bool
  | .skipped => .ok false
  | .unrecorded fault | .unnoted fault => .error fault
  | .noted => .ok true

end Outcome

/-- What becomes of a call, by the answers of the streams. -/
def outcome (fs : FileSystem) (e : Engine) (f : MachineFunction) : Outcome :=
  match e.streams? with
  | none => .skipped
  | some streams =>
    match streams.records.append fs (.ok (Record.codec.write (e.assembler.record f))) with
    | (_, _, .error fault) => .unrecorded fault
    | (fs, _, .ok ()) =>
      match streams.notes.writeNotes fs f.name ((e.assembler.notes f).map Note.message) with
      | (_, _, .error fault) => .unnoted fault
      | (_, _, .ok _) => .noted

/-! ## Calls in a row -/

/-- A call that was made: for which function, what became of it, and what the caller was told. -/
structure Call where
  function : MachineFunction
  outcome : Outcome
  result : Except StreamFault Bool

/-- The number of notes of the calls that succeeded. -/
def succeededNotes (a : Assembler) (calls : List Call) : Nat :=
  ((calls.filter (·.result = .ok true)).map fun call => (a.notes call.function).length).sum

theorem succeededNotes_eq_zero {a : Assembler} {calls : List Call}
    (h : ∀ call ∈ calls, call.result = .ok false) : succeededNotes a calls = 0 := by
  have hnone : calls.filter (·.result = .ok true) = [] := by
    rw [List.filter_eq_nil_iff]
    intro call hcall
    rw [h call hcall]
    decide
  rw [succeededNotes, hnone]
  rfl

/-- The run writes notes and does not drop them. -/
def keepsNotes (e : Engine) : Bool := e.streams?.any fun streams => streams.notes.isEnabled

/-- The counters of a run account for the calls between two moments of it. -/
structure Accounts (e : Engine) (calls : List Call) (e' : Engine) : Prop where
  assembler : e'.assembler = e.assembler
  isEnabled : e'.isEnabled = e.isEnabled
  keepsNotes : e'.keepsNotes = e.keepsNotes
  result : ∀ call ∈ calls, call.result = call.outcome.result
  skipped : ∀ call ∈ calls, call.outcome = .skipped ↔ e.isEnabled = false
  functionsInspected : e'.summary.functionsInspected =
    e.summary.functionsInspected + if e.isEnabled then calls.length else 0
  recordsWritten : e'.summary.recordsWritten =
    e.summary.recordsWritten + calls.countP (·.outcome.isRecorded)
  diagnosticsWritten : e'.summary.diagnosticsWritten = e.summary.diagnosticsWritten +
    if e.keepsNotes then succeededNotes e.assembler calls else 0

namespace Accounts

theorem refl (e : Engine) : e.Accounts [] e where
  assembler := rfl
  isEnabled := rfl
  keepsNotes := rfl
  result := by simp
  skipped := by simp
  functionsInspected := by simp
  recordsWritten := rfl
  diagnosticsWritten := by simp [succeededNotes]

theorem trans {e'' : Engine} {calls calls' : List Call} (h : e.Accounts calls e')
    (h' : e'.Accounts calls' e'') : e.Accounts (calls ++ calls') e'' where
  assembler := h'.assembler.trans h.assembler
  isEnabled := h'.isEnabled.trans h.isEnabled
  keepsNotes := h'.keepsNotes.trans h.keepsNotes
  result := List.forall_mem_append.2 ⟨h.result, h'.result⟩
  skipped := List.forall_mem_append.2 ⟨h.skipped, h.isEnabled ▸ h'.skipped⟩
  functionsInspected := by
    rw [h'.functionsInspected, h.functionsInspected, h.isEnabled, List.length_append]
    split <;> omega
  recordsWritten := by
    rw [h'.recordsWritten, h.recordsWritten, List.countP_append, Nat.add_assoc]
  diagnosticsWritten := by
    rw [h'.diagnosticsWritten, h.diagnosticsWritten, h.keepsNotes, h.assembler, succeededNotes,
      succeededNotes, succeededNotes, List.filter_append, List.map_append, List.sum_append]
    split <;> omega

theorem result_of_disabled {calls : List Call} (h : e.Accounts calls e')
    (hdisabled : e.isEnabled = false) : ∀ call ∈ calls, call.result = .ok false := by
  intro call hcall
  rw [h.result call hcall, (h.skipped call hcall).2 hdisabled]
  rfl

theorem recordsWritten_le {calls : List Call} (h : e.Accounts calls e')
    (hle : e.summary.recordsWritten ≤ e.summary.functionsInspected) :
    e'.summary.recordsWritten ≤ e'.summary.functionsInspected := by
  rw [h.recordsWritten, h.functionsInspected]
  cases henabled : e.isEnabled with
  | true => simpa using Nat.add_le_add hle List.countP_le_length
  | false =>
      have hnone : calls.countP (·.outcome.isRecorded) = 0 := by
        rw [List.countP_eq_zero]
        intro call hcall
        rw [(h.skipped call hcall).2 henabled]
        simp
      rw [hnone]
      simpa using hle

end Accounts

/-- A stream keeps on writing notes or dropping them, and counts the notes that it has written. -/
theorem writeNotes_counts {s s' : NoteStream} {function : String} {notes : List String}
    {r : Except StreamFault Nat} (h : s.writeNotes fs function notes = (fs', s', r)) :
    s'.isEnabled = s.isEnabled ∧
      ∀ written, r = .ok written → written = if s.isEnabled then notes.length else 0 := by
  rcases s with ⟨_ | file⟩
  · cases h
    refine ⟨rfl, ?_⟩
    rintro _ ⟨⟩
    rfl
  · simp only [NoteStream.writeNotes] at h
    rcases hwrite : file.writeAll fs (notes.flatMap (NoteStream.noteLine function))
      with ⟨fs₁, file₁, (fault | u)⟩
    all_goals
      rw [hwrite] at h
      cases h
      refine ⟨rfl, ?_⟩
      rintro _ ⟨⟩
    rfl

/-- Records are written by the calls that succeed and by those that fail at their notes. -/
theorem countP_isRecorded {calls : List Call}
    (h : ∀ call ∈ calls, call.result = call.outcome.result) :
    calls.countP (·.outcome.isRecorded) =
      calls.countP (·.result = .ok true) + calls.countP (·.outcome.isUnnoted) := by
  induction calls with
  | nil => rfl
  | cons call calls ih =>
      obtain ⟨hresult, hrest⟩ := List.forall_mem_cons.1 h
      rw [List.countP_cons, List.countP_cons, List.countP_cons, ih hrest, hresult]
      cases call.outcome <;> simp <;> omega

/-- One call is accounted for, whatever becomes of it. -/
theorem inspect_accounts (fs : FileSystem) (e : Engine) (f : MachineFunction) :
    e.Accounts [⟨f, e.outcome fs f, (e.inspect fs f).2.2⟩] (e.inspect fs f).2.1 := by
  rcases hstreams : e.streams? with _ | streams
  · simp only [inspect, outcome, hstreams]
    constructor <;> simp [succeededNotes, isEnabled, hstreams]
  rcases happend : streams.records.append fs (.ok (Record.codec.write (e.assembler.record f)))
    with ⟨fs₁, records, (fault | u)⟩
  · simp only [inspect, outcome, hstreams, happend]
    constructor <;> simp [succeededNotes, isEnabled, keepsNotes, assembler, hstreams]
  rcases hnotes : streams.notes.writeNotes fs₁ f.name ((e.assembler.notes f).map Note.message)
    with ⟨fs₂, notes, (fault | written)⟩
  all_goals
    obtain ⟨hkeeps, hwritten⟩ := writeNotes_counts hnotes
    simp only [inspect, outcome, hstreams, happend, hnotes]
  · constructor <;> simp [succeededNotes, isEnabled, keepsNotes, assembler, hstreams, hkeeps]
  · rw [hwritten written rfl]
    constructor <;> simp [succeededNotes, isEnabled, keepsNotes, assembler, hstreams, hkeeps]

/-- A run that inspects all its functions has counted them. -/
theorem inspectEach_counts {functions : List MachineFunction} (h : e.isEnabled = true)
    (heach : inspectEach fs e functions = (fs', e', .ok ())) :
    e'.summary.functionsInspected = e.summary.functionsInspected + functions.length := by
  induction functions generalizing fs e with
  | nil =>
      cases heach
      rfl
  | cons f rest ih =>
      have haccounts := inspect_accounts fs e f
      rcases hcall : e.inspect fs f with ⟨fs₁, e₁, (fault | b)⟩
      · simp [inspectEach, hcall] at heach
      · rw [hcall] at haccounts
        simp only [inspectEach, hcall] at heach
        have hcount := haccounts.functionsInspected
        rw [if_pos h, List.length_singleton] at hcount
        rw [ih (haccounts.isEnabled.trans h) heach, hcount, List.length_cons]
        omega

/-! ## Runs among others -/

/-- A call, and what others do to the files before it. -/
structure Turn where
  others : FileSystem → FileSystem
  function : MachineFunction

/-- Makes calls in order, whatever the callers are told. -/
def takeTurns (fs : FileSystem) (e : Engine) : List Turn → FileSystem × Engine × List Call
  | [] => (fs, e, [])
  | turn :: rest =>
    let fs := turn.others fs
    let called := e.inspect fs turn.function
    let (fs', e', calls) := takeTurns called.1 called.2.1 rest
    (fs', e', ⟨turn.function, e.outcome fs turn.function, called.2.2⟩ :: calls)

theorem takeTurns_accounts (fs : FileSystem) (e : Engine) (turns : List Turn) :
    let run := takeTurns fs e turns
    e.Accounts run.2.2 run.2.1 ∧ run.2.2.map Call.function = turns.map Turn.function := by
  induction turns generalizing fs e with
  | nil => exact ⟨.refl e, rfl⟩
  | cons turn rest ih =>
      have hcall := inspect_accounts (turn.others fs) e turn.function
      obtain ⟨hrest, hfunctions⟩ := ih (e.inspect (turn.others fs) turn.function).1
        (e.inspect (turn.others fs) turn.function).2.1
      exact ⟨hcall.trans hrest, by rw [List.map_cons, ← hfunctions]; rfl⟩

/-- Where nothing is recorded, calls leave the files as others make them. -/
theorem takeTurns_files (h : e.streams? = none) (fs : FileSystem) (turns : List Turn) :
    (takeTurns fs e turns).1 = turns.foldl (fun files turn => turn.others files) fs ∧
      (takeTurns fs e turns).2.1 = e := by
  induction turns generalizing fs with
  | nil => exact ⟨rfl, rfl⟩
  | cons turn rest ih =>
      have hcall : e.inspect (turn.others fs) turn.function = (turn.others fs, e, .ok false) := by
        simp only [inspect, h]
      simp only [takeTurns, hcall, List.foldl_cons]
      exact ih (turn.others fs)

/-! ## Notes on a full device -/

/-- A function with a name of `n` letters and nothing else. -/
def namedAtLength (n : Nat) : MachineFunction := { name := String.ofList (List.replicate n 'n') }

@[simp] theorem notes_namedAtLength {a : Assembler} (ha : a.printer = none) (n : Nat) :
    a.notes (namedAtLength n) = [.missingOperand, .missingModule] := by
  simp [Assembler.notes, MachineFunction.graphNotes, namedAtLength, ha]

/-- On a full device the notes are begun with a header that waits in the buffer. -/
theorem start_full : ∃ fs e records begun,
    start ⟨"/", [(["d"], .full)]⟩ "" twoFiles (fun _ => none) Instr.listing = (fs, .ok e) ∧
    begun.length = 36 ∧ e.streams? = some ⟨records, ⟨some ⟨⟨["d"], 0⟩, begun⟩⟩⟩ ∧
    e.assembler.printer = none ∧ records.file.Holds fs ["r"] [] ∧
    SameBut ["r"] ⟨"/", [(["d"], .full)]⟩ fs := by
  obtain ⟨fs, records, hstart, hholds, hsame⟩ :=
    start_of_writable rfl full_output full_apart openNotes_full (fun _ => none) Instr.listing
  exact ⟨fs, _, records, _, hstart, length_textBytes _, rfl, rfl, hholds, hsame⟩

theorem length_noteBytes {a : Assembler} (ha : a.printer = none) (n : Nat) :
    (NoteStream.noteBytes (namedAtLength n).name
      ((a.notes (namedAtLength n)).map Note.message)).length = 2 * n + 106 := by
  have hname : (namedAtLength n).name.utf8ByteSize = n := by
    have hone : 'n'.utf8Size = 1 := rfl
    simp [← length_textBytes, namedAtLength, List.length_flatMap, hone]
  have hoperand : Note.missingOperand.message.utf8ByteSize = 57 := rfl
  have hmodule : Note.missingModule.message.utf8ByteSize = 41 := rfl
  have hframe : "[".utf8ByteSize = 1 ∧ "] ".utf8ByteSize = 2 ∧ "\n".utf8ByteSize = 1 := by decide
  simp [ha, NoteStream.noteBytes, NoteStream.noteLine, hname, hoperand, hmodule, hframe]
  omega

/-- Notes that leave room in the buffer wait there. -/
theorem writeNotes_of_lt (fs : FileSystem) (handle : FileSystem.Handle) {pending : Bytes}
    {function : String} {notes : List String}
    (h : pending.length + (NoteStream.noteBytes function notes).length < Buffered.capacity) :
    NoteStream.writeNotes fs ⟨some ⟨handle, pending⟩⟩ function notes =
      (fs, ⟨some ⟨handle, pending ++ NoteStream.noteBytes function notes⟩⟩, .ok notes.length) := by
  simp only [NoteStream.writeNotes, OpenFile.writeAll, OpenFile.via]
  rw [Buffered.writeAll_eq_of_lt ⟨(fs, handle), pending⟩ h]
  rfl

/-- Notes that no buffer holds fail on a full device. -/
theorem writeNotes_full {fs : FileSystem} {handle : FileSystem.Handle} {pending : Bytes}
    {function : String} {notes : List String} (hfull : fs.node? handle.location = some .full)
    (hle : pending.length ≤ Buffered.capacity)
    (hlong : Buffered.capacity < (NoteStream.noteBytes function notes).length) :
    ∃ fs' s' fault,
      NoteStream.writeNotes fs ⟨some ⟨handle, pending⟩⟩ function notes =
        (fs', s', .error fault) := by
  obtain ⟨hdelivers, hrefuses⟩ := FileSystem.put_full
  obtain ⟨io, hwrite⟩ := hrefuses.writeAll hdelivers (b := ⟨(fs, handle), pending⟩) hfull hle hlong
  simp only [NoteStream.writeNotes, OpenFile.writeAll, OpenFile.via, hwrite]
  exact ⟨_, _, _, rfl⟩

section

variable {fs₁ fs₂ : FileSystem} {streams : Streams} {records : RecordStream} {notes : NoteStream}
  {f : MachineFunction}
  (hstreams : e.streams? = some streams)
  (happend : streams.records.append fs (.ok (Record.codec.write (e.assembler.record f))) =
    (fs₁, records, .ok ()))

include hstreams happend

theorem inspect_of_noted {written : Nat}
    (hnotes : streams.notes.writeNotes fs₁ f.name ((e.assembler.notes f).map Note.message) =
      (fs₂, notes, .ok written)) :
    ∃ e', e.inspect fs f = (fs₂, e', .ok true) ∧ e.outcome fs f = .noted ∧
      e'.streams? = some ⟨records, notes⟩ ∧ e'.assembler = e.assembler := by
  rw [outcome, inspect, hstreams]
  simp only [happend, hnotes]
  exact ⟨_, rfl, trivial, rfl, rfl⟩

theorem inspect_of_unnoted {fault : StreamFault}
    (hnotes : streams.notes.writeNotes fs₁ f.name ((e.assembler.notes f).map Note.message) =
      (fs₂, notes, .error fault)) :
    ∃ e', e.inspect fs f = (fs₂, e', .error fault) ∧ e.outcome fs f = .unnoted fault := by
  rw [outcome, inspect, hstreams]
  simp only [happend, hnotes]
  exact ⟨_, rfl, trivial⟩

end

/-- The notes on a function with a short name wait, and those on one with a long name after it are
too long for that. -/
theorem takeTurns_full : ∃ fs₁ e fs₂ e' fault,
    start ⟨"/", [(["d"], .full)]⟩ "" twoFiles (fun _ => none) Instr.listing = (fs₁, .ok e) ∧
    takeTurns fs₁ e [⟨id, namedAtLength 1⟩, ⟨id, namedAtLength 8192⟩] =
      (fs₂, e', [⟨namedAtLength 1, .noted, .ok true⟩,
        ⟨namedAtLength 8192, .unnoted fault, .error fault⟩]) := by
  obtain ⟨fs₁, e, records, begun, hstart, hbegun, hstreams, hprinter, hholds, hsame⟩ := start_full
  obtain ⟨fs₂, records₂, happend, hholds₂, hsame₂⟩ :=
    append_recordLine hholds e.assembler (namedAtLength 1)
  have hroom : begun.length + (NoteStream.noteBytes (namedAtLength 1).name
      ((e.assembler.notes (namedAtLength 1)).map Note.message)).length < Buffered.capacity := by
    rw [hbegun, length_noteBytes hprinter]
    decide
  obtain ⟨e₁, hinspect, houtcome, hstreams₁, hassembler⟩ :=
    inspect_of_noted hstreams happend (writeNotes_of_lt fs₂ ⟨["d"], 0⟩ hroom)
  rw [← hassembler] at hprinter
  obtain ⟨fs₃, records₃, happend₃, -, hsame₃⟩ :=
    append_recordLine hholds₂ e₁.assembler (namedAtLength 8192)
  have hfull : fs₃.node? (FileSystem.Handle.mk ["d"] 0).location = some .full := by
    rw [hsame₃.node? ["d"] (by decide), hsame₂.node? ["d"] (by decide),
      hsame.node? ["d"] (by decide)]
    rfl
  have hlong : Buffered.capacity < (NoteStream.noteBytes (namedAtLength 8192).name
      ((e₁.assembler.notes (namedAtLength 8192)).map Note.message)).length := by
    rw [length_noteBytes hprinter]
    decide
  have hwaiting := hroom.le
  rw [← List.length_append] at hwaiting
  obtain ⟨fs₄, notes, fault, hfailed⟩ := writeNotes_full hfull hwaiting hlong
  obtain ⟨e₂, hinspect₂, houtcome₂⟩ := inspect_of_unnoted hstreams₁ happend₃ hfailed
  refine ⟨fs₁, e, fs₄, e₂, fault, hstart, ?_⟩
  simp only [takeTurns, id, hinspect, houtcome, hinspect₂, houtcome₂]

/-! ## All runs -/

/-- A run that is finished gives its counters. -/
theorem finish_eq_ok {summary : RunSummary} (h : e.finish fs = (fs', .ok summary)) :
    summary = e.summary := by
  simp only [finish] at h
  split at h
  · cases h
    rfl
  · split at h
    · cases h
    · split at h
      · cases h
      · cases h
        rfl

theorem isEnabled_of_openNotes {stamp : String} {config : Config} {notes : NoteStream}
    (h : openNotes fs stamp config = (fs', .ok notes)) :
    notes.isEnabled = config.diagnostics.isSome := by
  unfold openNotes at h
  cases hpath : config.diagnostics with
  | none =>
      rw [hpath] at h
      cases h
      rfl
  | some path =>
      simp only [hpath, NoteStream.create] at h
      rcases hcreate : OpenFile.create fs path with ⟨fs₁, (fault | file)⟩
      · simp [hcreate] at h
      rcases hwrite : file.writeAll fs₁ (NoteStream.header stamp) with ⟨fs₂, file₂, (fault | u)⟩
      · simp [hcreate, hwrite] at h
      · simp only [hcreate, hwrite, Prod.mk.injEq, Except.ok.injEq] at h
        obtain ⟨-, rfl⟩ := h
        rfl

variable {stamp : String} {config : Config} {demangle : Demangler} {printer : Printer}

theorem start_of_disabled (h : config.enabled = false) :
    start fs stamp config demangle printer =
      (fs, .ok { config, streams? := none, demangle, printer, summary := {} }) := by
  simp [start, h]

/-- A run that has been started has counted nothing, and has streams as it was told. -/
theorem start_summary (hstart : start fs stamp config demangle printer = (fs', .ok e)) :
    e.summary = {} ∧ e.isEnabled = config.enabled ∧
      e.keepsNotes = (config.enabled && config.diagnostics.isSome) ∧
      e.assembler = ⟨demangle, if config.prettyPrintInstrs then some printer else none⟩ := by
  cases henabled : config.enabled with
  | false =>
      rw [start_of_disabled henabled] at hstart
      cases hstart
      exact ⟨rfl, rfl, rfl, rfl⟩
  | true =>
      obtain ⟨fs₁, notes, records, hnotes, -, rfl⟩ := start_eq_ok henabled hstart
      refine ⟨rfl, rfl, ?_, rfl⟩
      rw [Bool.true_and, ← isEnabled_of_openNotes hnotes]
      rfl

/-- At every moment of a run the counters say what became of its calls, whatever the streams
answered and whatever others did to the files: all calls were inspected, those that did not fail at
their records were recorded, and the notes of those that succeeded are counted if they are not
dropped. A run that is finished gives these counters. A run that is not enabled counts nothing, says
so to every caller, and leaves all files as they are. -/
theorem counters_account {fs fs₁ : FileSystem} {stamp : String} {config : Config}
    {demangle : Demangler} {printer : Printer} {e : Engine}
    (hstart : start fs stamp config demangle printer = (fs₁, .ok e)) (turns : List Turn) :
    let a : Assembler := ⟨demangle, if config.prettyPrintInstrs then some printer else none⟩
    let (files, e', calls) := takeTurns fs₁ e turns
    calls.map Call.function = turns.map Turn.function ∧
    (∀ call ∈ calls, call.result = call.outcome.result) ∧
    e'.isEnabled = config.enabled ∧
    e'.summary.functionsInspected = (if config.enabled then turns.length else 0) ∧
    e'.summary.recordsWritten = calls.countP (·.outcome.isRecorded) ∧
    e'.summary.recordsWritten =
      calls.countP (·.result = .ok true) + calls.countP (·.outcome.isUnnoted) ∧
    e'.summary.diagnosticsWritten =
      (if config.diagnostics.isSome then succeededNotes a calls else 0) ∧
    e'.summary.recordsWritten ≤ e'.summary.functionsInspected ∧
    (∀ fs' files' summary, e'.finish fs' = (files', .ok summary) → summary = e'.summary) ∧
    (config.enabled = false → (∀ call ∈ calls, call.result = .ok false) ∧ e'.summary = {} ∧
      fs₁ = fs ∧ files = turns.foldl (fun files turn => turn.others files) fs ∧
      ∀ fs', (e'.finish fs').1 = fs' ∧ e'.drop fs' = fs') := by
  intro a
  obtain ⟨hempty, henabled, hkeeps, hassembler⟩ := start_summary hstart
  obtain ⟨haccounts, hfunctions⟩ := takeTurns_accounts fs₁ e turns
  rcases hrun : takeTurns fs₁ e turns with ⟨files, e', calls⟩
  rw [hrun] at haccounts hfunctions
  have hlength : calls.length = turns.length := by
    rw [← List.length_map Call.function, hfunctions, List.length_map]
  have hinspected := haccounts.functionsInspected
  have hrecorded := haccounts.recordsWritten
  have hnoted := haccounts.diagnosticsWritten
  have hle := haccounts.recordsWritten_le (by rw [hempty])
  rw [hempty, henabled, hlength, Nat.zero_add] at hinspected
  rw [hempty, Nat.zero_add] at hrecorded
  rw [hempty, hkeeps, hassembler, Nat.zero_add] at hnoted
  refine ⟨hfunctions, haccounts.result, haccounts.isEnabled.trans henabled, hinspected, hrecorded,
    hrecorded.trans (countP_isRecorded haccounts.result), ?_, hle, fun _ _ _ => finish_eq_ok, ?_⟩
  · cases hon : config.enabled with
    | true => simpa [hon] using hnoted
    | false =>
        have hnone := haccounts.result_of_disabled (henabled.trans hon)
        rw [succeededNotes_eq_zero hnone, ite_self] at hnoted ⊢
        exact hnoted
  · intro hdisabled
    rw [start_of_disabled hdisabled] at hstart
    cases hstart
    obtain ⟨hfiles, hsame⟩ := takeTurns_files
      (e := { config, streams? := none, demangle, printer, summary := {} }) rfl fs turns
    rw [hrun] at hfiles hsame
    subst hsame
    exact ⟨haccounts.result_of_disabled rfl, rfl, rfl, hfiles, fun fs' => ⟨rfl, rfl⟩⟩

/-- Two functions that lack an operand and a module are recorded while the notes go to a full
device. The notes on the first one wait, and those on the second one are too long for that. -/
theorem counters_account_full :
    ∃ fs₁ e fs₂ e' calls fault,
      start ⟨"/", [(["d"], .full)]⟩ "" twoFiles (fun _ => none) Instr.listing = (fs₁, .ok e) ∧
      takeTurns fs₁ e [⟨id, namedAtLength 1⟩, ⟨id, namedAtLength 8192⟩] = (fs₂, e', calls) ∧
      calls.map Call.result = [.ok true, .error fault] ∧
      e'.summary = { functionsInspected := 2, recordsWritten := 2, diagnosticsWritten := 2 } := by
  obtain ⟨fs₁, e, fs₂, e', fault, hstart, hrun⟩ := takeTurns_full
  have haccount := counters_account hstart [⟨id, namedAtLength 1⟩, ⟨id, namedAtLength 8192⟩]
  rw [hrun] at haccount
  obtain ⟨-, -, -, hinspected, hrecorded, -, hnotes, -⟩ := haccount
  refine ⟨fs₁, e, fs₂, e', _, fault, hstart, hrun, rfl, ?_⟩
  have htwo : e'.summary.diagnosticsWritten = 2 := by
    rw [hnotes]
    simp [succeededNotes, twoFiles]
  exact RunSummary.ext hinspected hrecorded htwo

end MachineAtlas.Engine
