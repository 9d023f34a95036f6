-- SUMMARY: A run asks its demangler for mangled names alone, and shows the answers in one field.
import MachineAtlas.Proofs.Engine.Counters
import MachineAtlas.Proofs.Symbol
/-!
# The demangler of a run

A run asks its demangler for mangled names alone and shows the answers in one field of its records.
So what a demangler makes of other names reaches neither stream, and to exchange it changes nothing
but that field.
-/
namespace MachineAtlas

open FileSystem (Writable)

variable {demangle other : Demangler}

/-! ## Records -/

/-- The record without the readable name of its function. -/
def Record.unread (r : Record) : Record :=
  { r with function := { r.function with demangledName := none } }

namespace Assembler

theorem record_congr (h : ∀ name, Symbol.MangledForm name → demangle name = other name)
    (printer : Option Printer) : (mk demangle printer).record = (mk other printer).record := by
  funext f
  rw [record_eq, record_eq, Symbol.classify_congr h]

theorem unread_record (demangle other : Demangler) (printer : Option Printer)
    (f : MachineFunction) :
    ((mk demangle printer).record f).unread = ((mk other printer).record f).unread := by
  simp only [record_eq, Record.unread, Symbol.classify_eq]

theorem notes_eq (demangle other : Demangler) (printer : Option Printer) :
    (mk demangle printer).notes = (mk other printer).notes := rfl

/-- To make a record asks for the name of its function, once if it is mangled and never if not. -/
theorem asks_recordWith (demangle : Demangler) (printer : Option Printer) (f : MachineFunction) :
    Symbol.Asks (recordWith (Symbol.recording demangle) printer f)
      ((mk demangle printer).record f) ([f.name].filter fun name => Symbol.MangledForm name) := by
  rw [record_eq, ← List.append_nil (List.filter _ _)]
  exact (Symbol.asks_classifyWith demangle f.name).bind (Symbol.Asks.pure _)

@[simp] theorem questions_eq (f : MachineFunction) :
    questions f = [f.name].filter fun name => Symbol.MangledForm name := by
  rw [questions, asks_recordWith]
  rfl

/-- So do records in a row, which ask for the mangled names in order. -/
theorem run_mapM_recordWith (demangle : Demangler) (printer : Option Printer)
    (functions : List MachineFunction) :
    (functions.mapM (recordWith (Symbol.recording demangle) printer)).run [] =
      (functions.map (mk demangle printer).record,
        (functions.map MachineFunction.name).filter fun name => Symbol.MangledForm name) := by
  have hasks := Symbol.Asks.mapM (asks_recordWith demangle printer) functions []
  rwa [← List.filter_flatMap, ← List.map_eq_flatMap, List.nil_append] at hasks

end Assembler

namespace Engine

variable {fs : FileSystem} {e : Engine}

/-! ## Exchanging the demangler -/

/-- The run goes on with another demangler. -/
def withDemangler (e : Engine) (demangle : Demangler) : Engine := { e with demangle }

@[simp] theorem demangle_inspect (fs : FileSystem) (e : Engine) (f : MachineFunction) :
    (e.inspect fs f).2.1.demangle = e.demangle :=
  congrArg Assembler.demangle (inspect_accounts fs e f).assembler

section

variable (h : ∀ name, Symbol.MangledForm name → e.demangle name = other name)

include h

theorem record_withDemangler : (e.withDemangler other).assembler.record = e.assembler.record :=
  (Assembler.record_congr h _).symm

/-- A call does the same with a demangler that reads mangled names alike. -/
theorem inspect_withDemangler (fs : FileSystem) (f : MachineFunction) :
    (e.withDemangler other).inspect fs f =
        ((e.inspect fs f).1, (e.inspect fs f).2.1.withDemangler other, (e.inspect fs f).2.2) ∧
      (e.withDemangler other).outcome fs f = e.outcome fs f := by
  have hrecord := record_withDemangler h
  have hnotes : (e.withDemangler other).assembler.notes = e.assembler.notes := rfl
  have hstreams : (e.withDemangler other).streams? = e.streams? := rfl
  unfold inspect outcome
  rw [hrecord, hnotes, hstreams]
  rcases e.streams? with _ | streams
  · exact ⟨rfl, rfl⟩
  simp only
  rcases streams.records.append fs (.ok (Record.codec.write (e.assembler.record f)))
    with ⟨fs₁, records, (fault | u)⟩
  · exact ⟨rfl, trivial⟩
  simp only
  rcases streams.notes.writeNotes fs₁ f.name ((e.assembler.notes f).map Note.message)
    with ⟨fs₂, notes, (fault | written)⟩
  · exact ⟨rfl, trivial⟩
  · exact ⟨rfl, trivial⟩

/-- So do all calls. -/
theorem takeTurns_withDemangler (fs : FileSystem) (turns : List Turn) :
    takeTurns fs (e.withDemangler other) turns =
      ((takeTurns fs e turns).1, (takeTurns fs e turns).2.1.withDemangler other,
        (takeTurns fs e turns).2.2) := by
  induction turns generalizing fs e with
  | nil => rfl
  | cons turn rest ih =>
      obtain ⟨hinspect, houtcome⟩ := inspect_withDemangler h (turn.others fs) turn.function
      have hnext := demangle_inspect (turn.others fs) e turn.function
      simp only [takeTurns, hinspect, houtcome]
      rw [ih]
      intro name hname
      rw [hnext]
      exact h name hname

end

/-- A run is begun alike with any demangler. -/
theorem start_withDemangler (fs : FileSystem) (stamp : String) (config : Config)
    (demangle other : Demangler) (printer : Printer) :
    start fs stamp config other printer =
      ((start fs stamp config demangle printer).1,
        (start fs stamp config demangle printer).2.map (withDemangler · other)) := by
  unfold start
  cases config.enabled with
  | false => rfl
  | true =>
      simp only
      rcases openStreams fs stamp config with ⟨fs₁, (fault | streams)⟩
      · rfl
      · rfl

/-! ## Courses of runs -/

/-- What a run does that anyone can see: what its calls are told, the files after them, and the
files and the counters at its end, whether it is finished or dropped. -/
structure Course where
  calls : List Call
  files : FileSystem
  finished : FileSystem × Except StreamFault RunSummary
  dropped : FileSystem

/-- Begins a run and makes calls, whatever others do to the files before each of them. -/
def course (fs : FileSystem) (stamp : String) (config : Config) (demangle : Demangler)
    (printer : Printer) (turns : List Turn) : FileSystem × Except StreamFault Course :=
  let (fs, begun) := start fs stamp config demangle printer
  (fs, begun.map fun e =>
    let (files, e, calls) := takeTurns fs e turns
    { calls, files, finished := e.finish files, dropped := e.drop files })

/-- Demanglers that read mangled names alike give the same course. -/
theorem course_congr (h : ∀ name, Symbol.MangledForm name → demangle name = other name)
    (fs : FileSystem) (stamp : String) (config : Config) (printer : Printer) (turns : List Turn) :
    course fs stamp config demangle printer turns = course fs stamp config other printer turns := by
  unfold course
  rw [start_withDemangler fs stamp config demangle other printer]
  rcases hstart : start fs stamp config demangle printer with ⟨fs₁, (fault | e)⟩
  · rfl
  obtain ⟨-, -, -, hassembler⟩ := start_summary hstart
  have hread : ∀ name, Symbol.MangledForm name → e.demangle name = other name := by
    intro name hname
    rw [← h name hname]
    exact congrFun (congrArg Assembler.demangle hassembler) name
  simp only [Except.map, takeTurns_withDemangler hread]
  rfl

/-! ## Whole runs -/

/-- Two runs with any demanglers, at any times, over the same functions into ordinary files of their
own: both count the same, leave the lines of their records, and leave the same notes behind their
headers. -/
theorem run_demanglers {l : Location} {config : Config} (demangle other : Demangler)
    (printer : Printer) (stamp stamp' : String) (functions : List MachineFunction)
    (henabled : config.enabled = true) (hout : Writable fs config.output l)
    (hdiag : ∀ path ∈ config.diagnostics, ∃ k, Writable fs path k ∧ k ≠ l) :
    let instrs := if config.prettyPrintInstrs then some printer else none
    ∃ fs₁ fs₂ summary,
      run fs stamp config demangle printer functions = (fs₁, .ok summary) ∧
      run fs stamp' config other printer functions = (fs₂, .ok summary) ∧
      fs₁.node? l = some (.file (functions.flatMap (recordLine ⟨demangle, instrs⟩))) ∧
      fs₂.node? l = some (.file (functions.flatMap (recordLine ⟨other, instrs⟩))) ∧
      ∀ k ∈ notesAt fs config, ∃ lines,
        fs₁.node? k = some (.file ((NoteStream.header stamp).flatten ++ lines)) ∧
        fs₂.node? k = some (.file ((NoteStream.header stamp').flatten ++ lines)) := by
  intro instrs
  obtain ⟨fs₁, hrun, hrecorded, hnoted, -⟩ :=
    run_of_writable stamp demangle printer functions henabled hout hdiag
  obtain ⟨fs₂, hrun', hrecorded', hnoted', -⟩ :=
    run_of_writable stamp' other printer functions henabled hout hdiag
  refine ⟨fs₁, fs₂, _, hrun, hrun', hrecorded, hrecorded', ?_⟩
  intro k hk
  exact ⟨_, hnoted k hk, hnoted' k hk⟩

/-- Names are classified as mangled if one to four underscores, a `Z` and any rest make them up, and
never with five underscores in front. A demangler is asked for these names, for each of them once
and in order, and for no other, and its answers are what they read as; so it is when records are
made. So demanglers that read mangled names alike give the same course of every run, whatever becomes
of its streams. Any two demanglers give records that differ in the readable name at most and the same
notes, and runs into ordinary files that differ, whenever they are begun, in these records and the
header alone. -/
theorem demangler_use :
    (∀ (demangle : Demangler) (name : String), Symbol.classify demangle name =
      ⟨name, decide (Symbol.MangledForm name),
        if Symbol.MangledForm name then demangle name else none⟩) ∧
    (∀ (demangle : Demangler) (names : List String), Symbol.classifyAll demangle names =
      (names.map fun name => ⟨name, decide (Symbol.MangledForm name),
          if Symbol.MangledForm name then demangle name else none⟩,
        names.filter fun name => Symbol.MangledForm name)) ∧
    (∀ name : String, List.replicate 5 '_' <+: name.toList → Symbol.isMangled name = false) ∧
    (∀ functions : List MachineFunction, functions.flatMap Assembler.questions =
      (functions.map MachineFunction.name).filter fun name => Symbol.MangledForm name) ∧
    (∀ (demangle : Demangler) (printer : Option Printer) (functions : List MachineFunction),
      (functions.mapM (Assembler.recordWith (Symbol.recording demangle) printer)).run [] =
        (functions.map (Assembler.mk demangle printer).record,
          (functions.map MachineFunction.name).filter fun name => Symbol.MangledForm name)) ∧
    (∀ demangle other : Demangler,
      (∀ name, Symbol.MangledForm name → demangle name = other name) →
      (∀ printer, (Assembler.mk demangle printer).record = (Assembler.mk other printer).record) ∧
      ∀ fs stamp config printer turns,
        course fs stamp config demangle printer turns =
          course fs stamp config other printer turns) ∧
    ∀ demangle other : Demangler,
      (∀ printer f,
        ((Assembler.mk demangle printer).record f).unread =
            ((Assembler.mk other printer).record f).unread ∧
          (Assembler.mk demangle printer).notes f = (Assembler.mk other printer).notes f) ∧
      ∀ (fs : FileSystem) (config : Config) (l : Location) (printer : Printer)
        (stamp stamp' : String) (functions : List MachineFunction),
        config.enabled = true → Writable fs config.output l →
        (∀ path ∈ config.diagnostics, ∃ k, Writable fs path k ∧ k ≠ l) →
        let instrs := if config.prettyPrintInstrs then some printer else none
        ∃ fs₁ fs₂ summary,
          run fs stamp config demangle printer functions = (fs₁, .ok summary) ∧
          run fs stamp' config other printer functions = (fs₂, .ok summary) ∧
          fs₁.node? l = some (.file (functions.flatMap (recordLine ⟨demangle, instrs⟩))) ∧
          fs₂.node? l = some (.file (functions.flatMap (recordLine ⟨other, instrs⟩))) ∧
          ∀ k ∈ notesAt fs config, ∃ lines,
            fs₁.node? k = some (.file ((NoteStream.header stamp).flatten ++ lines)) ∧
            fs₂.node? k = some (.file ((NoteStream.header stamp').flatten ++ lines)) := by
  refine ⟨Symbol.classify_eq, ?classified, ?five, ?asked, Assembler.run_mapM_recordWith, ?alike,
    ?any⟩
  case classified =>
    intro demangle names
    rw [Symbol.classifyAll_eq, funext (Symbol.classify_eq demangle)]
  case five =>
    intro name hfive
    rw [Symbol.isMangled_eq_decide, decide_eq_false_iff_not]
    exact Symbol.not_mangledForm_of_five hfive
  case asked =>
    intro functions
    rw [funext Assembler.questions_eq, ← List.filter_flatMap, ← List.map_eq_flatMap]
  case alike =>
    intro demangle other h
    exact ⟨Assembler.record_congr h, course_congr h⟩
  case any =>
    intro demangle other
    constructor
    · intro printer f
      exact ⟨Assembler.unread_record demangle other printer f,
        congrFun (Assembler.notes_eq demangle other printer) f⟩
    · intro fs config l printer stamp stamp' functions henabled hout hdiag
      exact run_demanglers demangle other printer stamp stamp' functions henabled hout hdiag

/-- Reads one mangled name. -/
def terse : Demangler := fun name => if name = "_Z3foov" then some "foo()" else none

/-- Reads all names that are not mangled too. -/
def lavish : Demangler := fun name =>
  if Symbol.MangledForm name then terse name else some name

/-- Two demanglers that differ on a name give the same course of a run over that name and a mangled
one, as only the mangled one is asked for. -/
theorem demangler_use_lavish :
    (Symbol.classifyAll terse ["main", "_Z3foov", "_____Z3foov", "_Z3foov"]).2 =
      ["_Z3foov", "_Z3foov"] ∧
    terse "main" ≠ lavish "main" ∧
    course ⟨"/", []⟩ "" twoFiles terse Instr.listing [⟨id, { name := "main" }⟩,
        ⟨id, { name := "_Z3foov" }⟩] =
      course ⟨"/", []⟩ "" twoFiles lavish Instr.listing [⟨id, { name := "main" }⟩,
        ⟨id, { name := "_Z3foov" }⟩] := by
  obtain ⟨-, hclassified, -, -, -, halike, -⟩ := demangler_use
  have hsame : ∀ name, Symbol.MangledForm name → terse name = lavish name := by
    intro name hname
    rw [lavish, if_pos hname]
  refine ⟨?_, by decide, (halike terse lavish hsame).2 _ _ _ _ _⟩
  rw [hclassified]
  decide

end Engine

end MachineAtlas
