-- SUMMARY: A run changes the files that its outputs go to and nothing else.
import MachineAtlas.Proofs.Engine
/-!
# What a run leaves alone

A run changes the files that its outputs go to and nothing else, whether it is started or cannot be,
whatever its calls give, and however it ends.
-/
namespace MachineAtlas.Engine

open FileSystem (SameBut SameDirectories Spares)

variable {fs : FileSystem} {e : Engine} {l : Location}

/-- The configuration has no output that leads to `l`. One that is not enabled has none at all. -/
def OutputsAvoid (fs : FileSystem) (config : Config) (l : Location) : Prop :=
  config.enabled = true → (∀ k, fs.locate config.output = .ok k → k ≠ l) ∧
    ∀ path ∈ config.diagnostics, ∀ k, fs.locate path = .ok k → k ≠ l

/-- No stream of the run goes to `l`. -/
def Avoids (e : Engine) (l : Location) : Prop :=
  ∀ streams ∈ e.streams?, streams.records.file.handle.location ≠ l ∧ streams.notes.Avoids l

/-! ## Starting -/

theorem openStreams_frame {config : Config} (hout : ∀ k, fs.locate config.output = .ok k → k ≠ l)
    (hdiag : ∀ path ∈ config.diagnostics, ∀ k, fs.locate path = .ok k → k ≠ l) (stamp : String) :
    Spares l fs (openStreams fs stamp config).1 ∧
      ∀ streams, (openStreams fs stamp config).2 = .ok streams →
        streams.records.file.handle.location ≠ l ∧ streams.notes.Avoids l := by
  obtain ⟨hspares, havoids⟩ := openNotes_frame hdiag stamp
  rcases hnotes : openNotes fs stamp config with ⟨fs₁, (fault | notes)⟩
  · rw [hnotes] at hspares
    simp only [openStreams, hnotes]
    exact ⟨hspares, fun streams h => by cases h⟩
  rw [hnotes] at hspares havoids
  have hout₁ : ∀ k, fs₁.locate config.output = .ok k → k ≠ l := fun k hk =>
    hout k (hspares.toSameDirectories.symm.locate_eq_ok hk)
  obtain ⟨hcreate, hlocation⟩ := RecordStream.create_spares hout₁
  rcases hrecords : RecordStream.create fs₁ config.output with ⟨fs₂, (fault | records)⟩
  all_goals
    rw [hrecords] at hcreate hlocation
    simp only [openStreams, hnotes, hrecords]
  -- Notes that have been begun are dropped if the records cannot be.
  · exact ⟨hspares.trans (hcreate.trans (NoteStream.drop_spares (havoids notes rfl) fs₂)),
      fun streams h => by cases h⟩
  · refine ⟨hspares.trans hcreate, ?_⟩
    rintro _ ⟨⟩
    exact ⟨hlocation records rfl, havoids notes rfl⟩

/-- Starting leaves a place alone that no output leads to, also if it fails. -/
theorem start_frame {config : Config} (h : OutputsAvoid fs config l) (stamp : String)
    (demangle : Demangler) (printer : Printer) :
    Spares l fs (start fs stamp config demangle printer).1 ∧
      ∀ e, (start fs stamp config demangle printer).2 = .ok e → e.Avoids l := by
  unfold start
  cases henabled : config.enabled with
  | false =>
      refine ⟨Spares.refl l fs, ?_⟩
      rintro _ ⟨⟩ streams ⟨⟩
  | true =>
      obtain ⟨hout, hdiag⟩ := h henabled
      obtain ⟨hspares, havoids⟩ := openStreams_frame hout hdiag stamp
      rcases hopen : openStreams fs stamp config with ⟨fs₁, (fault | streams)⟩
      all_goals
        rw [hopen] at hspares havoids
        refine ⟨hspares, ?_⟩
      · rintro e ⟨⟩
      · rintro _ ⟨⟩ _ ⟨⟩
        exact havoids streams rfl

/-! ## Running -/

/-- A call leaves a place alone that no stream goes to, also if it fails. -/
theorem Avoids.inspect (h : e.Avoids l) (fs : FileSystem) (f : MachineFunction) :
    Spares l fs (e.inspect fs f).1 ∧ (e.inspect fs f).2.1.Avoids l := by
  rcases hstreams : e.streams? with _ | streams
  · simp only [Engine.inspect, hstreams]
    exact ⟨Spares.refl l fs, h⟩
  obtain ⟨hlocation, havoids⟩ := h streams hstreams
  have hwithin := RecordStream.append_within fs streams.records
    (.ok (Record.codec.write (e.assembler.record f)))
  rcases happend : streams.records.append fs (.ok (Record.codec.write (e.assembler.record f)))
    with ⟨fs₁, records, (fault | u)⟩
  all_goals
    rw [happend] at hwithin
    obtain ⟨hsame, hbut⟩ := hwithin
    have hspares : Spares l fs fs₁ := Spares.of_sameBut hbut hlocation.symm
    rw [← hsame] at hlocation
  · simp only [Engine.inspect, hstreams, happend]
    refine ⟨hspares, ?_⟩
    rintro _ ⟨⟩
    exact ⟨hlocation, havoids⟩
  obtain ⟨havoids₂, hspares₂⟩ := NoteStream.writeNotes_spares havoids fs₁ f.name
    ((e.assembler.notes f).map Note.message)
  rcases hnotes : streams.notes.writeNotes fs₁ f.name ((e.assembler.notes f).map Note.message)
    with ⟨fs₂, notes, (fault | written)⟩
  all_goals
    rw [hnotes] at havoids₂ hspares₂
    simp only [Engine.inspect, hstreams, happend, hnotes]
    refine ⟨hspares.trans hspares₂, ?_⟩
    rintro _ ⟨⟩
    exact ⟨hlocation, havoids₂⟩

/-! ## Ending -/

theorem Avoids.drop (h : e.Avoids l) (fs : FileSystem) : Spares l fs (e.drop fs) := by
  unfold Engine.drop
  split
  · exact Spares.refl l fs
  · rename_i streams hstreams
    obtain ⟨hlocation, havoids⟩ := h streams hstreams
    have hrecords : Spares l fs (streams.records.drop fs) :=
      Spares.of_sameBut (OpenFile.drop_sameBut fs streams.records.file) hlocation.symm
    exact hrecords.trans (NoteStream.drop_spares havoids _)

theorem Avoids.finish (h : e.Avoids l) (fs : FileSystem) : Spares l fs (e.finish fs).1 := by
  rcases hstreams : e.streams? with _ | streams
  · simp only [Engine.finish, hstreams]
    exact Spares.refl l fs
  obtain ⟨hlocation, havoids⟩ := h streams hstreams
  have hnotes := NoteStream.close_spares havoids fs
  rcases hclose : streams.notes.close fs with ⟨fs₁, (fault | u)⟩
  all_goals
    rw [hclose] at hnotes
  · simp only [Engine.finish, hstreams, hclose]
    exact hnotes.trans
      (Spares.of_sameBut (OpenFile.drop_sameBut fs₁ streams.records.file) hlocation.symm)
  · have hrecords : Spares l fs₁ (streams.records.close fs₁).1 :=
      Spares.of_sameBut (OpenFile.close_sameBut fs₁ streams.records.file) hlocation.symm
    rcases hlast : streams.records.close fs₁ with ⟨fs₂, (fault | u)⟩
    all_goals
      rw [hlast] at hrecords
      simp only [Engine.finish, hstreams, hclose, hlast]
      exact hnotes.trans hrecords

end MachineAtlas.Engine
