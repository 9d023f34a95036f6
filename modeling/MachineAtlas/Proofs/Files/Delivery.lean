-- SUMMARY: Records that are reported as written arrive on any device unless closing fails.
import Mathlib
import MachineAtlas.Proofs.Files.Stream
import MachineAtlas.Proofs.Text.Bytes
/-!
# Records on devices that fail

A stream of records on a device that may refuse any write, and may do so at any time. What it has
delivered and what waits are together the lines that it has reported as written, so nothing that is
reported can be missing unless closing the stream fails.
-/
namespace MachineAtlas

open FileSystem (Handle)
open Json (Value)
open Json.Value (KeyFault)

namespace Buffered

/-! ## Appending lines -/

/-- The line of a value. -/
def valueLine (value : Value) : Bytes := textBytes (value.line ++ "\n")

theorem valueLine_ne_nil (value : Value) : valueLine value ≠ [] := by
  intro h
  have hempty := textBytes_eq_nil h
  rw [String.append_eq_empty_iff] at hempty
  exact absurd hempty.2 (by decide)

section

variable {σ ε : Type}

/-- Appends a value as one line, as a stream of records does it on the device that it has. -/
def appendLine (put : Bytes → σ → Except ε σ) (b : Buffered σ) :
    Except KeyFault Value → Buffered σ × Except (KeyFault ⊕ ε) Unit
  | .error key => (b, .error (.inl key))
  | .ok value =>
    let (b, r) := b.write put (valueLine value)
    (b, r.mapError .inr)

/-- Appends values in order, going on after those that fail. The device may behave differently in
each call: in call `n` it takes bytes by `put n`. -/
def appendEach (put : Nat → Bytes → σ → Except ε σ) (n : Nat) (b : Buffered σ) :
    List (Except KeyFault Value) → Buffered σ × List (Except (KeyFault ⊕ ε) Unit)
  | [] => (b, [])
  | value :: rest =>
    let (b, r) := b.appendLine (put n) value
    let (b, rs) := b.appendEach put (n + 1) rest
    (b, r :: rs)

/-- Writes what waits. What could not be written is tried once more, by `retry`. -/
def close (put retry : Bytes → σ → Except ε σ) (b : Buffered σ) : Buffered σ × Except ε Unit :=
  match b.flush put with
  | (b, .ok ()) => (b, .ok ())
  | (b, .error e) => ((b.flush retry).1, .error e)

end

/-! ## What is reported -/

section

variable {φ : Type}

/-- The line of a value, if its append has succeeded. -/
def reportedLine : Except KeyFault Value → Except φ Unit → Bytes
  | .ok value, .ok () => valueLine value
  | _, _ => []

/-- The lines of the appends that have succeeded, in order. -/
def reported : List (Except KeyFault Value) → List (Except φ Unit) → Bytes
  | value :: values, r :: rs => reportedLine value r ++ reported values rs
  | _, _ => []

end

variable {σ ε : Type} {put : Nat → Bytes → σ → Except ε σ} {good : σ → Prop} {content : σ → Bytes}
  {b : Buffered σ} {written : Bytes}

namespace Holds

/-- An append adds its line if it succeeds, and nothing if it fails. -/
theorem appendLine {put : Bytes → σ → Except ε σ} (hput : Delivers put good content)
    (h : Holds good content b written) (value : Except KeyFault Value) :
    Holds good content (b.appendLine put value).1
      (written ++ reportedLine value (b.appendLine put value).2) := by
  cases value with
  | error key =>
      simp only [Buffered.appendLine, reportedLine]
      rwa [List.append_nil]
  | ok value =>
      have hwrite := h.passes hput (write_passes put b (valueLine value))
      simp only [Buffered.appendLine]
      rcases heq : b.write put (valueLine value) with ⟨b', (e | u)⟩
      all_goals
        rw [heq] at hwrite
        exact hwrite

theorem appendEach (hput : ∀ n, Delivers (put n) good content) (h : Holds good content b written)
    (values : List (Except KeyFault Value)) (n : Nat) :
    Holds good content (b.appendEach put n values).1
      (written ++ reported values (b.appendEach put n values).2) := by
  induction values generalizing n b written with
  | nil =>
      simp only [Buffered.appendEach, reported]
      rwa [List.append_nil]
  | cons value rest ih =>
      have hfirst := h.appendLine (hput n) value
      have hrest := ih hfirst (n + 1)
      rw [List.append_assoc] at hrest
      exact hrest

/-- A close that succeeds has delivered all that was written. -/
theorem close {put retry : Bytes → σ → Except ε σ} (hput : Delivers put good content)
    (h : Holds good content b written) (hok : (b.close put retry).2 = .ok ()) :
    content (b.close put retry).1.device = written := by
  obtain ⟨hpasses, hempty⟩ := flush_passes put b
  have hholds := h.passes hput hpasses
  simp only [Buffered.close] at hok ⊢
  rcases heq : b.flush put with ⟨b', (e | u)⟩
  · simp only [heq] at hok
    cases hok
  · rw [heq] at hholds hempty
    have hwritten := hholds.written_eq
    rw [hempty rfl, List.append_nil, List.append_nil] at hwritten
    exact hwritten

end Holds

/-- A value has been reported if its append has succeeded. -/
theorem reported_ne_nil (values : List (Except KeyFault Value)) (n : Nat)
    (h : .ok () ∈ (b.appendEach put n values).2) :
    reported values (b.appendEach put n values).2 ≠ [] := by
  induction values generalizing n b with
  | nil => cases h
  | cons value rest ih =>
      simp only [appendEach, reported] at h ⊢
      rw [ne_eq, List.append_eq_nil_iff, Classical.not_and_iff_not_or_not]
      rcases List.mem_cons.1 h with hfirst | hrest
      · left
        cases value with
        | error key => cases hfirst
        | ok value =>
            rw [← hfirst]
            exact valueLine_ne_nil value
      · exact .inr (ih (n + 1) hrest)

/-! ## Devices that take nothing -/

/-- In a good state the device refuses every write of at least one byte. -/
def Refuses (put : Bytes → σ → Except ε σ) (good : σ → Prop) : Prop :=
  ∀ s data, good s → data ≠ [] → ∃ e, put data s = .error e

/-- Nothing is ever delivered to such a device. -/
theorem Refuses.delivers {put : Bytes → σ → Except ε σ} (h : Refuses put good)
    (hput : Delivers put good content) : Delivers put good (fun _ => []) := by
  intro s data t hgood hok
  refine ⟨(hput s data t hgood hok).1, ?_⟩
  by_cases hdata : data = []
  · rw [hdata, List.append_nil]
  · obtain ⟨e, he⟩ := h s data hgood hdata
    rw [he] at hok
    cases hok

/-- More than a buffer of bytes cannot be written to such a device. -/
theorem Refuses.writeAll {put : Bytes → σ → Except ε σ} (h : Refuses put good)
    (hput : Delivers put good content) {b : Buffered σ} (hgood : good b.device)
    (hle : b.pending.length ≤ capacity) {pieces : List Bytes}
    (hlong : capacity < pieces.flatten.length) : ∃ e, (b.writeAll put pieces).2 = .error e := by
  have hholds : Holds good (fun _ => []) b b.pending := ⟨hgood, rfl, hle⟩
  obtain ⟨done, -, hall, hpasses⟩ := writeAll_passes put b pieces
  cases hwrite : (b.writeAll put pieces).2 with
  | error e => exact ⟨e, rfl⟩
  | ok u =>
      -- Nothing is delivered, so all of it would have to wait in the buffer.
      have hafter := hholds.passes (h.delivers hput) hpasses
      rw [hall hwrite] at hafter
      have hlength := congrArg List.length hafter.written_eq
      have hwaiting := hafter.pending_le
      rw [List.nil_append, List.length_append] at hlength
      omega

/-- Nothing has been written to a stream that has just been opened. -/
theorem holds_fresh (s : σ) (hs : good s) : Holds good content ⟨s, []⟩ (content s) :=
  ⟨hs, List.append_nil _, Nat.zero_le _⟩

/-- Closing a stream on such a device fails if any append has succeeded. -/
theorem Refuses.close {values : List (Except KeyFault Value)} {retry : Bytes → σ → Except ε σ}
    (h : ∀ n, Refuses (put n) good) (hput : ∀ n, Delivers (put n) good content) (s : σ)
    (hs : good s) (hok : .ok () ∈ (appendEach put 0 ⟨s, []⟩ values).2) :
    ∃ e, ((appendEach put 0 ⟨s, []⟩ values).1.close (put values.length) retry).2 = .error e := by
  have hnone : ∀ n, Delivers (put n) good (fun _ => []) := fun n => (h n).delivers (hput n)
  have hholds := (holds_fresh s hs).appendEach hnone values 0
  cases hclose : ((appendEach put 0 ⟨s, []⟩ values).1.close (put values.length) retry).2 with
  | error e => exact ⟨e, rfl⟩
  | ok u =>
      -- All that was reported would have been delivered, and nothing is.
      have hnothing := hholds.close (hnone values.length) hclose
      exact absurd hnothing.symm (reported_ne_nil values 0 hok)

end Buffered

/-! ## Streams of records -/

/-- The handle stands in the device that takes nothing. -/
def FileSystem.InFull (device : FileSystem × Handle) : Prop :=
  device.1.node? device.2.location = some .full

theorem FileSystem.put_full :
    Buffered.Delivers put InFull (fun _ => []) ∧ Buffered.Refuses put InFull := by
  have hrefuses : Buffered.Refuses put InFull := by
    rintro ⟨fs, handle⟩ data hfull hdata
    exact ⟨.noSpace, by simp [put, show fs.node? handle.location = some .full from hfull, hdata]⟩
  refine ⟨?_, hrefuses⟩
  rintro ⟨fs, handle⟩ data t hfull hput
  by_cases hdata : data = []
  · simp only [put, show fs.node? handle.location = some .full from hfull, hdata] at hput
    cases hput
    exact ⟨hfull, by rw [hdata, List.append_nil]⟩
  · obtain ⟨e, he⟩ := hrefuses _ data hfull hdata
    rw [he] at hput
    cases hput

namespace RecordStream

/-- The stream of records that writes to a file through a buffer. -/
def behind (path : String) (b : Buffered (FileSystem × Handle)) : RecordStream :=
  ⟨path, ⟨b.device.2, b.pending⟩⟩

/-- Why a stream of records does not take a value. -/
def faultOf : KeyFault ⊕ IoFault → StreamFault
  | .inl key => .unwritable key
  | .inr io => .unwritten io

/-- Appends values in order, going on after those that fail. -/
def appendEach (fs : FileSystem) (s : RecordStream) :
    List (Except KeyFault Value) → FileSystem × RecordStream × List (Except StreamFault Unit)
  | [] => (fs, s, [])
  | value :: rest =>
    let (fs, s, r) := s.append fs value
    let (fs, s, rs) := s.appendEach fs rest
    (fs, s, r :: rs)

theorem append_behind (path : String) (b : Buffered (FileSystem × Handle))
    (value : Except KeyFault Value) :
    (behind path b).append b.device.1 value =
      ((b.appendLine FileSystem.put value).1.device.1,
        behind path (b.appendLine FileSystem.put value).1,
        (b.appendLine FileSystem.put value).2.mapError faultOf) := by
  obtain ⟨⟨fs, handle⟩, pending⟩ := b
  cases value with
  | error key => rfl
  | ok value =>
      simp only [append, behind, OpenFile.writeAll, OpenFile.via, Buffered.writeAll,
        Buffered.appendLine, Buffered.valueLine]
      rcases Buffered.write FileSystem.put ⟨(fs, handle), pending⟩
        (textBytes (value.line ++ "\n")) with ⟨b', (e | u)⟩
      · rfl
      · rfl

theorem appendEach_behind (path : String) (b : Buffered (FileSystem × Handle))
    (values : List (Except KeyFault Value)) (n : Nat) :
    (behind path b).appendEach b.device.1 values =
      ((b.appendEach (fun _ => FileSystem.put) n values).1.device.1,
        behind path (b.appendEach (fun _ => FileSystem.put) n values).1,
        (b.appendEach (fun _ => FileSystem.put) n values).2.map (·.mapError faultOf)) := by
  induction values generalizing b n with
  | nil => rfl
  | cons value rest ih =>
      rw [appendEach, append_behind]
      simp only [ih _ (n + 1), Buffered.appendEach, List.map_cons]

theorem close_behind (path : String) (b : Buffered (FileSystem × Handle)) :
    (behind path b).close b.device.1 =
      ((b.close FileSystem.put FileSystem.put).1.device.1,
        (b.close FileSystem.put FileSystem.put).2.mapError .unwritten) := by
  obtain ⟨⟨fs, handle⟩, pending⟩ := b
  simp only [close, behind, OpenFile.close, OpenFile.flush, OpenFile.drop, OpenFile.via,
    Buffered.close]
  rcases Buffered.flush FileSystem.put ⟨(fs, handle), pending⟩ with ⟨b', (e | u)⟩
  · rfl
  · rfl

/-- A stream that has just been opened takes values on a device that may refuse any write, and may
behave differently in each call. After any number of calls, what the device has taken and what waits
are together the lines of the appends that have succeeded, in order, so a close that succeeds has
delivered exactly these. Where the device takes nothing, closing fails if any append has succeeded.
A stream of records on any file is such a stream. -/
theorem lines_accounted {σ ε : Type} {put : Nat → Bytes → σ → Except ε σ} {good : σ → Prop}
    {delivered : σ → Bytes} (hput : ∀ n, Buffered.Delivers (put n) good delivered) (s : σ)
    (hs : good s) (values : List (Except KeyFault Value)) (retry : Bytes → σ → Except ε σ) :
    let b := (Buffered.appendEach put 0 ⟨s, []⟩ values).1
    let results := (Buffered.appendEach put 0 ⟨s, []⟩ values).2
    let lines := Buffered.reported values results
    let closed := b.close (put values.length) retry
    delivered b.device ++ b.pending = delivered s ++ lines ∧
    (closed.2 = .ok () → delivered closed.1.device = delivered s ++ lines) ∧
    ((∀ n, Buffered.Refuses (put n) good) → .ok () ∈ results → ∃ e, closed.2 = .error e) ∧
    ∀ (path : String) (file : FileSystem × Handle),
      let run := Buffered.appendEach (fun _ => FileSystem.put) 0 ⟨file, []⟩ values
      (behind path ⟨file, []⟩).appendEach file.1 values =
        (run.1.device.1, behind path run.1, run.2.map (·.mapError faultOf)) ∧
      (behind path run.1).close run.1.device.1 =
        ((run.1.close FileSystem.put FileSystem.put).1.device.1,
          (run.1.close FileSystem.put FileSystem.put).2.mapError .unwritten) := by
  intro b results lines closed
  have hfresh : Buffered.Holds good delivered ⟨s, []⟩ (delivered s) := Buffered.holds_fresh s hs
  have hholds := hfresh.appendEach hput values 0
  refine ⟨hholds.written_eq, hholds.close (hput values.length), ?_, ?_⟩
  · intro hrefuses hok
    exact Buffered.Refuses.close hrefuses hput s hs hok
  · intro path file
    exact ⟨appendEach_behind path ⟨file, []⟩ values 0, close_behind path _⟩

/-- A small value is appended to a full device, which shows only when the stream is closed. -/
theorem lines_accounted_full :
    let b := Buffered.appendEach (fun _ => FileSystem.put) 0
      ⟨(⟨"/", [(["full"], .full)]⟩, ⟨["full"], 0⟩), []⟩ [.ok .null]
    b.2 = [.ok ()] ∧ ∃ e, (b.1.close FileSystem.put FileSystem.put).2 = .error e := by
  intro b
  have hresults : b.2 = [.ok ()] := by cbv
  obtain ⟨hdelivers, hrefuses⟩ := FileSystem.put_full
  have hfull : FileSystem.InFull (⟨"/", [(["full"], .full)]⟩, ⟨["full"], 0⟩) := rfl
  obtain ⟨-, -, hclose, -⟩ := lines_accounted (fun _ => hdelivers) _ hfull [.ok .null]
    FileSystem.put
  exact ⟨hresults, hclose (fun _ => hrefuses) (hresults ▸ List.mem_singleton.2 rfl)⟩

end RecordStream

end MachineAtlas
