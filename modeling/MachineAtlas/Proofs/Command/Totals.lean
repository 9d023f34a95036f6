-- SUMMARY: Totals add up over files in a row, in any order of lines, with the fault of the first bad line.
import MachineAtlas.Proofs.Command.Observer
import MachineAtlas.Proofs.Command.Pipeline
import MachineAtlas.Proofs.Files.Streaming
/-!
# Totals of files in a row

The totals of a file are those of the records on its lines, so they add up over files that are put
one behind the other, and the order of the lines has no part in them. A file that cannot be summed up
is at fault in its first line that cannot be read, which counts from the start of the whole.
-/
namespace MachineAtlas.Command

open Lines (Ended Reading newline reading split values)

/-! ## Adding -/

namespace Totals

instance : Zero Totals := ⟨{}⟩

instance : AddCommMonoid Totals where
  add_assoc _ _ _ := by
    refine Totals.ext ?_ ?_ ?_ ?_ ?_ ?_ ?_ ?_
    all_goals exact Nat.add_assoc _ _ _
  add_comm _ _ := by
    refine Totals.ext ?_ ?_ ?_ ?_ ?_ ?_ ?_ ?_
    all_goals exact Nat.add_comm _ _
  zero_add _ := by
    refine Totals.ext ?_ ?_ ?_ ?_ ?_ ?_ ?_ ?_
    all_goals exact Nat.zero_add _
  add_zero _ := rfl
  nsmul := nsmulRec

theorem ofRecords_eq_sum (rs : List Record) : ofRecords rs = (rs.map ofRecord).sum := by
  induction rs with
  | nil => rfl
  | cons r rs ih =>
      rw [List.map_cons, List.sum_cons, ← ih, ← empty_add (ofRecords (r :: rs)),
        ← add_ofRecords_cons, empty_add]

@[simp] theorem ofRecords_append (front back : List Record) :
    ofRecords (front ++ back) = ofRecords front + ofRecords back := by
  simp only [ofRecords_eq_sum, List.map_append, List.sum_append]

theorem ofRecords_perm {rs rs' : List Record} (h : rs.Perm rs') : ofRecords rs = ofRecords rs' := by
  rw [ofRecords_eq_sum, ofRecords_eq_sum]
  exact (h.map ofRecord).sum_eq

/-- No part is counted more often than what it is a part of. -/
structure Bounded (t : Totals) : Prop where
  mangledFunctions : t.mangledFunctions ≤ t.functions
  functionsWithoutModule : t.functionsWithoutModule ≤ t.functions
  prologueSites : t.prologueSites ≤ t.blocks
  epilogueSites : t.epilogueSites ≤ t.blocks
  inlineAsmBlocks : t.inlineAsmBlocks ≤ t.blocks

theorem bounded_zero : Bounded {} where
  mangledFunctions := Nat.le_refl 0
  functionsWithoutModule := Nat.le_refl 0
  prologueSites := Nat.le_refl 0
  epilogueSites := Nat.le_refl 0
  inlineAsmBlocks := Nat.le_refl 0

theorem bounded_ofRecord (r : Record) : (ofRecord r).Bounded where
  mangledFunctions := by
    simp only [ofRecord]
    split <;> decide
  functionsWithoutModule := by
    simp only [ofRecord]
    split <;> decide
  prologueSites := List.countP_le_length
  epilogueSites := List.countP_le_length
  inlineAsmBlocks := List.countP_le_length

theorem Bounded.add {t u : Totals} (ht : t.Bounded) (hu : u.Bounded) : (t + u).Bounded where
  mangledFunctions := Nat.add_le_add ht.mangledFunctions hu.mangledFunctions
  functionsWithoutModule := Nat.add_le_add ht.functionsWithoutModule hu.functionsWithoutModule
  prologueSites := Nat.add_le_add ht.prologueSites hu.prologueSites
  epilogueSites := Nat.add_le_add ht.epilogueSites hu.epilogueSites
  inlineAsmBlocks := Nat.add_le_add ht.inlineAsmBlocks hu.inlineAsmBlocks

end Totals

/-! ## What a file comes to -/

/-- All of some lines can be read, or there is a first one that cannot. -/
theorem readable_or_bad {α : Type} (codec : Json.Codec α) (lines : List Bytes) :
    (∀ line ∈ lines, (reading codec line).isReadable = true) ∨
    ∃ good bad later, lines = good ++ bad :: later ∧
      (∀ line ∈ good, (reading codec line).isReadable = true) ∧
      (reading codec bad).isReadable = false := by
  cases hfind : lines.find? fun line => ! (reading codec line).isReadable with
  | none =>
      left
      simpa using List.find?_eq_none.1 hfind
  | some bad =>
      right
      obtain ⟨hbad, good, later, hlines, hgood⟩ := List.find?_eq_some_iff_append.1 hfind
      exact ⟨good, bad, later, hlines, by simpa using hgood, by simpa using hbad⟩

section

variable {fs : FileSystem} {path : String} {content : Bytes}

/-- A file is summed up over all its lines, or up to the first one that cannot be read. -/
theorem totalsOf_cases (hread : fs.readBytes path = .ok content) :
    ((∀ line ∈ split content, (reading Record.codec line).isReadable = true) ∧
      totalsOf fs path = .ok (Totals.ofRecords (values Record.codec (split content)))) ∨
    ∃ good bad later fault, split content = good ++ bad :: later ∧
      (∀ line ∈ good, (reading Record.codec line).isReadable = true) ∧
      (reading Record.codec bad).fault? good.length = some fault ∧
      totalsOf fs path = .error (lineFailure "record" path fault) := by
  rcases readable_or_bad Record.codec (split content) with
    hreadable | ⟨good, bad, later, hlines, hgood, hbad⟩
  · exact .inl ⟨hreadable, totalsOf_readable hread hreadable⟩
  · obtain ⟨fault, hfault⟩ := Reading.exists_fault (ε := Failure) hbad good.length
    exact .inr ⟨good, bad, later, fault, hlines, hgood, hfault,
      totalsOf_bad hread hlines hgood hfault⟩

/-- A file that has totals can be read line by line, and they are those of its records. -/
theorem readable_of_totalsOf (hread : fs.readBytes path = .ok content) {t : Totals}
    (h : totalsOf fs path = .ok t) :
    (∀ line ∈ split content, (reading Record.codec line).isReadable = true) ∧
      t = Totals.ofRecords (values Record.codec (split content)) := by
  rcases totalsOf_cases hread with ⟨hreadable, hok⟩ | ⟨good, bad, later, fault, -, -, -, herror⟩
  · rw [hok] at h
    exact ⟨hreadable, (Except.ok.inj h).symm⟩
  · rw [herror] at h
    cases h

/-- A file that has no totals fails in its first line that cannot be read. -/
theorem bad_of_totalsOf (hread : fs.readBytes path = .ok content) {failure : Failure}
    (h : totalsOf fs path = .error failure) :
    ∃ good bad later fault, split content = good ++ bad :: later ∧
      (∀ line ∈ good, (reading Record.codec line).isReadable = true) ∧
      (reading Record.codec bad).fault? good.length = some fault ∧
      failure = lineFailure "record" path fault := by
  rcases totalsOf_cases hread with ⟨-, hok⟩ | ⟨good, bad, later, fault, hlines, hgood, hbad, herror⟩
  · rw [hok] at h
    cases h
  · rw [herror] at h
    exact ⟨good, bad, later, fault, hlines, hgood, hbad, (Except.error.inj h).symm⟩

/-- Totals are bounded, whatever they are those of. -/
theorem bounded_of_totalsOf {t : Totals} (h : totalsOf fs path = .ok t) : t.Bounded := by
  obtain ⟨n, -, ht⟩ := Json.map_eq_ok.1 h
  rw [← ht]
  refine visitFile_invariant (fun t r hbounded => ?_) Totals.bounded_zero _ _ _ _
  exact hbounded.add (Totals.bounded_ofRecord r)

end

/-! ## Files in a row -/

/-- The failure behind further lines, which come before the line that it names. -/
def Failure.behind (lines : Nat) : Failure → Failure
  | .lineMalformed what path line fault => .lineMalformed what path (line + lines) fault
  | failure => failure

theorem exists_fault_behind {α : Type} {r : Reading α} {number : Nat}
    {fault : Lines.Fault Failure} (h : r.fault? number = some fault) (lines : Nat)
    (what path : String) :
    ∃ fault', r.fault? (lines + number) = some fault' ∧
      lineFailure what path fault' = (lineFailure what path fault).behind lines := by
  cases r with
  | blank => cases h
  | value a => cases h
  | malformed flaw =>
      obtain rfl := Option.some.inj h
      refine ⟨_, rfl, ?_⟩
      rw [lineFailure, lineFailure, Failure.behind, Nat.add_assoc, Nat.add_comm]
  | notText =>
      obtain rfl := Option.some.inj h
      exact ⟨_, rfl, rfl⟩

theorem ended_recordBytes (rs : List Record) : Ended (recordBytes rs) := by
  rcases List.eq_nil_or_concat rs with rfl | ⟨rs, r, rfl⟩
  · exact .inl rfl
  · right
    rw [recordBytes, List.concat_eq_append, List.flatMap_append, List.flatMap_singleton,
      Lines.lineBytes, ← List.append_assoc, List.getLast?_concat]

section

variable {fsFront fsBack fs : FileSystem} {path : String} {front back : Bytes}

theorem totalsOf_append (hended : Ended front) (hfront : fsFront.readBytes path = .ok front)
    (hback : fsBack.readBytes path = .ok back) (hboth : fs.readBytes path = .ok (front ++ back))
    {t u : Totals} (ht : totalsOf fsFront path = .ok t) (hu : totalsOf fsBack path = .ok u) :
    totalsOf fs path = .ok (t + u) := by
  obtain ⟨hfrontlines, rfl⟩ := readable_of_totalsOf hfront ht
  obtain ⟨hbacklines, rfl⟩ := readable_of_totalsOf hback hu
  rw [← Totals.ofRecords_append, ← Lines.values_append, ← Lines.split_append hended]
  apply totalsOf_readable hboth
  rw [Lines.split_append hended, List.forall_mem_append]
  exact ⟨hfrontlines, hbacklines⟩

/-- A fault in the front is one of the whole, and the back is not looked at. -/
theorem totalsOf_append_of_front (hended : Ended front)
    (hfront : fsFront.readBytes path = .ok front) (hboth : fs.readBytes path = .ok (front ++ back))
    {failure : Failure} (h : totalsOf fsFront path = .error failure) :
    totalsOf fs path = .error failure := by
  obtain ⟨good, bad, later, fault, hlines, hgood, hbad, rfl⟩ := bad_of_totalsOf hfront h
  have hwhole : split (front ++ back) = good ++ bad :: (later ++ split back) := by
    rw [Lines.split_append hended, hlines, List.append_assoc, List.cons_append]
  exact totalsOf_bad hboth hwhole hgood hbad

/-- A fault in the back is one of the whole if the front has none, some lines further down. -/
theorem totalsOf_append_of_back (hended : Ended front)
    (hfront : fsFront.readBytes path = .ok front) (hback : fsBack.readBytes path = .ok back)
    (hboth : fs.readBytes path = .ok (front ++ back)) {t : Totals} {failure : Failure}
    (ht : totalsOf fsFront path = .ok t) (h : totalsOf fsBack path = .error failure) :
    totalsOf fs path = .error (failure.behind (front.count newline)) := by
  obtain ⟨hfrontlines, -⟩ := readable_of_totalsOf hfront ht
  obtain ⟨good, bad, later, fault, hlines, hgood, hbad, rfl⟩ := bad_of_totalsOf hback h
  have hwhole : split (front ++ back) = (split front ++ good) ++ bad :: later := by
    rw [Lines.split_append hended, hlines, List.append_assoc]
  have hreadable : ∀ line ∈ split front ++ good,
      (reading Record.codec line).isReadable = true := by
    rw [List.forall_mem_append]
    exact ⟨hfrontlines, hgood⟩
  obtain ⟨fault', hfault', hbehind⟩ :=
    exists_fault_behind hbad (split front).length "record" path
  rw [← Lines.length_split hended, ← hbehind]
  rw [← List.length_append] at hfault'
  exact totalsOf_bad hboth hwhole hreadable hfault'

/-- Whole lines come to the same totals in any order. -/
theorem totalsOf_perm {path' : String} {lines : List Bytes} (hended : Ended front)
    (hfront : fsFront.readBytes path = .ok front) (hperm : lines.Perm (split front))
    (hlines : fs.readBytes path' = .ok lines.flatten) {t : Totals}
    (ht : totalsOf fsFront path = .ok t) : totalsOf fs path' = .ok t := by
  obtain ⟨hreadable, rfl⟩ := readable_of_totalsOf hfront ht
  have hsplit : split lines.flatten = lines :=
    Lines.split_flatten fun line hline => Lines.isWhole_of_mem_split hended (hperm.mem_iff.1 hline)
  have hvalues : (values Record.codec lines).Perm (values Record.codec (split front)) :=
    hperm.filterMap _
  have hok := totalsOf_readable hlines
  rw [hsplit, Totals.ofRecords_perm hvalues] at hok
  exact hok fun line hline => hreadable line (hperm.mem_iff.1 hline)

/-- Summaries add up: two files in a row, of which the first ends with its last line, are summarized
to the sum of their totals. If the first is at fault the whole is at that fault, and if only the
second is, the whole is at its fault, with the line counted from the start of the whole. Whole lines
may be in any order, and no part is ever counted more often than what it is a part of. -/
theorem summarize_append (json : Bool) (hended : Ended front)
    (hfront : fsFront.readBytes path = .ok front) (hback : fsBack.readBytes path = .ok back)
    (hboth : fs.readBytes path = .ok (front ++ back)) :
    (∀ t u, (summarize fsFront path json).result = .ok t →
      (summarize fsBack path json).result = .ok u →
      (summarize fs path json).result = .ok (t + u)) ∧
    (∀ failure, (summarize fsFront path json).result = .error failure →
      (summarize fs path json).result = .error failure) ∧
    (∀ t what named line fault, (summarize fsFront path json).result = .ok t →
      (summarize fsBack path json).result = .error (.lineMalformed what named line fault) →
      (summarize fs path json).result =
        .error (.lineMalformed what named (line + front.count newline) fault)) ∧
    (∀ t what named io, (summarize fsFront path json).result = .ok t →
      (summarize fsBack path json).result = .error (.linesUnread what named io) →
      (summarize fs path json).result = .error (.linesUnread what named io)) ∧
    (∀ (lines : List Bytes) (fs' : FileSystem) (path' : String) (t : Totals),
      lines.Perm (split front) → fs'.readBytes path' = .ok lines.flatten →
      (summarize fsFront path json).result = .ok t →
      (summarize fs' path' json).result = .ok t) ∧
    ∀ (fs' : FileSystem) (path' : String) (t : Totals),
      (summarize fs' path' json).result = .ok t → t.Bounded := by
  simp only [result_summarize]
  refine ⟨?_, ?_, ?_, ?_, ?_, ?_⟩
  · exact fun t u ht hu => totalsOf_append hended hfront hback hboth ht hu
  · exact fun failure h => totalsOf_append_of_front hended hfront hboth h
  · exact fun t what named line fault ht h =>
      totalsOf_append_of_back hended hfront hback hboth ht h
  · exact fun t what named io ht h => totalsOf_append_of_back hended hfront hback hboth ht h
  · exact fun lines fs' path' t hperm hlines ht => totalsOf_perm hended hfront hperm hlines ht
  · exact fun fs' path' t h => bounded_of_totalsOf h

end

/-- Behind two records, another one is counted too, and a line that is none is the third one. -/
theorem summarize_append_mangled :
    let front := recordBytes [mangledRecord, default]
    (summarize ⟨"/", [(["r"], .file (front ++ recordBytes [mangledRecord]))]⟩ "r" false).result =
      .ok { functions := 3, mangledFunctions := 2, blocks := 6, instructions := 8,
            prologueSites := 2, epilogueSites := 4, inlineAsmBlocks := 2,
            functionsWithoutModule := 1 } ∧
    (summarize ⟨"/", [(["r"], .file (front ++ [0x78]))]⟩ "r" false).result =
      .error (.lineMalformed "record" "r" 3 (.flaw .malformed)) := by
  intro front
  have hended : Ended front := ended_recordBytes _
  have hcount : front.count newline = 2 := by
    rw [← Lines.length_split hended]
    exact congrArg List.length (Lines.split_flatMap Record.codec [mangledRecord, default])
  have hrecords (rs : List Record) :
      (summarize ⟨"/", [(["r"], .file (recordBytes rs))]⟩ "r" false).result =
        .ok (Totals.ofRecords rs) := by
    rw [result_summarize]
    exact totalsOf_lists (readBytes_root _) (Lines.lists_flatMap Record.codec rs)
  have hflaw : (summarize ⟨"/", [(["r"], .file [0x78])]⟩ "r" false).result =
      .error (.lineMalformed "record" "r" 1 (.flaw .malformed)) := by
    cbv
  constructor
  · exact (summarize_append false hended (readBytes_root _) (readBytes_root _)
      (readBytes_root _)).1 _ _ (hrecords _) (hrecords [mangledRecord])
  · have hshift := (summarize_append false hended (readBytes_root _) (readBytes_root [0x78])
      (readBytes_root _)).2.2.1 _ _ _ _ _ (hrecords _) hflaw
    rwa [hcount] at hshift

end MachineAtlas.Command
