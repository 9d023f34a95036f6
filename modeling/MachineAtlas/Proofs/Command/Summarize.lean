-- SUMMARY: Totals count what is in the records, and a cut file has those of its whole records.
import Mathlib
import MachineAtlas.Command.Summarize
import MachineAtlas.Proofs.Files.Reading
import MachineAtlas.Proofs.Record.Framing
/-!
# Totals of cut files

The totals of a file of records are those of the records, and those of a cut file are the totals of
the records that are there whole: a record that is cut is never counted and never passed over.
-/
namespace MachineAtlas

open Lines (Lists Reading lineBytes newline reading split values)

namespace Command

/-! ## Files of documents -/

section

variable {α σ : Type} {codec : Json.Codec α}

/-- What a fault in the lines of a file makes of the command. -/
def lineFailure (what path : String) : Lines.Fault Failure → Failure
  | .unreadable io => .linesUnread what path io
  | .malformed line fault => .lineMalformed what path line fault
  | .refused e => e

theorem visitFile_of_readBytes {what path : String} {fs : FileSystem} {content : Bytes}
    (h : fs.readBytes path = .ok content) (visitor : σ → α → σ × Except Failure Unit) (s : σ) :
    visitFile codec what path fs visitor s =
      ((Lines.visit codec visitor s content).1,
        (Lines.visit codec visitor s content).2.mapError (lineFailure what path)) := by
  obtain ⟨⟨l, node⟩, hfind, hcontents⟩ := Json.bind_eq_ok.1 h
  simp only [visitFile, hfind, hcontents]
  rfl

end

/-- A file in the root is read by its name. -/
theorem readBytes_root (content : Bytes) :
    FileSystem.readBytes ⟨"/", [(["r"], .file content)]⟩ "r" = .ok content := by
  cbv

/-! ## Totals of records -/

namespace Totals

/-- The totals of records, counted in the records themselves. -/
def ofRecords (rs : List Record) : Totals where
  functions := rs.length
  mangledFunctions := rs.countP fun r => r.function.isMangled
  blocks := (rs.map fun r => r.function.blocks.length).sum
  instructions :=
    (rs.map fun r => (r.function.blocks.map fun b => b.machine.instrs.length).sum).sum
  prologueSites :=
    (rs.map fun r => r.function.blocks.countP fun b => b.machine.isPrologueSite).sum
  epilogueSites :=
    (rs.map fun r => r.function.blocks.countP fun b => b.machine.isEpilogueSite).sum
  inlineAsmBlocks :=
    (rs.map fun r => r.function.blocks.countP fun b => b.machine.hasInlineAsm).sum
  functionsWithoutModule := rs.countP fun r => r.owner.isNone

theorem add_eq (t u : Totals) : t + u = t.add u := rfl

@[simp] theorem empty_add (t : Totals) : ({} : Totals) + t = t := by
  refine Totals.ext ?_ ?_ ?_ ?_ ?_ ?_ ?_ ?_ <;> exact Nat.zero_add _

@[simp] theorem ofRecords_nil : ofRecords [] = {} := rfl

/-- A record in front counts as one more, with all that is in it. -/
theorem add_ofRecords_cons (t : Totals) (r : Record) (rs : List Record) :
    t + ofRecord r + ofRecords rs = t + ofRecords (r :: rs) := by
  have hinstrs : ((r.function.blocks.map BlockRecord.machine).flatMap fun b => b.instrs).length =
      (r.function.blocks.map fun b => b.machine.instrs.length).sum := by
    rw [List.length_flatMap, List.map_map]
    rfl
  simp only [add_eq, add, ofRecord, ofRecords, hinstrs, List.countP_map, List.length_map,
    List.length_cons, List.countP_cons, List.map_cons, List.sum_cons]
  refine Totals.ext ?_ ?_ ?_ ?_ ?_ ?_ ?_ ?_
  all_goals
    simp only [Function.comp_def]
    omega

end Totals

/-- The file that holds records, one per line. -/
def recordBytes (rs : List Record) : Bytes := rs.flatMap (lineBytes Record.codec)

/-- The visitor that adds up records refuses none. -/
theorem visitAll_totals (rs : List Record) (t : Totals) :
    Lines.visitAll (ε := Failure) (fun t r => (t + Totals.ofRecord r, .ok ())) t rs =
      (t + Totals.ofRecords rs, .ok ()) := by
  induction rs generalizing t with
  | nil => rfl
  | cons r rs ih =>
      rw [← Totals.add_ofRecords_cons, ← ih]
      rfl

section

variable {fs : FileSystem} {path : String} {content : Bytes}

/-- A file whose lines can be read is summarized to the totals of the records on them. -/
theorem totalsOf_readable (hread : fs.readBytes path = .ok content)
    (h : ∀ line ∈ split content, (reading Record.codec line).isReadable = true) :
    totalsOf fs path = .ok (Totals.ofRecords (values Record.codec (split content))) := by
  have hwalk := Lines.visitFrom_append h (ε := Failure)
    (fun t r => (t + Totals.ofRecord r, .ok ())) 0 0 ({} : Totals) []
  rw [List.append_nil, visitAll_totals, Totals.empty_add] at hwalk
  rw [totalsOf, visitFile_of_readBytes hread, Lines.visit, hwalk]
  rfl

/-- A file fails in its first line that cannot be read. -/
theorem totalsOf_bad (hread : fs.readBytes path = .ok content) {good later : List Bytes}
    {bad : Bytes} {fault : Lines.Fault Failure} (hlines : split content = good ++ bad :: later)
    (hgood : ∀ line ∈ good, (reading Record.codec line).isReadable = true)
    (hbad : (reading Record.codec bad).fault? good.length = some fault) :
    totalsOf fs path = .error (lineFailure "record" path fault) := by
  rw [← Nat.zero_add good.length] at hbad
  rw [totalsOf, visitFile_of_readBytes hread, Lines.visit, hlines, Lines.visitFrom_append hgood,
    visitAll_totals]
  simp only [Lines.visitFrom_bad hbad]
  rfl

/-- A file that holds records is summarized to their totals. -/
theorem totalsOf_lists {rs : List Record} (hread : fs.readBytes path = .ok content)
    (hlists : Lists Record.codec rs content) :
    totalsOf fs path = .ok (Totals.ofRecords rs) := by
  obtain ⟨hreadable, hvalues⟩ := hlists.values_eq Record.codec_selfDelimiting
  rw [totalsOf_readable hread hreadable, hvalues]

end

/-! ## Cut files -/

/-- A file that ends inside the text of a record has no totals. -/
theorem totalsOf_front {fs : FileSystem} {path : String} {rs : List Record} {r : Record}
    {front rest : Bytes} (hread : fs.readBytes path = .ok (recordBytes rs ++ front))
    (hfront : front ++ rest = textBytes (Record.codec.line r)) (hne : front ≠ [])
    (hrest : rest ≠ []) : ∃ failure, totalsOf fs path = .error failure := by
  obtain ⟨hsplit, hbad⟩ := Lines.isReadable_front Record.codec_selfDelimiting hfront hne hrest
  obtain ⟨fault, hfault⟩ := Reading.exists_fault (ε := Failure) hbad
    (rs.map (lineBytes Record.codec)).length
  -- The whole records are read, and the walk ends in the line that is cut.
  have hlines : split (recordBytes rs ++ front) = rs.map (lineBytes Record.codec) ++ [front] := by
    rw [recordBytes, Lines.split_flatMap_append, hsplit]
  exact ⟨lineFailure "record" path fault, totalsOf_bad hread hlines
    (Lines.values_lineBytes Record.codec_selfDelimiting rs).1 hfault⟩

/-- Bytes are exactly the first `k` of some records, the last one with or without its newline. -/
structure Keeps (rs : List Record) (k : Nat) (content : Bytes) : Prop where
  le : k ≤ rs.length
  bytes_eq : content = recordBytes (rs.take k) ∨ content ++ [newline] = recordBytes (rs.take k)

theorem exists_text_recordBytes (rs : List Record) : ∃ s, recordBytes rs = textBytes s := by
  induction rs with
  | nil => exact ⟨"", textBytes_empty.symm⟩
  | cons r rs ih =>
      obtain ⟨s, hs⟩ := ih
      refine ⟨Record.codec.line r ++ "\n" ++ s, ?_⟩
      rw [textBytes_append, textBytes_append, textBytes_newline, ← hs]
      rfl

/-- Whole records are a text. -/
theorem Keeps.exists_text {rs : List Record} {k : Nat} {content : Bytes} (h : Keeps rs k content) :
    ∃ s, content = textBytes s := by
  obtain ⟨s, hs⟩ := exists_text_recordBytes (rs.take k)
  rcases h.bytes_eq with heq | heq
  · exact ⟨s, heq.trans hs⟩
  · obtain ⟨cs, -, hcs⟩ := exists_of_textBytes_concat (hs.symm.trans heq.symm) (by decide)
    exact ⟨String.ofList cs, hcs.symm⟩

theorem totalsOf_keeps {fs : FileSystem} {path : String} {rs : List Record} {k : Nat}
    {content : Bytes} (hread : fs.readBytes path = .ok content) (h : Keeps rs k content) :
    totalsOf fs path = .ok (Totals.ofRecords (rs.take k)) := by
  apply totalsOf_lists hread
  rcases h.bytes_eq with rfl | hopen
  · exact Lines.lists_flatMap Record.codec _
  · exact Lines.lists_of_newline hopen

/-- A cut keeps whole records, or the file has no totals. -/
theorem keeps_or_error {fs : FileSystem} {path : String} {rs : List Record} {n : Nat}
    (hread : fs.readBytes path = .ok ((recordBytes rs).take n)) :
    (∃ k, Keeps rs k ((recordBytes rs).take n)) ∨ ∃ failure, totalsOf fs path = .error failure := by
  obtain ⟨k, front, hle, htake, hfront⟩ := Lines.exists_take_flatMap Record.codec rs n
  change (recordBytes rs).take n = recordBytes (rs.take k) ++ front at htake
  have hwhole : front = [] → Keeps rs k ((recordBytes rs).take n) := by
    rintro rfl
    exact ⟨hle, .inl (by rw [htake, List.append_nil])⟩
  rcases hfront with hnil | ⟨r, rest, hk, hfront, hrest⟩
  · exact .inl ⟨k, hwhole hnil⟩
  rcases List.eq_nil_or_concat rest with rfl | ⟨rest, b, rfl⟩
  · exact absurd rfl hrest
  rw [List.concat_eq_append, ← List.append_assoc] at hfront
  obtain ⟨hline, hb⟩ := List.append_inj' hfront rfl
  obtain rfl : b = newline := by simpa using hb
  cases rest with
  | nil =>
      -- Nothing but the newline is cut off.
      have hlt : k < rs.length := (List.getElem?_eq_some_iff.1 hk).1
      have hnext : recordBytes (rs.take (k + 1)) =
          recordBytes (rs.take k) ++ lineBytes Record.codec r := by
        simp [recordBytes, List.take_add_one, hk]
      refine .inl ⟨k + 1, hlt, .inr ?_⟩
      rw [htake, hnext, List.append_assoc, ← hfront, List.append_nil]
  | cons c rest =>
      by_cases hnil : front = []
      · exact .inl ⟨k, hwhole hnil⟩
      · rw [htake] at hread
        exact .inr (totalsOf_front hread hline hnil (by simp))

@[simp] theorem result_summarize (fs : FileSystem) (path : String) (json : Bool) :
    (summarize fs path json).result = totalsOf fs path := by
  unfold summarize
  split <;> simp_all

/-- A file of records that is cut anywhere is summarized to the totals of the first `k` records
exactly if the cut keeps those and nothing else, and is at fault otherwise. A cut inside a character
is at fault, and nothing that is less than a record is read as one. -/
theorem summarize_cut (rs : List Record) (n : Nat) {fs : FileSystem} {path : String} (json : Bool)
    (hread : fs.readBytes path = .ok ((recordBytes rs).take n)) :
    (∀ t, (summarize fs path json).result = .ok t ↔
      ∃ k, Keeps rs k ((recordBytes rs).take n) ∧ t = Totals.ofRecords (rs.take k)) ∧
    ((∀ k, ¬ Keeps rs k ((recordBytes rs).take n)) →
      ∃ failure, (summarize fs path json).result = .error failure) ∧
    (∀ (s : String) (c : Char) (m : Nat), 0 < m → m < c.utf8Size →
      (recordBytes rs).take n = textBytes s ++ (String.utf8EncodeChar c).take m →
      ∃ failure, (summarize fs path json).result = .error failure) ∧
    (∀ (r : Record) (front rest : Bytes), front ++ rest = textBytes (Record.codec.line r) →
      front ≠ [] → rest ≠ [] → ∀ text, bytesText? front = some text →
      ∀ r', Record.codec.parse text ≠ .ok r') := by
  rw [result_summarize]
  have hcut := keeps_or_error hread
  refine ⟨fun t => ⟨fun ht => ?_, ?_⟩, hcut.resolve_left ∘ not_exists.2, ?_, ?_⟩
  · rcases hcut with ⟨k, hkeeps⟩ | ⟨failure, hfailure⟩
    · rw [totalsOf_keeps hread hkeeps] at ht
      exact ⟨k, hkeeps, (Except.ok.inj ht).symm⟩
    · rw [hfailure] at ht
      cases ht
  · rintro ⟨k, hkeeps, rfl⟩
    exact totalsOf_keeps hread hkeeps
  · intro s c m hpos hlt hinside
    -- Whole records are a text, and bytes that end inside a character are none.
    refine hcut.resolve_left ?_
    rintro ⟨k, hkeeps⟩
    obtain ⟨u, hu⟩ := hkeeps.exists_text
    have hnone := bytesText?_cut s hpos hlt
    rw [← hinside, hu, bytesText?_textBytes] at hnone
    cases hnone
  · intro r front rest hfront _ hrest text htext
    exact Lines.parse_of_front Record.codec_selfDelimiting hfront hrest htext

/-- The record of a mangled function whose frame is built up in one of three blocks and torn down in
two, one of which is written in assembly. -/
def mangledRecord : Record where
  function :=
    { (default : FunctionRecord) with
      name := "_Zf"
      isMangled := true
      blocks :=
        [⟨none, { (default : MachineBlock) with isPrologueSite := true, instrs := [default] }⟩,
          ⟨none, { (default : MachineBlock) with
            isEpilogueSite := true, hasInlineAsm := true, instrs := [default, default] }⟩,
          ⟨none, { (default : MachineBlock) with isEpilogueSite := true, instrs := [default] }⟩] }
  owner := some default

/-- Of three records, the last one is lost with the newline in front of it, and two are counted. -/
theorem summarize_cut_mangled :
    let kept := recordBytes [mangledRecord] ++ textBytes (Record.codec.line default)
    (summarize ⟨"/", [(["r"], .file
      ((recordBytes [mangledRecord, default, mangledRecord]).take kept.length))]⟩ "r" false).result =
      .ok { functions := 2, mangledFunctions := 1, blocks := 3, instructions := 4,
            prologueSites := 1, epilogueSites := 2, inlineAsmBlocks := 1,
            functionsWithoutModule := 1 } := by
  intro kept
  have hwhole : recordBytes [mangledRecord, default, mangledRecord] =
      kept ++ newline :: recordBytes [mangledRecord] := by
    simp [recordBytes, lineBytes, kept]
  have hkeeps : Keeps [mangledRecord, default, mangledRecord] 2
      ((recordBytes [mangledRecord, default, mangledRecord]).take kept.length) := by
    refine ⟨by decide, .inr ?_⟩
    rw [hwhole, List.take_left]
    simp [recordBytes, lineBytes, kept]
  exact ((summarize_cut [mangledRecord, default, mangledRecord] _ false
    (readBytes_root _)).1 _).2 ⟨2, hkeeps, rfl⟩

end Command

end MachineAtlas
