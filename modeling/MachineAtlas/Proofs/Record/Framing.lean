-- SUMMARY: A file of records is split into one line a record, each of which parses back to it.
import MachineAtlas.Proofs.Files.Lines
import MachineAtlas.Proofs.Record.Wire
/-!
# Records as lines

A file of records is a sequence of lines: no record has a line break in its text, so splitting the
file where the lines end and parsing each of them gives the records back, in order.
-/
namespace MachineAtlas.Record

open Lines (chomp lineBytes newline split)

theorem codec_selfDelimiting : codec.SelfDelimiting :=
  { codec_lawful with writes_object := fun _ => ⟨_, rfl⟩ }

/-- What is appended for a record is its line. -/
theorem textBytes_append_newline (r : Record) :
    textBytes (codec.line r ++ "\n") = lineBytes codec r := by
  rw [textBytes_append, textBytes_newline]
  rfl

/-- The text of a record has no byte of a control character and is parsed as the record. What is
appended for records, one after the other, is split at its newlines into the texts of the
records. -/
theorem parse_split :
    (∀ r : Record, (∀ b ∈ textBytes (codec.line r), 0x20 ≤ b) ∧
      codec.parse (codec.line r) = .ok r) ∧
    ∀ records : List Record,
      let content := records.flatMap fun r => textBytes (codec.line r ++ "\n")
      split content = records.map (fun r => textBytes (codec.line r) ++ [newline]) ∧
      (split content).map (fun line => (bytesText? (chomp line)).map codec.parse) =
        records.map fun r => some (.ok r) := by
  refine ⟨fun r => ⟨fun b => Lines.le_of_mem_textBytes_line codec r,
    Json.Codec.parse_line codec_lawful r⟩, fun records => ?_⟩
  intro content
  have hsplit : split content = records.map (lineBytes codec) := by
    simp only [content, textBytes_append_newline, Lines.split_flatMap]
  refine ⟨hsplit, ?_⟩
  rw [hsplit, List.map_map]
  exact List.map_congr_left fun r _ => Lines.parse_lineBytes codec_selfDelimiting r

end MachineAtlas.Record
