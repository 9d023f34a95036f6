-- SUMMARY: What becomes of a file of documents, for any kind of document and any visitor.
import MachineAtlas.Proofs.Command.Summarize
import MachineAtlas.Proofs.Files.Streaming
/-!
# Files of documents

What becomes of a file with one document per line, for any kind of document and any visitor: the
values of its lines are handed over up to the first line that ends the walk, and a line that does not
parse is named by the path of the file and its number in it.
-/
namespace MachineAtlas.Command

open Json (Codec)
open Lines (Walks tracing split bare spread isBlankLine)

variable {α σ : Type}

/-- A file is visited as its lines say, and ends in a failure if its walk does. Blank lines that are
put in between its lines, wherever and however these end, change nothing but the numbers of the lines
behind them. -/
theorem visitFile_walks (codec : Codec α) (what path : String) {fs : FileSystem} {content : Bytes}
    (hread : fs.readBytes path = .ok content) (visitor : σ → α → σ × Except Failure Unit) (s : σ) :
    let walk := Lines.visit codec (tracing visitor) (s, []) content
    visitFile codec what path fs visitor s =
        (walk.1.1, walk.2.mapError (lineFailure what path)) ∧
    (∀ outcome, walk = outcome ↔ Walks codec visitor s (split content) outcome) ∧
    (∀ number fault, (lineFailure what path (.malformed number fault)).message =
        "Failed to parse " ++ what ++ " at " ++ path ++ ":" ++ toString number) ∧
    (∀ failure, lineFailure what path (.refused failure) = failure) ∧
    ∀ (gap : Nat → List Bytes) (content' : Bytes),
      (∀ i, ∀ line ∈ gap i, isBlankLine line = true) →
      bare content' = spread gap 0 (bare content) →
      Lines.visit codec (tracing visitor) (s, []) content' =
        (walk.1, walk.2.mapError (Lines.Fault.shift gap)) := by
  intro walk
  have hwalk : Lines.visit codec visitor s content = (walk.1.1, walk.2) :=
    Lines.visitFrom_tracing 0 0 s [] (split content)
  refine ⟨?_, fun outcome => Lines.visit_eq_iff, fun number fault => rfl, fun failure => rfl, ?_⟩
  · rw [visitFile_of_readBytes hread, hwalk]
  · intro gap content' hgap hbare
    exact Lines.visit_spread hgap hbare (s, [])

/-- The second line is no flag. With a tab on a line of its own before it, it is the third. -/
theorem visitFile_walks_flags :
    visitFile Codec.boolean "flag" "r"
        ⟨"/", [(["r"], .file [0x74, 0x72, 0x75, 0x65, 0x0A, 0x78])]⟩ (fun n _ => (n + 1, .ok ())) 0 =
      (1, .error (.lineMalformed "flag" "r" 2 (.flaw .malformed))) ∧
    visitFile Codec.boolean "flag" "r"
        ⟨"/", [(["r"], .file [0x74, 0x72, 0x75, 0x65, 0x0A, 0x09, 0x0D, 0x0A, 0x78])]⟩
        (fun n _ => (n + 1, .ok ())) 0 =
      (1, .error (.lineMalformed "flag" "r" 3 (.flaw .malformed))) := by
  obtain ⟨hvisit, hwalks, -, -, hinsert⟩ := visitFile_walks Codec.boolean "flag" "r"
    (readBytes_root [0x74, 0x72, 0x75, 0x65, 0x0A, 0x78]) (fun n _ => (n + 1, .ok ())) 0
  have htext : Lines.text? [0x78] = some "x" := rfl
  have hsplit : split [0x74, 0x72, 0x75, 0x65, 0x0A, 0x78] =
      [[0x74, 0x72, 0x75, 0x65, 0x0A]] ++ [0x78] :: [] := by
    decide
  have hwalk := (hwalks ((1, [true]), .error (.malformed 2 (.flaw .malformed)))).2
    (.stopped hsplit (by decide) rfl (.malformed htext rfl rfl))
  -- The line with the tab is put in behind the first newline.
  have hblank := @Lines.isBlankLine_gapAt [[0x09]] (by decide) 1
  have hbare : bare [0x74, 0x72, 0x75, 0x65, 0x0A, 0x09, 0x0D, 0x0A, 0x78] =
      spread (Lines.gapAt 1 [[0x09]]) 0 (bare [0x74, 0x72, 0x75, 0x65, 0x0A, 0x78]) :=
    @Lines.bare_insert [0x74, 0x72, 0x75, 0x65, 0x0A] [0x09, 0x0D, 0x0A] [0x78] (.inr rfl) (.inr rfl)
  have hspaced := hinsert _ _ hblank hbare
  constructor
  · rw [hvisit, hwalk]
    rfl
  · rw [(visitFile_walks Codec.boolean "flag" "r" (readBytes_root _) _ 0).1, hspaced, hwalk]
    rfl

end MachineAtlas.Command
