-- SUMMARY: Lines are split as they were written, and a cut leaves whole lines and the front of one.
import MachineAtlas.Files.Lines
import MachineAtlas.Proofs.Json.Codec
import MachineAtlas.Proofs.Text.Bytes
/-!
# Lines of documents

What is written one document per line is split into the lines that were written. A cut leaves whole
lines and the front of one, and the front of a document is no document.
-/
namespace MachineAtlas

open Json (Codec Value)

namespace Lines

/-! ## Splitting -/

theorem split_cons (b : UInt8) (content : Bytes) :
    split (b :: content) = pushFront b (split content) := rfl

theorem pushFront_of_ne {b : UInt8} (h : b ≠ newline) (lines : List Bytes) :
    pushFront b lines = (b :: lines.head?.getD []) :: lines.tail := by
  unfold pushFront
  rw [if_neg h]
  cases lines <;> rfl

/-- What stands before the first newline, and the newline, are the first line. -/
theorem split_line {line : Bytes} (h : newline ∉ line) (content : Bytes) :
    split (line ++ newline :: content) = (line ++ [newline]) :: split content := by
  induction line with
  | nil => simp [split_cons, pushFront]
  | cons b line ih =>
      rw [List.mem_cons, not_or] at h
      rw [List.cons_append, split_cons, ih h.2, pushFront_of_ne (Ne.symm h.1)]
      rfl

/-- Bytes without newline are a line by themselves, if there are any. -/
theorem split_open {line : Bytes} (h : newline ∉ line) (hne : line ≠ []) : split line = [line] := by
  induction line with
  | nil => exact absurd rfl hne
  | cons b line ih =>
      rw [List.mem_cons, not_or] at h
      rw [split_cons, pushFront_of_ne (Ne.symm h.1)]
      cases line with
      | nil => rfl
      | cons c line => rw [ih h.2 (by simp)]; rfl

/-- Lines in a row are split into the lines that they were, and what follows into its own. -/
theorem split_lines_append {β : Type} {line : β → Bytes} {bs : List β}
    (h : ∀ b ∈ bs, newline ∉ line b) (tail : Bytes) :
    split ((bs.flatMap fun b => line b ++ [newline]) ++ tail) =
      (bs.map fun b => line b ++ [newline]) ++ split tail := by
  induction bs with
  | nil => rfl
  | cons b bs ih =>
      rw [List.forall_mem_cons] at h
      rw [List.flatMap_cons, List.append_assoc, List.append_assoc, List.singleton_append,
        split_line h.1, ih h.2, List.map_cons, List.cons_append]

theorem split_lines {β : Type} {line : β → Bytes} {bs : List β}
    (h : ∀ b ∈ bs, newline ∉ line b) :
    split (bs.flatMap fun b => line b ++ [newline]) = bs.map fun b => line b ++ [newline] := by
  have hsplit := split_lines_append h []
  rw [List.append_nil] at hsplit
  exact hsplit.trans (List.append_nil _)

/-- A newline in a line is the end of it. -/
theorem newline_notMem_dropLast {content line : Bytes} (h : line ∈ split content) :
    newline ∉ line.dropLast := by
  induction content generalizing line with
  | nil => cases h
  | cons b content ih =>
      rw [split_cons] at h
      by_cases hb : b = newline
      · unfold pushFront at h
        rw [if_pos hb, List.mem_cons] at h
        rcases h with rfl | h
        · exact List.not_mem_nil
        · exact ih h
      · rw [pushFront_of_ne hb, List.mem_cons] at h
        rcases h with rfl | h
        · cases hlines : split content with
          | nil => exact List.not_mem_nil
          | cons first rest =>
              have hfirst := ih (hlines ▸ List.mem_cons_self)
              rw [List.head?_cons, Option.getD_some]
              rcases first with _ | ⟨c, first⟩
              · exact List.not_mem_nil
              · rw [List.dropLast_cons_cons, List.mem_cons, not_or]
                exact ⟨Ne.symm hb, hfirst⟩
        · exact ih (List.mem_of_mem_tail h)

/-! ## Ends of lines -/

theorem chomp_newline {line : Bytes} (h : line.getLast? ≠ some carriageReturn) :
    chomp (line ++ [newline]) = line := by
  rw [List.getLast?_eq_head?_reverse] at h
  simp only [chomp, List.reverse_append, List.reverse_cons, List.reverse_nil, List.nil_append,
    List.cons_append]
  split
  · rename_i rest heq
    obtain ⟨-, hrest⟩ := List.cons.inj heq
    exact absurd (by rw [hrest]; rfl) h
  · rename_i rest _ heq
    rw [← (List.cons.inj heq).2, List.reverse_reverse]
  · rename_i hreturn hplain
    exact absurd rfl (hplain _)

theorem chomp_carriageReturn (line : Bytes) :
    chomp (line ++ [carriageReturn] ++ [newline]) = line := by
  simp only [chomp, List.reverse_append, List.reverse_cons, List.reverse_nil, List.nil_append,
    List.cons_append]
  exact List.reverse_reverse line

theorem chomp_open {line : Bytes} (h : newline ∉ line) : chomp line = line := by
  have hlast {rest : Bytes} : line.reverse ≠ newline :: rest := by
    intro heq
    exact h (List.mem_reverse.1 (heq ▸ List.mem_cons_self))
  unfold chomp
  split
  · rename_i heq
    exact absurd heq hlast
  · rename_i heq
    exact absurd heq hlast
  · rfl

/-- The text of a line is that before its newline, or the front of it before a carriage return. -/
theorem exists_chomp_textBytes (s : String) :
    ∃ cs, cs <+: s.toList ∧ chomp (textBytes s ++ [newline]) = textBytes (String.ofList cs) := by
  by_cases h : (textBytes s).getLast? = some carriageReturn
  · obtain ⟨line, hline⟩ := List.getLast?_eq_some_iff.1 h
    obtain ⟨cs, hfront, hcs⟩ := exists_of_textBytes_concat hline (by decide)
    exact ⟨cs, hfront, by rw [hline, chomp_carriageReturn, hcs]⟩
  · exact ⟨s.toList, List.prefix_rfl, by rw [chomp_newline h, String.ofList_toList]⟩

end Lines

/-! ## Lines of a codec -/

/-- A lawful codec of objects: the end of their text shows. -/
structure Json.Codec.SelfDelimiting {α : Type} (codec : Codec α) : Prop extends codec.Lawful where
  writes_object : ∀ a, ∃ members, codec.write a = .object members

namespace Lines

variable {α σ ε : Type} {codec : Codec α}

/-- The text of a value, and a newline. -/
def lineBytes (codec : Codec α) (a : α) : Bytes := textBytes (codec.line a) ++ [newline]

/-- The text of a value has no controls, and so none of their bytes. -/
theorem le_of_mem_textBytes_line (codec : Codec α) (a : α) {b : UInt8}
    (h : b ∈ textBytes (codec.line a)) : 0x20 ≤ b := by
  rw [UInt8.le_iff_toNat_le]
  by_cases hlt : b.toNat < 128
  · obtain ⟨c, hc, hcode⟩ := exists_mem_of_mem_textBytes h hlt
    rw [Codec.line, Value.line, String.toList_ofList] at hc
    exact hcode ▸ Value.toNat_of_mem_compact _ hc
  · exact Nat.le_trans (by decide) (Nat.not_lt.1 hlt)

theorem newline_notMem_textBytes (codec : Codec α) (a : α) :
    newline ∉ textBytes (codec.line a) := fun hmem =>
  absurd (le_of_mem_textBytes_line codec a hmem) (by decide)

theorem exists_line_cons (h : codec.SelfDelimiting) (a : α) :
    ∃ cs, (codec.line a).toList = '{' :: cs := by
  obtain ⟨members, hwrite⟩ := h.writes_object a
  exact ⟨_, by rw [Codec.line, hwrite, Value.line, String.toList_ofList, Value.compact]; rfl⟩

theorem getLast?_textBytes_line (h : codec.SelfDelimiting) (a : α) :
    (textBytes (codec.line a)).getLast? ≠ some carriageReturn := by
  obtain ⟨members, hwrite⟩ := h.writes_object a
  rw [Codec.line, hwrite, Value.line, Value.compact, textBytes_ofList, List.flatMap_append,
    List.getLast?_append]
  have hbrace : ['}'].flatMap String.utf8EncodeChar = [0x7D] := by decide
  rw [hbrace, List.getLast?_singleton, Option.some_or]
  decide

theorem textBytes_line_ne_nil (h : codec.SelfDelimiting) (a : α) :
    textBytes (codec.line a) ≠ [] := by
  obtain ⟨cs, hcs⟩ := exists_line_cons h a
  intro hnil
  rw [textBytes_eq_nil hnil] at hcs
  cases hcs

/-- Written lines are split into the lines that were written. -/
@[simp] theorem split_flatMap (codec : Codec α) (as : List α) :
    split (as.flatMap (lineBytes codec)) = as.map (lineBytes codec) :=
  split_lines fun a _ => newline_notMem_textBytes codec a

@[simp] theorem split_flatMap_append (codec : Codec α) (as : List α) (tail : Bytes) :
    split (as.flatMap (lineBytes codec) ++ tail) = as.map (lineBytes codec) ++ split tail :=
  split_lines_append (fun a _ => newline_notMem_textBytes codec a) tail

/-- A written line has the text of its value, and is parsed as that. -/
theorem parse_lineBytes (h : codec.SelfDelimiting) (a : α) :
    (bytesText? (chomp (lineBytes codec a))).map codec.parse = some (.ok a) := by
  rw [lineBytes, chomp_newline (getLast?_textBytes_line h a), bytesText?_textBytes, Option.map_some,
    Codec.parse_line h.toLawful]

theorem isBlank_of_cons {s : String} {cs : List Char} (h : s.toList = '{' :: cs) :
    Text.isBlank s = false := by
  rw [Text.isBlank, h]
  rfl

/-- Bytes at the front of the text of a value, if they are a text, are no document. -/
theorem parse_of_front (h : codec.SelfDelimiting) {a : α} {front rest : Bytes} {text : String}
    (hfront : front ++ rest = textBytes (codec.line a)) (hrest : rest ≠ [])
    (htext : bytesText? front = some text) (b : α) : codec.parse text ≠ .ok b := by
  obtain ⟨members, hwrite⟩ := h.writes_object a
  rw [← textBytes_of_bytesText? htext] at hfront
  obtain ⟨more, hmore⟩ := isPrefix_of_textBytes hfront
  rw [← String.ofList_toList (s := text)]
  refine Codec.parse_front h.toLawful hwrite hmore ?_ b
  rintro rfl
  rw [List.append_nil, String.toList_inj] at hmore
  rw [hmore] at hfront
  exact hrest (List.append_right_eq_self.1 hfront)

/-- A cut through written lines leaves some of them, and the front of the next one. -/
theorem exists_take_flatMap (codec : Codec α) (as : List α) (n : Nat) :
    ∃ k front, k ≤ as.length ∧
      (as.flatMap (lineBytes codec)).take n = (as.take k).flatMap (lineBytes codec) ++ front ∧
      (front = [] ∨ ∃ a rest, as[k]? = some a ∧ front ++ rest = lineBytes codec a ∧ rest ≠ []) := by
  induction as generalizing n with
  | nil => exact ⟨0, [], Nat.zero_le _, by simp, .inl rfl⟩
  | cons a as ih =>
      by_cases hlt : n < (lineBytes codec a).length
      · refine ⟨0, (lineBytes codec a).take n, Nat.zero_le _, ?_,
          .inr ⟨a, (lineBytes codec a).drop n, rfl, ?_, ?_⟩⟩
        · rw [List.flatMap_cons, List.take_append_of_le_length (Nat.le_of_lt hlt)]
          rfl
        · exact List.take_append_drop n _
        · rw [ne_eq, List.drop_eq_nil_iff]
          omega
      · obtain ⟨k, front, hle, htake, hfront⟩ := ih (n - (lineBytes codec a).length)
        refine ⟨k + 1, front, Nat.succ_le_succ hle, ?_, hfront⟩
        rw [List.flatMap_cons, List.take_append, List.take_of_length_le (Nat.not_lt.1 hlt), htake,
          List.take_succ_cons, List.flatMap_cons, List.append_assoc]

/-! ## Files of documents -/

/-- A file with the text of each value on a line, and between these any lines of white space. The
last line may do without its newline. -/
inductive Lists (codec : Codec α) : List α → Bytes → Prop where
  | nil : Lists codec [] []
  | openBlank (w : String) (hblank : Text.isBlank w = true) (hline : '\n' ∉ w.toList) :
      Lists codec [] (textBytes w)
  | openValue (a : α) : Lists codec [a] (textBytes (codec.line a))
  | blank (w : String) (hblank : Text.isBlank w = true) (hline : '\n' ∉ w.toList) {as : List α}
      {content : Bytes} (rest : Lists codec as content) :
      Lists codec as (textBytes w ++ newline :: content)
  | value (a : α) {as : List α} {content : Bytes} (rest : Lists codec as content) :
      Lists codec (a :: as) (textBytes (codec.line a) ++ newline :: content)

/-- Written lines may stand before any file of values. -/
theorem Lists.append (as : List α) {bs : List α} {tail : Bytes} (h : Lists codec bs tail) :
    Lists codec (as ++ bs) (as.flatMap (lineBytes codec) ++ tail) := by
  induction as with
  | nil => exact h
  | cons a as ih =>
      rw [List.flatMap_cons, lineBytes, List.append_assoc, List.append_assoc]
      exact .value a ih

theorem lists_flatMap (codec : Codec α) (as : List α) :
    Lists codec as (as.flatMap (lineBytes codec)) := by
  have h : Lists codec (as ++ []) (as.flatMap (lineBytes codec) ++ []) := Lists.append as .nil
  rwa [List.append_nil, List.append_nil] at h

theorem lists_lineBytes (codec : Codec α) (a : α) : Lists codec [a] (lineBytes codec a) :=
  .value a .nil

/-- The newline of the last line is not needed. -/
theorem lists_of_newline {as : List α} {content : Bytes}
    (h : content ++ [newline] = as.flatMap (lineBytes codec)) : Lists codec as content := by
  rcases List.eq_nil_or_concat as with rfl | ⟨as, a, rfl⟩
  · simp at h
  · rw [List.concat_eq_append, List.flatMap_append, List.flatMap_singleton, lineBytes,
      ← List.append_assoc] at h
    rw [List.append_cancel_right h, List.concat_eq_append]
    exact Lists.append as (.openValue a)

theorem newline_mem_textBytes {w : String} : newline ∈ textBytes w ↔ '\n' ∈ w.toList := by
  constructor
  · intro hmem
    obtain ⟨c, hc, hcode⟩ := exists_mem_of_mem_textBytes hmem (by decide)
    obtain rfl : c = '\n' := Char.toNat_inj.1 hcode
    exact hc
  · intro hmem
    rw [textBytes_eq_flatMap]
    exact List.mem_flatMap.2 ⟨_, hmem, by decide⟩

theorem newline_notMem_of_line {w : String} (h : '\n' ∉ w.toList) : newline ∉ textBytes w :=
  mt newline_mem_textBytes.1 h

theorem isBlank_of_front {w : String} {cs : List Char} (h : Text.isBlank w = true)
    (hfront : cs <+: w.toList) : Text.isBlank (String.ofList cs) = true := by
  rw [Text.isBlank, List.all_eq_true] at h ⊢
  rw [String.toList_ofList]
  exact fun c hc => h c (hfront.subset hc)

end Lines

end MachineAtlas
