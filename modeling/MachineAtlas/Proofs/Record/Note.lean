-- SUMMARY: The message of a note tells all of the note, and its line tells the function.
import Mathlib
import MachineAtlas.Proofs.Files.Lines
import MachineAtlas.Proofs.Files.Stream
import MachineAtlas.Proofs.Json.Number
import MachineAtlas.Record.Note
/-!
# Lines of notes

The message of a note tells all of the note, and has no newline and no closing bracket. So a reader
finds the name of the function before the last bracket of the line, whatever that name is, but the
line is one line only if there is no newline in the name.
-/
namespace MachineAtlas

open Lines (newline split)

/-! ## Numbers -/

theorem isDigit_of_mem_toString {n : Nat} {c : Char} (h : c ∈ (toString n).toList) :
    Json.Number.isDigit c = true := by
  rw [Nat.toString_eq_ofList_toDigits, String.toList_ofList] at h
  exact Json.Number.isDigit_of_mem_toDigits h

/-- The character is one that the text of a number is made of. -/
def isNumeral (c : Char) : Bool := Json.Number.isDigit c || c == '-'

theorem isNumeral_of_mem_toString {n : Nat} {c : Char} (h : c ∈ (toString n).toList) :
    isNumeral c = true := by
  rw [isNumeral, isDigit_of_mem_toString h, Bool.true_or]

theorem isNumeral_of_mem_numberText {n : Int32} {c : Char} (h : c ∈ (numberText n).toList) :
    isNumeral c = true := by
  unfold numberText at h
  cases hn : n.toInt with
  | ofNat m =>
      rw [hn] at h
      exact isNumeral_of_mem_toString h
  | negSucc m =>
      have htext : toString (Int.negSucc m) = "-" ++ toString (m + 1) := rfl
      rw [hn, htext, String.toList_append, List.mem_append] at h
      rcases h with hsign | hdigit
      · obtain rfl : c = '-' := by simpa using hsign
        rfl
      · exact isNumeral_of_mem_toString hdigit

theorem numberText_inj {m n : Int32} (h : numberText m = numberText n) : m = n :=
  Int32.toInt_inj.1 (Int.repr_inj.1 h)

/-- The text is not the middle of a number. -/
def EndsNumeral (s : String) : Prop := s.toList.head?.any isNumeral = false

theorem EndsNumeral.append {s : String} (hs : EndsNumeral s) (hne : s ≠ "") (t : String) :
    EndsNumeral (s ++ t) := by
  obtain ⟨c, rest, hlist⟩ := List.exists_cons_of_ne_nil (mt String.toList_eq_nil_iff.1 hne)
  rw [EndsNumeral, hlist] at hs
  rw [EndsNumeral, String.toList_append, hlist]
  exact hs

/-- A number is told from the text after it. -/
theorem append_inj_of_numeral {m n r s : String} (hm : ∀ c ∈ m.toList, isNumeral c = true)
    (hn : ∀ c ∈ n.toList, isNumeral c = true) (hr : EndsNumeral r) (hs : EndsNumeral s)
    (h : m ++ r = n ++ s) : m = n ∧ r = s := by
  have hspan (a : String) (b : String) (ha : ∀ c ∈ a.toList, isNumeral c = true)
      (hb : EndsNumeral b) : (a ++ b).toList.takeWhile isNumeral = a.toList := by
    have hnone : b.toList.takeWhile isNumeral = [] := by
      unfold EndsNumeral at hb
      cases hlist : b.toList with
      | nil => rfl
      | cons c rest =>
          rw [hlist] at hb
          exact List.takeWhile_cons_of_neg (by simpa using hb)
    rw [String.toList_append, List.takeWhile_append_of_pos ha, hnone, List.append_nil]
  have hfirst : m = n := by
    rw [← String.toList_inj, ← hspan m r hm hr, ← hspan n s hn hs, h]
  subst hfirst
  exact ⟨rfl, (String.append_right_inj m).1 h⟩

/-- Texts that differ in two numbers only differ in the one or the other. -/
theorem two_numerals_inj {p q s m n m' n' : String} (hm : ∀ c ∈ m.toList, isNumeral c = true)
    (hm' : ∀ c ∈ m'.toList, isNumeral c = true) (hn : ∀ c ∈ n.toList, isNumeral c = true)
    (hn' : ∀ c ∈ n'.toList, isNumeral c = true) (hq : EndsNumeral q) (hne : q ≠ "")
    (hs : EndsNumeral s) (h : p ++ m ++ q ++ n ++ s = p ++ m' ++ q ++ n' ++ s) :
    m = m' ∧ n = n' := by
  simp only [String.append_assoc] at h
  have hfirst := append_inj_of_numeral hm hm' (hq.append hne _) (hq.append hne _)
    ((String.append_right_inj p).1 h)
  have hsecond := append_inj_of_numeral hn hn' hs hs ((String.append_right_inj q).1 hfirst.2)
  exact ⟨hfirst.1, hsecond.1⟩

/-! ## Messages -/

/-- The text has no mark that could end its line or the name before it. -/
def Unmarked (s : String) : Prop := '\n' ∉ s.toList ∧ ']' ∉ s.toList

namespace Unmarked

theorem append {s t : String} (hs : Unmarked s) (ht : Unmarked t) : Unmarked (s ++ t) := by
  simp only [Unmarked, String.toList_append, List.mem_append, not_or]
  exact ⟨⟨hs.1, ht.1⟩, hs.2, ht.2⟩

theorem of_toDigits (n : Nat) : Unmarked (toString n) :=
  ⟨fun h => absurd (isDigit_of_mem_toString h) (by decide),
    fun h => absurd (isDigit_of_mem_toString h) (by decide)⟩

theorem numberText (n : Int32) : Unmarked (numberText n) :=
  ⟨fun h => absurd (isNumeral_of_mem_numberText h) (by decide),
    fun h => absurd (isNumeral_of_mem_numberText h) (by decide)⟩

theorem side (s : Side) : Unmarked s.name := by
  cases s <;> (unfold Unmarked Side.name; decide)

theorem message (n : Note) : Unmarked n.message := by
  have hliteral : ∀ s ∈ ["no target description for this function; omitting instruction text",
      "no IR block for machine block ", "; emitting partial record", "null ", " at position ",
      " of machine block ", "; skipping", " ", " is not in this function; skipping",
      "no IR function operand; deriving it from the linkage name",
      "no owning module; omitting module summary"], Unmarked s := by
    unfold Unmarked
    decide
  simp only [List.forall_mem_cons] at hliteral
  obtain ⟨htarget, hir, hpartial, hnull, hat, hof, hskip, hspace, hmissing, hoperand, howner, -⟩ :=
    hliteral
  cases n with
  | missingTarget => exact htarget
  | missingIrBlock block => exact (hir.append (numberText block)).append hpartial
  | nullEdge s position block =>
      exact (((((hnull.append (side s)).append hat).append (of_toDigits position)).append
        hof).append (numberText block)).append hskip
  | danglingEdge s target block =>
      exact (((((side s).append hspace).append (numberText target)).append hof).append
        (numberText block)).append hmissing
  | missingOperand => exact hoperand
  | missingModule => exact howner

end Unmarked

namespace Note

/-- The note without its numbers. -/
def kind : Note → Note
  | .missingTarget => .missingTarget
  | .missingIrBlock _ => .missingIrBlock 0
  | .nullEdge side _ _ => .nullEdge side 0 0
  | .danglingEdge side _ _ => .danglingEdge side 0 0
  | .missingOperand => .missingOperand
  | .missingModule => .missingModule

/-- The text of a message before its first number. -/
def lead : Note → String
  | .missingIrBlock _ => "no IR block for machine block "
  | .nullEdge side _ _ => "null " ++ side.name ++ " at position "
  | .danglingEdge side _ _ => side.name ++ " "
  | note => note.message

theorem message_eq_lead_append (n : Note) : ∃ rest, n.message = n.lead ++ rest := by
  cases n with
  | missingIrBlock block => exact ⟨_, String.append_assoc ..⟩
  | nullEdge side position block =>
      refine ⟨toString position ++ (" of machine block " ++ (numberText block ++ "; skipping")), ?_⟩
      rw [← String.append_assoc, ← String.append_assoc, ← String.append_assoc]
      rfl
  | danglingEdge side target block =>
      refine ⟨numberText target ++ (" of machine block " ++
        (numberText block ++ " is not in this function; skipping")), ?_⟩
      rw [← String.append_assoc, ← String.append_assoc, ← String.append_assoc]
      rfl
  | missingTarget => exact ⟨"", String.append_empty.symm⟩
  | missingOperand => exact ⟨"", String.append_empty.symm⟩
  | missingModule => exact ⟨"", String.append_empty.symm⟩

@[simp] theorem lead_kind (n : Note) : n.kind.lead = n.lead := by
  cases n <;> rfl

def kinds : List Note :=
  [missingTarget, missingIrBlock 0, nullEdge .predecessor 0 0, nullEdge .successor 0 0,
    danglingEdge .predecessor 0 0, danglingEdge .successor 0 0, missingOperand, missingModule]

theorem kind_mem (n : Note) : n.kind ∈ kinds := by
  cases n with
  | nullEdge side position block => cases side <;> simp [kind, kinds]
  | danglingEdge side target block => cases side <;> simp [kind, kinds]
  | _ => simp [kind, kinds]

/-- Seven letters tell the kind of a message. -/
theorem kind_eq_of_message {m n : Note} (h : m.message = n.message) : m.kind = n.kind := by
  have hkinds : ∀ k ∈ kinds, 7 ≤ k.lead.toList.length ∧
      ∀ l ∈ kinds, k.lead.toList.take 7 = l.lead.toList.take 7 → k = l := by
    decide
  have htake (n : Note) : n.message.toList.take 7 = n.kind.lead.toList.take 7 := by
    obtain ⟨rest, hrest⟩ := n.message_eq_lead_append
    rw [hrest, ← lead_kind, String.toList_append,
      List.take_append_of_le_length (hkinds _ n.kind_mem).1]
  exact (hkinds _ m.kind_mem).2 _ n.kind_mem (by rw [← htake, ← htake, h])

/-- A message tells all of its note: what is missing, and the numbers of the block and the edge. -/
theorem message_injective : Function.Injective message := by
  intro m n h
  have hof : EndsNumeral " of machine block " := by unfold EndsNumeral; decide
  have hkind := kind_eq_of_message h
  cases m with
  | missingTarget => cases n <;> cases hkind; rfl
  | missingOperand => cases n <;> cases hkind; rfl
  | missingModule => cases n <;> cases hkind; rfl
  | missingIrBlock block =>
      cases n with
      | missingIrBlock block' =>
          have hend : EndsNumeral "; emitting partial record" := by unfold EndsNumeral; decide
          have h : "no IR block for machine block " ++ numberText block ++ _ =
            "no IR block for machine block " ++ numberText block' ++ _ := h
          rw [String.append_assoc, String.append_assoc, String.append_right_inj] at h
          rw [numberText_inj (append_inj_of_numeral (fun _ => isNumeral_of_mem_numberText)
            (fun _ => isNumeral_of_mem_numberText) hend hend h).1]
      | _ => cases hkind
  | nullEdge side position block =>
      cases n with
      | nullEdge _ position' block' =>
          cases hkind
          have hend : EndsNumeral "; skipping" := by unfold EndsNumeral; decide
          obtain ⟨hposition, hblock⟩ := two_numerals_inj
            (p := "null " ++ side.name ++ " at position ")
            (fun _ => isNumeral_of_mem_toString) (fun _ => isNumeral_of_mem_toString)
            (fun _ => isNumeral_of_mem_numberText) (fun _ => isNumeral_of_mem_numberText)
            hof (by decide) hend h
          rw [Nat.repr_inj.1 hposition, numberText_inj hblock]
      | _ => cases hkind
  | danglingEdge side target block =>
      cases n with
      | danglingEdge _ target' block' =>
          cases hkind
          have hend : EndsNumeral " is not in this function; skipping" := by
            unfold EndsNumeral
            decide
          obtain ⟨htarget, hblock⟩ := two_numerals_inj (p := side.name ++ " ")
            (fun _ => isNumeral_of_mem_numberText) (fun _ => isNumeral_of_mem_numberText)
            (fun _ => isNumeral_of_mem_numberText) (fun _ => isNumeral_of_mem_numberText)
            hof (by decide) hend h
          rw [numberText_inj htarget, numberText_inj hblock]
      | _ => cases hkind

end Note

/-! ## Lines -/

/-- A note and the name of its function. -/
structure NamedNote where
  function : String
  note : Note
  deriving DecidableEq, Repr

namespace NamedNote

def text (n : NamedNote) : String := "[" ++ n.function ++ "] " ++ n.note.message

def line (n : NamedNote) : Bytes := textBytes n.text ++ [newline]

/-- Takes the text of a line for a note: the name stands in brackets, and the message behind the
last of them. -/
def ofText? (text : String) : Option (String × String) :=
  match text.toList with
  | '[' :: rest =>
    match rest.reverse.dropWhile (· != ']') with
    | _ :: name =>
      some (String.ofList name.reverse,
        String.ofList ((rest.reverse.takeWhile (· != ']')).reverse.drop 1))
    | [] => none
  | _ => none

/-- The name of the function and the message that a reader finds in a line. -/
def read? (line : Bytes) : Option (String × String) :=
  (bytesText? line.dropLast).bind ofText?

theorem ofText?_text (n : NamedNote) : ofText? n.text = some (n.function, n.note.message) := by
  have hopen : n.text.toList =
      '[' :: (n.function.toList ++ ']' :: ' ' :: n.note.message.toList) := by
    simp [text, String.toList_append]
  have hmessage : ∀ c ∈ (' ' :: n.note.message.toList).reverse, (c != ']') = true := by
    intro c hc
    rw [List.mem_reverse, List.mem_cons] at hc
    rw [bne_iff_ne]
    rintro rfl
    rcases hc with hc | hc
    · cases hc
    · exact (Unmarked.message n.note).2 hc
  -- Read from the back, the message runs up to the bracket that closes the name, which may itself
  -- have brackets.
  have hback : (n.function.toList ++ ']' :: ' ' :: n.note.message.toList).reverse =
      (' ' :: n.note.message.toList).reverse ++ ']' :: n.function.toList.reverse := by
    simp
  rw [ofText?, hopen]
  simp only [hback, List.dropWhile_append_of_pos hmessage, List.takeWhile_append_of_pos hmessage]
  simp

@[simp] theorem read?_line (n : NamedNote) : read? n.line = some (n.function, n.note.message) := by
  rw [read?, line, List.dropLast_concat, bytesText?_textBytes, Option.bind_some, ofText?_text]

theorem newline_mem_line {n : NamedNote} :
    newline ∈ n.line.dropLast ↔ '\n' ∈ n.function.toList := by
  have hmessage := (Unmarked.message n.note).1
  rw [line, List.dropLast_concat, Lines.newline_mem_textBytes]
  simp [text, String.toList_append, hmessage]

/-- The line of a note breaks where the name of its function does. -/
theorem split_line_of_newline {front back : String} (hfront : '\n' ∉ front.toList)
    (hback : '\n' ∉ back.toList) (note : Note) :
    split (line ⟨front ++ "\n" ++ back, note⟩) =
      [textBytes ("[" ++ front) ++ [newline],
        textBytes (back ++ "] " ++ note.message) ++ [newline]] := by
  have hfirst : newline ∉ textBytes ("[" ++ front) := by
    rw [Lines.newline_mem_textBytes]
    simp [String.toList_append, hfront]
  have hsecond : newline ∉ textBytes (back ++ "] " ++ note.message) := by
    rw [Lines.newline_mem_textBytes]
    simp [String.toList_append, hback, (Unmarked.message note).1]
  have hline : line ⟨front ++ "\n" ++ back, note⟩ = textBytes ("[" ++ front) ++
      newline :: (textBytes (back ++ "] " ++ note.message) ++ [newline]) := by
    simp [line, text, newline]
  rw [hline, Lines.split_line hfirst, Lines.split_line hsecond]
  rfl

end NamedNote

/-! ## Headers -/

namespace NoteStream

def headerText (stamp : String) : String := "# frameprobe diagnostics (started " ++ stamp ++ ")"

theorem header_eq (stamp : String) :
    (header stamp).flatten = textBytes (headerText stamp) ++ [newline] := by
  have hclosing : textBytes ")\n" = textBytes ")" ++ [newline] := by
    rw [textBytes_eq_flatMap, textBytes_eq_flatMap]
    decide
  unfold header headerText
  generalize "# frameprobe diagnostics (started " = opening
  simp [hclosing]

/-- The header begins with a mark that no note begins with, and has no line end of its own. -/
theorem toList_headerText (stamp : String) :
    ∃ opening, (headerText stamp).toList = '#' :: (opening ++ stamp.toList ++ [')']) ∧
      '\n' ∉ opening := by
  obtain ⟨opening, hopening, hline⟩ : ∃ opening,
      "# frameprobe diagnostics (started ".toList = '#' :: opening ∧ '\n' ∉ opening :=
    ⟨" frameprobe diagnostics (started ".toList, by decide, by decide⟩
  refine ⟨opening, ?_, hline⟩
  unfold headerText
  generalize "# frameprobe diagnostics (started " = first at hopening
  simp [String.toList_append, hopening]

/-- The header is not taken for a note. -/
@[simp] theorem read?_header (stamp : String) : NamedNote.read? (header stamp).flatten = none := by
  obtain ⟨opening, hopening, -⟩ := toList_headerText stamp
  rw [NamedNote.read?, header_eq, List.dropLast_concat, bytesText?_textBytes, Option.bind_some,
    NamedNote.ofText?, hopening]
  rfl

theorem newline_notMem_headerText {stamp : String} (h : '\n' ∉ stamp.toList) :
    newline ∉ textBytes (headerText stamp) := by
  obtain ⟨opening, hopening, hline⟩ := toList_headerText stamp
  rw [Lines.newline_mem_textBytes, hopening]
  simp [hline, h]

/-- The notes on a function are written as the lines that they have with its name. -/
theorem noteBytes_eq (function : String) (notes : List Note) :
    noteBytes function (notes.map Note.message) =
      (notes.map (NamedNote.mk function)).flatMap NamedNote.line := by
  induction notes with
  | nil => rfl
  | cons note notes ih =>
      have hfirst : (noteLine function note.message).flatten = NamedNote.line ⟨function, note⟩ := by
        rw [NamedNote.line, newline, ← textBytes_newline]
        simp [noteLine, NamedNote.text]
      rw [List.map_cons, List.map_cons, List.flatMap_cons, ← hfirst, ← ih]
      simp only [noteBytes, List.flatMap_cons, List.flatten_append]

end NoteStream

/-! ## Files of notes -/

/-- A file of notes is split into its header and the lines of the notes exactly if no function with
a note has a newline in its name. -/
theorem split_notes_iff {stamp : String} (hstamp : '\n' ∉ stamp.toList) (noted : List NamedNote) :
    split ((NoteStream.header stamp).flatten ++ noted.flatMap NamedNote.line) =
        (NoteStream.header stamp).flatten :: noted.map NamedNote.line ↔
      ∀ n ∈ noted, '\n' ∉ n.function.toList := by
  have hheader := NoteStream.newline_notMem_headerText hstamp
  rw [NoteStream.header_eq, List.append_assoc, List.singleton_append, Lines.split_line hheader,
    List.cons_inj_right]
  constructor
  -- A line of a split file has its newline at the end only, so no name can hold one.
  · intro hsplit n hn hname
    have hline : n.line ∈ split (noted.flatMap NamedNote.line) :=
      hsplit ▸ List.mem_map_of_mem hn
    exact Lines.newline_notMem_dropLast hline (NamedNote.newline_mem_line.2 hname)
  · intro hnames
    refine Lines.split_lines fun n hn hmem => hnames n hn (NamedNote.newline_mem_line.1 ?_)
    rwa [NamedNote.line, List.dropLast_concat]

end MachineAtlas
