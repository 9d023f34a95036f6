-- SUMMARY: What lines say by themselves, and walks over lines as walks over their values.
import MachineAtlas.Proofs.Files.Lines
/-!
# Readings of lines

What a line of a file says by itself: nothing, a value, or why it cannot be read. Lines that have
been written say their values, and a line that is cut short cannot be read. A walk over lines is a
walk over their values up to the first line that cannot be read, and goes no further, whatever comes
after that.
-/
namespace MachineAtlas.Lines

open Json (Codec)

variable {α σ ε : Type} {codec : Codec α}

/-! ## Texts of lines -/

/-- The text of a line without its end, if it is one. -/
def text? (line : Bytes) : Option String := bytesText? (chomp line)

/-- The line is nothing but white space. -/
def isBlankLine (line : Bytes) : Bool := (text? line).any Text.isBlank

theorem exists_ending (line : Bytes) :
    ∃ ending, line = chomp line ++ ending ∧
      (ending = [] ∨ ending = [newline] ∨ ending = [carriageReturn, newline]) := by
  -- The cases are those of the end, which is looked for from behind.
  unfold chomp
  split
  · rename_i rest heq
    refine ⟨[carriageReturn, newline], ?_, .inr (.inr rfl)⟩
    rw [← List.reverse_reverse line, heq]
    simp [newline, carriageReturn]
  · rename_i rest _ heq
    refine ⟨[newline], ?_, .inr (.inl rfl)⟩
    rw [← List.reverse_reverse line, heq]
    simp [newline]
  · exact ⟨[], (List.append_nil line).symm, .inl rfl⟩

/-- A line is a text exactly if it is one without its end. -/
theorem isSome_text? (line : Bytes) : (text? line).isSome = (bytesText? line).isSome := by
  obtain ⟨ending, hline, hending⟩ := exists_ending line
  have hnewline (bs : Bytes) : (bytesText? (bs ++ [newline])).isSome = (bytesText? bs).isSome :=
    isSome_bytesText?_concat textBytes_newline (by decide) bs
  have hreturn (bs : Bytes) :
      (bytesText? (bs ++ [carriageReturn])).isSome = (bytesText? bs).isSome :=
    isSome_bytesText?_concat textBytes_carriageReturn (by decide) bs
  have hsame : (bytesText? (chomp line ++ ending)).isSome = (bytesText? (chomp line)).isSome := by
    rcases hending with rfl | rfl | rfl
    · rw [List.append_nil]
    · rw [hnewline]
    · rw [← List.singleton_append, ← List.append_assoc, hnewline, hreturn]
  rw [← hline] at hsame
  exact hsame.symm

/-! ## Readings -/

/-- What a line says. -/
inductive Reading (α : Type) where
  | blank
  | value (a : α)
  | malformed (fault : Json.Fault)
  | notText

namespace Reading

/-- The walk goes on after the line. -/
def isReadable : Reading α → Bool
  | .blank => true
  | .value _ => true
  | .malformed _ => false
  | .notText => false

def isBlank : Reading α → Bool
  | .blank => true
  | _ => false

def value? : Reading α → Option α
  | .value a => some a
  | _ => none

/-- Why a walk ends in a line, of which `number` lines come before it. -/
def fault? (number : Nat) : Reading α → Option (Fault ε)
  | .malformed fault => some (.malformed (number + 1) fault)
  | .notText => some (.unreadable .notText)
  | _ => none

theorem exists_fault {r : Reading α} (h : r.isReadable = false) (number : Nat) :
    ∃ fault : Fault ε, r.fault? number = some fault := by
  cases r with
  | blank => cases h
  | value a => cases h
  | malformed fault => exact ⟨_, rfl⟩
  | notText => exact ⟨_, rfl⟩

end Reading

/-- Reads a line by itself. -/
def reading (codec : Codec α) (line : Bytes) : Reading α :=
  match text? line with
  | none => .notText
  | some text =>
    if Text.isBlank text then .blank
    else match codec.parse text with
      | .error fault => .malformed fault
      | .ok a => .value a

/-- A line is blank for all codecs alike. -/
theorem isBlankLine_eq (codec : Codec α) (line : Bytes) :
    isBlankLine line = (reading codec line).isBlank := by
  unfold isBlankLine reading
  cases text? line with
  | none => rfl
  | some text =>
      by_cases hblank : Text.isBlank text = true
      · simp [hblank, Reading.isBlank]
      · cases hparse : codec.parse text with
        | error fault => simp [hblank, hparse, Reading.isBlank]
        | ok a => simp [hblank, hparse, Reading.isBlank]

/-- The values of lines, in order. -/
def values (codec : Codec α) (lines : List Bytes) : List α :=
  lines.filterMap fun line => (reading codec line).value?

@[simp] theorem values_cons (line : Bytes) (rest : List Bytes) :
    values codec (line :: rest) = (reading codec line).value?.toList ++ values codec rest := by
  rw [values, List.filterMap_cons]
  cases (reading codec line).value? with
  | none => rfl
  | some a => rfl

/-! ## Readings of documents -/

theorem reading_blank {line : Bytes} {text : String} (htext : text? line = some text)
    (hblank : Text.isBlank text = true) : reading codec line = .blank := by
  simp only [reading, htext, if_pos hblank]

/-- A line with the text of a value says the value. -/
theorem reading_text (h : codec.SelfDelimiting) {line : Bytes} {a : α}
    (hline : chomp line = textBytes (codec.line a)) : reading codec line = .value a := by
  obtain ⟨cs, hcs⟩ := exists_line_cons h a
  simp only [reading, text?, hline, bytesText?_textBytes, isBlank_of_cons hcs,
    Codec.parse_line h.toLawful]
  rfl

@[simp] theorem reading_lineBytes (h : codec.SelfDelimiting) (a : α) :
    reading codec (lineBytes codec a) = .value a :=
  reading_text h (chomp_newline (getLast?_textBytes_line h a))

theorem values_lineBytes (h : codec.SelfDelimiting) (as : List α) :
    (∀ line ∈ as.map (lineBytes codec), (reading codec line).isReadable = true) ∧
      values codec (as.map (lineBytes codec)) = as := by
  induction as with
  | nil => exact ⟨List.forall_mem_nil _, rfl⟩
  | cons a as ih =>
      rw [List.map_cons, List.forall_mem_cons, values_cons, reading_lineBytes h, ih.2]
      exact ⟨⟨rfl, ih.1⟩, rfl⟩

/-- A line that ends inside the text of a value cannot be read. -/
theorem isReadable_front (h : codec.SelfDelimiting) {a : α} {front rest : Bytes}
    (hfront : front ++ rest = textBytes (codec.line a)) (hne : front ≠ []) (hrest : rest ≠ []) :
    split front = [front] ∧ (reading codec front).isReadable = false := by
  have hopen : newline ∉ front := by
    intro hmem
    apply newline_notMem_textBytes codec a
    rw [← hfront]
    exact List.mem_append_left _ hmem
  refine ⟨split_open hopen hne, ?_⟩
  cases htext : text? front with
  | none =>
      simp only [reading, htext]
      rfl
  | some text =>
      rw [text?, chomp_open hopen] at htext
      -- A line of white space would be passed over, but the front starts with a brace.
      have hblank : Text.isBlank text = false := by
        rw [← textBytes_of_bytesText? htext] at hfront hne
        obtain ⟨more, hmore⟩ := isPrefix_of_textBytes hfront
        obtain ⟨cs, hcs⟩ := exists_line_cons h a
        cases hchars : text.toList with
        | nil =>
            rw [String.toList_eq_nil_iff] at hchars
            exact absurd (by rw [hchars, textBytes_empty]) hne
        | cons c rest =>
            rw [hchars, hcs] at hmore
            obtain rfl : c = '{' := (List.cons.inj hmore).1
            exact isBlank_of_cons hchars
      simp only [reading, text?, chomp_open hopen, htext, hblank]
      cases hparse : codec.parse text with
      | ok b => exact absurd hparse (parse_of_front h hfront hrest htext b)
      | error fault => rfl

/-- A file of values has nothing but blank lines besides theirs. -/
theorem Lists.values_eq (h : codec.SelfDelimiting) {as : List α} {content : Bytes}
    (hlists : Lists codec as content) :
    (∀ line ∈ split content, (reading codec line).isReadable = true) ∧
      values codec (split content) = as := by
  induction hlists with
  | nil => exact ⟨List.forall_mem_nil _, rfl⟩
  | openBlank w hblank hline =>
      have hopen := newline_notMem_of_line hline
      by_cases hne : textBytes w = []
      · rw [hne]
        exact ⟨List.forall_mem_nil _, rfl⟩
      · have htext : text? (textBytes w) = some w := by
          rw [text?, chomp_open hopen, bytesText?_textBytes]
        rw [split_open hopen hne, List.forall_mem_singleton, values_cons,
          reading_blank htext hblank]
        exact ⟨rfl, rfl⟩
  | openValue a =>
      have hopen := newline_notMem_textBytes codec a
      rw [split_open hopen (textBytes_line_ne_nil h a), List.forall_mem_singleton, values_cons,
        reading_text h (chomp_open hopen)]
      exact ⟨rfl, rfl⟩
  | blank w hblank hline rest ih =>
      -- The white space may end in a carriage return, which counts to the end of the line.
      obtain ⟨cs, hfront, hchomp⟩ := exists_chomp_textBytes w
      have htext : text? (textBytes w ++ [newline]) = some (String.ofList cs) := by
        rw [text?, hchomp, bytesText?_textBytes]
      rw [split_line (newline_notMem_of_line hline), List.forall_mem_cons, values_cons,
        reading_blank htext (isBlank_of_front hblank hfront), ih.2]
      exact ⟨⟨rfl, ih.1⟩, rfl⟩
  | value a rest ih =>
      rw [split_line (newline_notMem_textBytes codec a), List.forall_mem_cons, values_cons,
        reading_text h (chomp_newline (getLast?_textBytes_line h a)), ih.2]
      exact ⟨⟨rfl, ih.1⟩, rfl⟩

/-! ## Walks -/

/-- Hands values to a visitor up to the first that it refuses. -/
def visitAll (visitor : σ → α → σ × Except ε Unit) (s : σ) : List α → σ × Except ε Unit
  | [] => (s, .ok ())
  | a :: rest =>
    match visitor s a with
    | (s, .error e) => (s, .error e)
    | (s, .ok ()) => visitAll visitor s rest

/-- A walk deals with a line by what the line says. -/
theorem visitFrom_cons (visitor : σ → α → σ × Except ε Unit) (number count : Nat) (s : σ)
    (line : Bytes) (rest : List Bytes) :
    visitFrom codec visitor number count s (line :: rest) =
      match reading codec line with
      | .blank => visitFrom codec visitor (number + 1) count s rest
      | .value a =>
        match visitor s a with
        | (s, .error e) => (s, .error (.refused e))
        | (s, .ok ()) => visitFrom codec visitor (number + 1) (count + 1) s rest
      | .malformed fault => (s, .error (.malformed (number + 1) fault))
      | .notText => (s, .error (.unreadable .notText)) := by
  -- A walk asks whether the whole line is a text, and then reads the line without its end.
  have hsome := isSome_text? line
  unfold text? at hsome
  rw [visitFrom, reading, text?]
  cases hwhole : bytesText? line with
  | none =>
      rw [hwhole, Option.isSome_none, Option.isSome_eq_false_iff,
        Option.isNone_iff_eq_none] at hsome
      rw [hsome]
  | some whole =>
      rw [hwhole, Option.isSome_some, Option.isSome_iff_exists] at hsome
      obtain ⟨text, htext⟩ := hsome
      simp only [htext, Option.getD_some]
      by_cases hblank : Text.isBlank text = true
      · rw [if_pos hblank, if_pos hblank]
      · rw [if_neg hblank, if_neg hblank]
        cases codec.parse text with
        | error fault => rfl
        | ok a => rfl

/-- Lines that can be read are a walk over their values, and the rest follows after them. -/
theorem visitFrom_append {good : List Bytes}
    (hgood : ∀ line ∈ good, (reading codec line).isReadable = true)
    (visitor : σ → α → σ × Except ε Unit) (number count : Nat) (s : σ) (rest : List Bytes) :
    visitFrom codec visitor number count s (good ++ rest) =
      match visitAll visitor s (values codec good) with
      | (s, .error e) => (s, .error (.refused e))
      | (s, .ok ()) => visitFrom codec visitor (number + good.length)
          (count + (values codec good).length) s rest := by
  induction good generalizing number count s with
  | nil => rfl
  | cons line good ih =>
      rw [List.forall_mem_cons] at hgood
      obtain ⟨hline, hgood⟩ := hgood
      have hnext : number + (line :: good).length = number + 1 + good.length := by
        rw [List.length_cons]
        omega
      rw [List.cons_append, visitFrom_cons, hnext]
      rw [values_cons]
      -- A blank line counts as a line but not as a value.
      cases hreading : reading codec line with
      | blank => exact ih hgood _ _ _
      | value a =>
          simp only [Reading.value?, Option.toList_some, List.singleton_append, visitAll]
          rcases hvisitor : visitor s a with ⟨s', (e | u)⟩
          · simp only
          · simp only [ih hgood, List.length_cons, Nat.add_assoc, Nat.add_comm 1]
      | malformed fault =>
          rw [hreading] at hline
          cases hline
      | notText =>
          rw [hreading] at hline
          cases hline

/-- A walk ends in the first line that cannot be read. -/
theorem visitFrom_bad {bad : Bytes} {number : Nat} {fault : Fault ε}
    (hbad : (reading codec bad).fault? number = some fault)
    (visitor : σ → α → σ × Except ε Unit) (count : Nat) (s : σ) (later : List Bytes) :
    visitFrom codec visitor number count s (bad :: later) = (s, .error fault) := by
  rw [visitFrom_cons]
  cases hreading : reading codec bad with
  | blank =>
      rw [hreading] at hbad
      cases hbad
  | value a =>
      rw [hreading] at hbad
      cases hbad
  | malformed fault' =>
      rw [hreading] at hbad
      cases hbad
      rfl
  | notText =>
      rw [hreading] at hbad
      cases hbad
      rfl

/-- A walk over a file of values is a walk over the values. -/
theorem visit_lists (h : codec.SelfDelimiting) (visitor : σ → α → σ × Except ε Unit)
    {as : List α} {content : Bytes} (hlists : Lists codec as content) (s : σ) :
    visit codec visitor s content =
      match visitAll visitor s as with
      | (s, .error e) => (s, .error (.refused e))
      | (s, .ok ()) => (s, .ok as.length) := by
  obtain ⟨hreadable, hvalues⟩ := hlists.values_eq h
  have hwalk := visitFrom_append hreadable visitor 0 0 s []
  rw [List.append_nil, hvalues, Nat.zero_add, Nat.zero_add] at hwalk
  exact hwalk

/-- A walk that comes to the end has read all lines, and visited and counted their values. -/
theorem visitFrom_eq_ok {visitor : σ → α → σ × Except ε Unit} {number count n : Nat} {s s' : σ}
    {lines : List Bytes} (h : visitFrom codec visitor number count s lines = (s', .ok n)) :
    (∀ line ∈ lines, (reading codec line).isReadable = true) ∧
      visitAll visitor s (values codec lines) = (s', .ok ()) := by
  induction lines generalizing number count s with
  | nil =>
      cases h
      exact ⟨List.forall_mem_nil _, rfl⟩
  | cons line rest ih =>
      rw [visitFrom_cons] at h
      rw [List.forall_mem_cons, values_cons]
      cases hreading : reading codec line with
      | blank =>
          simp only [hreading] at h
          obtain ⟨hrest, hvisit⟩ := ih h
          exact ⟨⟨rfl, hrest⟩, hvisit⟩
      | value a =>
          simp only [hreading] at h
          simp only [Reading.value?, Option.toList_some, List.singleton_append, visitAll]
          rcases hvisitor : visitor s a with ⟨s₁, (e | u)⟩
          · simp [hvisitor] at h
          · simp only [hvisitor] at h
            obtain ⟨hrest, hvisit⟩ := ih h
            exact ⟨⟨rfl, hrest⟩, hvisit⟩
      | malformed fault =>
          simp [hreading] at h
      | notText =>
          simp [hreading] at h

/-- What every visit preserves holds after a walk, wherever that ends. -/
theorem visitFrom_invariant {I : σ → Prop} {visitor : σ → α → σ × Except ε Unit}
    (hvisit : ∀ s a, I s → I (visitor s a).1) {s : σ} (h : I s) (lines : List Bytes)
    (number count : Nat) : I (visitFrom codec visitor number count s lines).1 := by
  induction lines generalizing s number count with
  | nil => exact h
  | cons line rest ih =>
      rw [visitFrom_cons]
      cases reading codec line with
      | blank => exact ih h _ _
      | value a =>
          have hnext := hvisit s a h
          rcases hvisitor : visitor s a with ⟨s', (e | u)⟩
          all_goals
            rw [hvisitor] at hnext
          · simp only [hvisitor]
            exact hnext
          · simp only [hvisitor]
            exact ih hnext _ _
      | malformed fault => exact h
      | notText => exact h

/-- A walk that is refused was refused by its visitor. -/
theorem visitFrom_refused {visitor : σ → α → σ × Except ε Unit} {number count : Nat} {s s' : σ}
    {lines : List Bytes} {e : ε}
    (h : visitFrom codec visitor number count s lines = (s', .error (.refused e))) :
    ∃ s₀ a, (visitor s₀ a).2 = .error e := by
  induction lines generalizing number count s with
  | nil => cases h
  | cons line rest ih =>
      rw [visitFrom_cons] at h
      cases hreading : reading codec line with
      | blank =>
          simp only [hreading] at h
          exact ih h
      | value a =>
          simp only [hreading] at h
          rcases hvisitor : visitor s a with ⟨s₁, (e' | u)⟩
          · simp only [hvisitor, Prod.mk.injEq, Except.error.injEq, Fault.refused.injEq] at h
            exact ⟨s, a, by rw [hvisitor, h.2]⟩
          · simp only [hvisitor] at h
            exact ih h
      | malformed fault => simp [hreading] at h
      | notText => simp [hreading] at h

/-- Lines that can be read and are not blank have a value each. -/
theorem length_values {lines : List Bytes}
    (h : ∀ line ∈ lines, (reading codec line).isReadable = true) :
    (values codec lines).length = lines.countP fun line => ! isBlankLine line := by
  induction lines with
  | nil => rfl
  | cons line rest ih =>
      rw [List.forall_mem_cons] at h
      have hline := h.1
      rw [values_cons, List.length_append, List.countP_cons, ih h.2, Nat.add_comm]
      have hblank := isBlankLine_eq codec line
      cases hreading : reading codec line with
      | blank =>
          rw [hreading] at hblank
          simp [hblank, Reading.value?, Reading.isBlank]
      | value a =>
          rw [hreading] at hblank
          simp [hblank, Reading.value?, Reading.isBlank]
      | malformed fault =>
          rw [hreading] at hline
          cases hline
      | notText =>
          rw [hreading] at hline
          cases hline

end MachineAtlas.Lines
