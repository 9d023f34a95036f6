-- SUMMARY: The one outcome of a walk over lines, under any visitor and with blank lines put in.
import Mathlib.Data.List.Induction
import MachineAtlas.Proofs.Files.Reading
/-!
# Streams of values

What a walk over the lines of a file hands to its visitor, and where it stops. A walk has one outcome,
which the lines decide: all of them can be read and their values are accepted, or there is a first
line that is no text, does not parse or is refused. Blank lines in between have no part in it, except
that the lines after them have a higher number.
-/
namespace MachineAtlas.Lines

open Json (Codec)

variable {α σ ε : Type} {codec : Codec α} {visitor : σ → α → σ × Except ε Unit}

@[simp] theorem values_append (front back : List Bytes) :
    values codec (front ++ back) = values codec front ++ values codec back :=
  List.filterMap_append

/-! ## What is handed over -/

/-- The visitor with a list of all that was handed to it. -/
def tracing (visitor : σ → α → σ × Except ε Unit) :
    σ × List α → α → (σ × List α) × Except ε Unit :=
  fun (s, seen) a => (((visitor s a).1, seen ++ [a]), (visitor s a).2)

theorem visitAll_append (s : σ) (front back : List α) :
    visitAll visitor s (front ++ back) =
      match visitAll visitor s front with
      | (s, .error e) => (s, .error e)
      | (s, .ok ()) => visitAll visitor s back := by
  induction front generalizing s with
  | nil => rfl
  | cons a front ih =>
      rw [List.cons_append, visitAll, visitAll]
      rcases visitor s a with ⟨s₁, (e | u)⟩
      · rfl
      · exact ih s₁

/-- A visitor that accepts all values has seen all of them. -/
theorem visitAll_tracing {s s' : σ} {as : List α} (h : visitAll visitor s as = (s', .ok ()))
    (seen : List α) : visitAll (tracing visitor) (s, seen) as = ((s', seen ++ as), .ok ()) := by
  induction as generalizing s seen with
  | nil =>
      cases h
      rw [List.append_nil]
      rfl
  | cons a as ih =>
      rw [visitAll] at h
      rw [visitAll, tracing]
      rcases hvisit : visitor s a with ⟨s₁, (e | u)⟩
      · rw [hvisit] at h
        cases h
      · rw [hvisit] at h
        simp only [ih h, List.append_assoc, List.singleton_append]

/-- The list has no part in what the visitor does. -/
theorem visitFrom_tracing (number count : Nat) (s : σ) (seen : List α) (lines : List Bytes) :
    visitFrom codec visitor number count s lines =
      ((visitFrom codec (tracing visitor) number count (s, seen) lines).1.1,
        (visitFrom codec (tracing visitor) number count (s, seen) lines).2) := by
  induction lines generalizing number count s seen with
  | nil => rfl
  | cons line rest ih =>
      rw [visitFrom_cons, visitFrom_cons]
      cases reading codec line with
      | blank => exact ih _ _ _ _
      | value a =>
          simp only [tracing]
          rcases visitor s a with ⟨s₁, (e | u)⟩
          · rfl
          · exact ih _ _ _ _
      | malformed fault => rfl
      | notText => rfl

/-! ## Where a walk stops -/

/-- A line that `number` lines come before ends the walk, with the state that this leaves the visitor
in and the fault. -/
inductive Stops (codec : Codec α) (visitor : σ → α → σ × Except ε Unit) (number : Nat) (s : σ)
    (line : Bytes) : σ → Fault ε → Prop where
  | notText (h : bytesText? line = none) :
      Stops codec visitor number s line s (.unreadable .notText)
  | malformed {text : String} {fault : Json.Fault} (htext : text? line = some text)
      (hblank : Text.isBlank text = false) (hparse : codec.parse text = .error fault) :
      Stops codec visitor number s line s (.malformed (number + 1) fault)
  | refused {text : String} {a : α} {s' : σ} {e : ε} (htext : text? line = some text)
      (hblank : Text.isBlank text = false) (hparse : codec.parse text = .ok a)
      (hvisit : visitor s a = (s', .error e)) :
      Stops codec visitor number s line s' (.refused e)

/-- The outcome of a walk over lines: the state of the visitor and the values that were handed to it,
and the number of values or why the walk stopped. -/
inductive Walks (codec : Codec α) (visitor : σ → α → σ × Except ε Unit) (s : σ)
    (lines : List Bytes) : (σ × List α) × Except (Fault ε) Nat → Prop where
  | whole {s' : σ} (hreadable : ∀ line ∈ lines, (reading codec line).isReadable = true)
      (hvisit : visitAll visitor s (values codec lines) = (s', .ok ())) :
      Walks codec visitor s lines
        ((s', values codec lines), .ok (lines.countP fun line => ! isBlankLine line))
  | stopped {good later : List Bytes} {bad : Bytes} {s₀ s' : σ} {fault : Fault ε}
      (hlines : lines = good ++ bad :: later)
      (hreadable : ∀ line ∈ good, (reading codec line).isReadable = true)
      (hvisit : visitAll visitor s (values codec good) = (s₀, .ok ()))
      (hstop : Stops codec visitor good.length s₀ bad s' fault) :
      Walks codec visitor s lines ((s', values codec (good ++ [bad])), .error fault)

theorem text?_eq_none_iff {line : Bytes} : text? line = none ↔ bytesText? line = none := by
  rw [← Option.isNone_iff_eq_none, ← Option.isNone_iff_eq_none, ← Option.not_isSome,
    ← Option.not_isSome, isSome_text?]

/-- A line is passed, or the walk stops in it. -/
theorem passes_or_stops (codec : Codec α) (visitor : σ → α → σ × Except ε Unit) (number : Nat)
    (s : σ) (line : Bytes) :
    ((reading codec line).isReadable = true ∧
      ∃ s', visitAll visitor s (values codec [line]) = (s', .ok ())) ∨
    ∃ s' fault, Stops codec visitor number s line s' fault := by
  cases htext : text? line with
  | none =>
      exact .inr ⟨s, _, .notText (text?_eq_none_iff.1 htext)⟩
  | some text =>
      by_cases hblank : Text.isBlank text = true
      · left
        rw [values_cons, reading_blank htext hblank]
        exact ⟨rfl, s, rfl⟩
      · cases hparse : codec.parse text with
        | error fault =>
            exact .inr ⟨s, _, .malformed htext (Bool.eq_false_iff.2 hblank) hparse⟩
        | ok a =>
            have hreading : reading codec line = .value a := by
              simp only [reading, htext, if_neg hblank, hparse]
            rcases hvisit : visitor s a with ⟨s', (e | u)⟩
            · exact .inr ⟨s', _, .refused htext (Bool.eq_false_iff.2 hblank) hparse hvisit⟩
            · left
              rw [values_cons, hreading]
              refine ⟨rfl, s', ?_⟩
              simp only [Reading.value?, Option.toList_some, values, List.filterMap_nil,
                List.append_nil, visitAll, hvisit]

/-- There is an outcome for all lines. -/
theorem exists_walks (codec : Codec α) (visitor : σ → α → σ × Except ε Unit) (s : σ)
    (lines : List Bytes) : ∃ outcome, Walks codec visitor s lines outcome := by
  -- The induction adds a line at the end, so that the number of the line is that of those before it.
  induction lines using List.reverseRecOn with
  | nil => exact ⟨_, .whole (List.forall_mem_nil _) rfl⟩
  | append_singleton lines line ih =>
      obtain ⟨outcome, houtcome⟩ := ih
      cases houtcome with
      | @whole s₁ hreadable hvisit =>
          rcases passes_or_stops codec visitor lines.length s₁ line with
            ⟨hline, s₂, hnext⟩ | ⟨s₂, fault, hstop⟩
          · have hall : visitAll visitor s (values codec (lines ++ [line])) = (s₂, .ok ()) := by
              rw [values_append, visitAll_append, hvisit]
              exact hnext
            refine ⟨_, .whole ?_ hall⟩
            rw [List.forall_mem_append, List.forall_mem_singleton]
            exact ⟨hreadable, hline⟩
          · exact ⟨_, .stopped rfl hreadable hvisit hstop⟩
      | @stopped good later bad s₀ s' fault hlines hreadable hvisit hstop =>
          -- Where the walk has stopped, one more line is not looked at.
          have hmore : lines ++ [line] = good ++ bad :: (later ++ [line]) := by
            rw [hlines, List.append_assoc, List.cons_append]
          exact ⟨_, .stopped hmore hreadable hvisit hstop⟩

/-- A walk ends in a line that it stops in, with the value of the line handed over if it has one. -/
theorem visitFrom_stops {number : Nat} {s s' : σ} {line : Bytes} {fault : Fault ε}
    (h : Stops codec visitor number s line s' fault) (count : Nat) (seen : List α)
    (later : List Bytes) :
    visitFrom codec (tracing visitor) number count (s, seen) (line :: later) =
      ((s', seen ++ values codec [line]), .error fault) := by
  rw [visitFrom_cons, values_cons, values, List.filterMap_nil, List.append_nil]
  cases h with
  | notText h =>
      simp [reading, text?_eq_none_iff.2 h, Reading.value?]
  | malformed htext hblank hparse =>
      simp [reading, htext, hblank, hparse, Reading.value?]
  | refused htext hblank hparse hvisit =>
      simp [reading, htext, hblank, hparse, Reading.value?, tracing, hvisit]

/-- A walk has the outcome that its lines have. -/
theorem Walks.visit_eq {s : σ} {content : Bytes} {outcome : (σ × List α) × Except (Fault ε) Nat}
    (h : Walks codec visitor s (split content) outcome) :
    visit codec (tracing visitor) (s, []) content = outcome := by
  cases h with
  | whole hreadable hvisit =>
      have hwalk := visitFrom_append hreadable (tracing visitor) 0 0 (s, []) []
      rw [List.append_nil, visitAll_tracing hvisit] at hwalk
      rw [visit, hwalk, ← length_values hreadable]
      simp [visitFrom]
  | stopped hlines hreadable hvisit hstop =>
      rw [visit, hlines, visitFrom_append hreadable, visitAll_tracing hvisit, values_append]
      rw [← Nat.zero_add (List.length _)] at hstop
      exact visitFrom_stops hstop _ _ _

theorem visit_eq_iff {s : σ} {content : Bytes} {outcome : (σ × List α) × Except (Fault ε) Nat} :
    visit codec (tracing visitor) (s, []) content = outcome ↔
      Walks codec visitor s (split content) outcome := by
  constructor
  · rintro rfl
    obtain ⟨outcome, houtcome⟩ := exists_walks codec visitor s (split content)
    rw [houtcome.visit_eq]
    exact houtcome
  · exact Walks.visit_eq

/-! ## Lines without their ends -/

/-- The lines of a file, without what ends them. -/
def bare (content : Bytes) : List Bytes := (split content).map chomp

/-- What ends a line may be a carriage return before the newline, and is nothing else. -/
theorem isPrefix_chomp (line : Bytes) : chomp (line ++ [newline]) <+: line := by
  by_cases h : line.getLast? = some carriageReturn
  · obtain ⟨front, rfl⟩ := List.getLast?_eq_some_iff.1 h
    rw [chomp_carriageReturn]
    exact List.prefix_append front [carriageReturn]
  · exact ⟨[], by rw [List.append_nil, chomp_newline h]⟩

theorem newline_notMem_chomp {content line : Bytes} (h : line ∈ split content) :
    newline ∉ chomp line := by
  have hfront := newline_notMem_dropLast h
  rcases List.eq_nil_or_concat line with rfl | ⟨front, last, rfl⟩
  · exact List.not_mem_nil
  · rw [List.concat_eq_append, List.dropLast_concat] at hfront
    rw [List.concat_eq_append]
    by_cases hlast : last = newline
    · rw [hlast]
      intro hmem
      exact hfront ((isPrefix_chomp front).subset hmem)
    · have hopen : newline ∉ front ++ [last] := by
        rw [List.mem_append, List.mem_singleton, not_or]
        exact ⟨hfront, Ne.symm hlast⟩
      rw [chomp_open hopen]
      exact hopen

/-- A walk looks at lines without their ends. -/
theorem visitFrom_map_chomp {lines : List Bytes} (h : ∀ line ∈ lines, newline ∉ chomp line)
    (number count : Nat) (s : σ) :
    visitFrom codec visitor number count s (lines.map chomp) =
      visitFrom codec visitor number count s lines := by
  induction lines generalizing number count s with
  | nil => rfl
  | cons line rest ih =>
      rw [List.forall_mem_cons] at h
      have hreading : reading codec (chomp line) = reading codec line := by
        simp only [reading, text?, chomp_open h.1]
      rw [List.map_cons, visitFrom_cons, visitFrom_cons, hreading]
      simp only [ih h.2]

theorem visit_eq_bare (s : σ) (content : Bytes) :
    visit codec visitor s content = visitFrom codec visitor 0 0 s (bare content) :=
  (visitFrom_map_chomp (fun _ => newline_notMem_chomp) 0 0 s).symm

/-! ## Seams -/

/-- The last line has its newline, if there is a last line. -/
def Ended (content : Bytes) : Prop := content = [] ∨ content.getLast? = some newline

@[simp] theorem pushFront_newline (lines : List Bytes) :
    pushFront newline lines = [newline] :: lines :=
  if_pos rfl

theorem pushFront_append {b : UInt8} {front : List Bytes} (h : b = newline ∨ front ≠ [])
    (back : List Bytes) : pushFront b (front ++ back) = pushFront b front ++ back := by
  by_cases hb : b = newline
  · rw [hb, pushFront_newline, pushFront_newline, List.cons_append]
  · cases front with
    | nil => exact absurd rfl (h.resolve_left hb)
    | cons line front =>
        rw [pushFront_of_ne hb, pushFront_of_ne hb]
        rfl

theorem split_ne_nil {content : Bytes} (h : content ≠ []) : split content ≠ [] := by
  cases content with
  | nil => exact absurd rfl h
  | cons b content =>
      by_cases hb : b = newline
      · rw [split_cons, hb, pushFront_newline]
        exact List.cons_ne_nil _ _
      · rw [split_cons, pushFront_of_ne hb]
        exact List.cons_ne_nil _ _

/-- A file with a last newline ends in it whatever the bytes before are. -/
theorem ended_cons {b : UInt8} {content : Bytes} :
    Ended (b :: content) ↔ b = newline ∧ content = [] ∨ content ≠ [] ∧ Ended content := by
  unfold Ended
  cases content with
  | nil => simp
  | cons c content => simp [List.getLast?_cons_cons]

/-- A file of whole lines has as many as newlines. -/
theorem length_split {content : Bytes} (h : Ended content) :
    (split content).length = content.count newline := by
  induction content with
  | nil => rfl
  | cons b content ih =>
      rw [split_cons, List.count_cons]
      rcases ended_cons.1 h with ⟨rfl, rfl⟩ | ⟨hne, hended⟩
      · rfl
      · rw [← ih hended]
        by_cases hb : b = newline
        · rw [hb, pushFront_newline, List.length_cons, if_pos (beq_self_eq_true newline)]
        · obtain ⟨line, rest, hlines⟩ := List.exists_cons_of_ne_nil (split_ne_nil hne)
          rw [hlines, pushFront_of_ne hb, if_neg (by simpa using hb)]
          rfl

/-- The line ends in its only newline. -/
def IsWhole (line : Bytes) : Prop := ∃ front, newline ∉ front ∧ line = front ++ [newline]

theorem isWhole_of_mem_split {content line : Bytes} (h : Ended content)
    (hline : line ∈ split content) : IsWhole line := by
  induction content generalizing line with
  | nil => cases hline
  | cons b content ih =>
      rw [split_cons] at hline
      by_cases hb : b = newline
      · rw [hb, pushFront_newline, List.mem_cons] at hline
        rcases ended_cons.1 h with ⟨-, rfl⟩ | ⟨-, hended⟩
        · exact ⟨[], List.not_mem_nil, hline.resolve_right List.not_mem_nil⟩
        · rcases hline with rfl | hline
          · exact ⟨[], List.not_mem_nil, rfl⟩
          · exact ih hended hline
      · obtain ⟨hne, hended⟩ := (ended_cons.1 h).resolve_left fun hlast => hb hlast.1
        obtain ⟨first, rest, hlines⟩ := List.exists_cons_of_ne_nil (split_ne_nil hne)
        rw [hlines] at hline ih
        rw [pushFront_of_ne hb, List.mem_cons] at hline
        rcases hline with rfl | hline
        · obtain ⟨front, hfront, rfl⟩ := ih hended List.mem_cons_self
          refine ⟨b :: front, ?_, rfl⟩
          rw [List.mem_cons, not_or]
          exact ⟨Ne.symm hb, hfront⟩
        · exact ih hended (List.mem_cons_of_mem first hline)

/-- Whole lines in a row are split into the lines that they are. -/
theorem split_flatten {lines : List Bytes} (h : ∀ line ∈ lines, IsWhole line) :
    split lines.flatten = lines := by
  induction lines with
  | nil => rfl
  | cons line lines ih =>
      rw [List.forall_mem_cons] at h
      obtain ⟨⟨front, hfront, rfl⟩, hrest⟩ := h
      rw [List.flatten_cons, List.append_assoc, List.singleton_append, split_line hfront, ih hrest]

/-- What follows whole lines has its own lines. -/
theorem split_append {front : Bytes} (h : Ended front) (back : Bytes) :
    split (front ++ back) = split front ++ split back := by
  induction front with
  | nil => rfl
  | cons b front ih =>
      rcases ended_cons.1 h with ⟨rfl, rfl⟩ | ⟨hne, hended⟩
      · rfl
      · rw [List.cons_append, split_cons, split_cons, ih hended]
        exact pushFront_append (.inr (split_ne_nil hne)) (split back)

theorem bare_append {front : Bytes} (h : Ended front) (back : Bytes) :
    bare (front ++ back) = bare front ++ bare back := by
  rw [bare, split_append h, List.map_append]
  rfl

/-! ## Blank lines in between -/

/-- Lines with others put in: `gap i` before the line that `i` lines come before, and the last one
behind all. -/
def spread (gap : Nat → List Bytes) (i : Nat) : List Bytes → List Bytes
  | [] => gap i
  | line :: rest => gap i ++ line :: spread gap (i + 1) rest

/-- How many lines are put in before the line with a number. -/
def inserted (gap : Nat → List Bytes) : Nat → Nat
  | 0 => 0
  | number + 1 => inserted gap number + (gap number).length

/-- Where no line is put in, there are only the lines themselves. -/
theorem spread_of_nil {gap : Nat → List Bytes} (i : Nat) (lines : List Bytes)
    (h : ∀ j, i ≤ j → gap j = []) : spread gap i lines = lines := by
  induction lines generalizing i with
  | nil => exact h i (Nat.le_refl i)
  | cons line rest ih =>
      rw [spread, h i (Nat.le_refl i), List.nil_append,
        ih (i + 1) (fun j hj => h j (Nat.le_of_succ_le hj))]

theorem spread_append {gap : Nat → List Bytes} (i : Nat) (front back : List Bytes)
    (h : ∀ j, i ≤ j → j < i + front.length → gap j = []) :
    spread gap i (front ++ back) = front ++ spread gap (i + front.length) back := by
  induction front generalizing i with
  | nil => rfl
  | cons line front ih =>
      rw [List.length_cons] at h
      have hrest (j : Nat) (hle : i + 1 ≤ j) (hlt : j < i + 1 + front.length) : gap j = [] :=
        h j (by omega) (by omega)
      have hnext : i + (line :: front).length = i + 1 + front.length := by
        rw [List.length_cons]
        omega
      rw [List.cons_append, spread, h i (Nat.le_refl i) (by omega), ih (i + 1) hrest, hnext]
      rfl

/-- Lines that are all put in at one place, which `place` lines come before. -/
def gapAt (place : Nat) (lines : List Bytes) (i : Nat) : List Bytes :=
  if i = place then lines else []

theorem isBlankLine_gapAt {lines : List Bytes} (h : ∀ line ∈ lines, isBlankLine line = true)
    (place i : Nat) : ∀ line ∈ gapAt place lines i, isBlankLine line = true := by
  unfold gapAt
  split
  · exact h
  · exact List.forall_mem_nil _

theorem spread_gapAt (front lines back : List Bytes) :
    spread (gapAt front.length lines) 0 (front ++ back) = front ++ (lines ++ back) := by
  have hbefore (j : Nat) (_ : 0 ≤ j) (hlt : j < 0 + front.length) :
      gapAt front.length lines j = [] :=
    if_neg (by omega)
  have hbehind (j : Nat) (hle : front.length + 1 ≤ j) : gapAt front.length lines j = [] :=
    if_neg (by omega)
  rw [spread_append 0 front back hbefore, Nat.zero_add]
  cases back with
  | nil => rw [spread, gapAt, if_pos rfl, List.append_nil]
  | cons line back =>
      rw [spread, spread_of_nil (front.length + 1) back hbehind, gapAt, if_pos rfl]

/-- Whole lines that are put in behind other whole lines stand between these and what follows. -/
theorem bare_insert {front lines back : Bytes} (hfront : Ended front) (hlines : Ended lines) :
    bare (front ++ (lines ++ back)) =
      spread (gapAt (bare front).length (bare lines)) 0 (bare (front ++ back)) := by
  rw [bare_append hfront, bare_append hlines, bare_append hfront, spread_gapAt]

/-- The fault with the number that its line has after lines are put in. -/
def Fault.shift (gap : Nat → List Bytes) : Fault ε → Fault ε
  | .unreadable io => .unreadable io
  | .malformed number fault => .malformed (number + inserted gap number) fault
  | .refused e => .refused e

theorem reading_of_isBlankLine {line : Bytes} (h : isBlankLine line = true) :
    reading codec line = .blank := by
  rw [isBlankLine, Option.any_eq_true] at h
  obtain ⟨text, htext, hblank⟩ := h
  exact reading_blank htext hblank

/-- Blank lines are passed over, and only counted as lines. -/
theorem visitFrom_blank {blanks : List Bytes} (h : ∀ line ∈ blanks, isBlankLine line = true)
    (number count : Nat) (s : σ) (rest : List Bytes) :
    visitFrom codec visitor number count s (blanks ++ rest) =
      visitFrom codec visitor (number + blanks.length) count s rest := by
  induction blanks generalizing number with
  | nil => rfl
  | cons line blanks ih =>
      rw [List.forall_mem_cons] at h
      have hnext : number + (line :: blanks).length = number + 1 + blanks.length := by
        rw [List.length_cons]
        omega
      rw [List.cons_append, visitFrom_cons, reading_of_isBlankLine h.1, hnext]
      exact ih h.2 (number + 1)

/-- A walk over lines with blank ones put in is the walk over the lines, with higher numbers. -/
theorem visitFrom_spread {gap : Nat → List Bytes}
    (hgap : ∀ i, ∀ line ∈ gap i, isBlankLine line = true) (i count : Nat) (s : σ)
    (lines : List Bytes) :
    visitFrom codec visitor (i + inserted gap i) count s (spread gap i lines) =
      ((visitFrom codec visitor i count s lines).1,
        (visitFrom codec visitor i count s lines).2.mapError (Fault.shift gap)) := by
  -- At each line, one walk has passed as many lines more than the other as were put in up to there.
  induction lines generalizing i count s with
  | nil =>
      rw [spread, ← List.append_nil (gap i), visitFrom_blank (hgap i)]
      rfl
  | cons line rest ih =>
      have hnext : i + inserted gap i + (gap i).length + 1 = i + 1 + inserted gap (i + 1) := by
        rw [inserted]
        omega
      rw [spread, visitFrom_blank (hgap i), visitFrom_cons, visitFrom_cons, hnext]
      cases reading codec line with
      | blank => exact ih _ _ _
      | value a =>
          rcases hvisit : visitor s a with ⟨s₁, (e | u)⟩
          · simp only [hvisit]
            rfl
          · simp only [hvisit]
            exact ih _ _ _
      | malformed fault => rfl
      | notText => rfl

theorem visit_spread {gap : Nat → List Bytes}
    (hgap : ∀ i, ∀ line ∈ gap i, isBlankLine line = true) {content content' : Bytes}
    (hbare : bare content' = spread gap 0 (bare content)) (s : σ) :
    visit codec visitor s content' =
      ((visit codec visitor s content).1,
        (visit codec visitor s content).2.mapError (Fault.shift gap)) := by
  rw [visit_eq_bare, visit_eq_bare, hbare]
  exact visitFrom_spread hgap 0 0 s (bare content)

end MachineAtlas.Lines
