-- SUMMARY: The grammar of documents, which the reader keeps to.
import MachineAtlas.Json.Draft
import MachineAtlas.Proofs.Json.Number
import MachineAtlas.Proofs.Json.Quoted
/-!
# Spelled values

The grammar of documents, with what each text says. The reader keeps to it: a text of the grammar is
read as what it says, up to its end.
-/
namespace MachineAtlas.Json.Draft

/-! ## Grammar -/

/-- White space only. -/
def Blank (cs : List Char) : Prop := ∀ c ∈ cs, isBlank c = true

mutual

/-- The spelling of a value, from its first character to its last. -/
inductive Spells : Draft → List Char → Prop where
  | null : Spells .null "null".toList
  | boolean (b : Bool) : Spells (.boolean b) (Value.booleanText b)
  | number {n : Number} {cs : List Char} (h : n.Spells cs) : Spells (.number n) cs
  | text {ps : List Piece} {cs : List Char} (h : Quoted.Spells ps cs) :
      Spells (.text ⟨ps, .closed⟩) ('\"' :: (cs ++ ['\"']))
  | emptyArray {ws : List Char} (h : Blank ws) : Spells (.array .done) ('[' :: (ws ++ [']']))
  | array {items : Items} {cs : List Char} (h : SpellsItems items cs) :
      Spells (.array items) ('[' :: cs)
  | emptyObject {ws : List Char} (h : Blank ws) : Spells (.object .done) ('{' :: (ws ++ ['}']))
  | object {members : Members} {cs : List Char} (h : SpellsMembers members cs) :
      Spells (.object members) ('{' :: cs)

/-- The spelling of a value with white space around it. -/
inductive SpellsPadded : Draft → List Char → Prop where
  | mk {d : Draft} {before cs after : List Char} (hbefore : Blank before) (hafter : Blank after)
      (h : Spells d cs) : SpellsPadded d (before ++ (cs ++ after))

/-- The spelling of an element and those after it, with the closing bracket. -/
inductive SpellsItems : Items → List Char → Prop where
  | last {d : Draft} {cs : List Char} (head : SpellsPadded d cs) :
      SpellsItems (.next d .done) (cs ++ [']'])
  | next {d : Draft} {items : Items} {cs rest : List Char} (head : SpellsPadded d cs)
      (tail : SpellsItems items rest) : SpellsItems (.next d items) (cs ++ ',' :: rest)

/-- The spelling of a member and those after it, with the closing brace. -/
inductive SpellsMembers : Members → List Char → Prop where
  | last {q : Quoted} {d : Draft} {name cs : List Char} (key : SpellsPadded (.text q) name)
      (value : SpellsPadded d cs) :
      SpellsMembers (.next (.text q) d .done) (name ++ ':' :: (cs ++ ['}']))
  | next {q : Quoted} {d : Draft} {members : Members} {name cs rest : List Char}
      (key : SpellsPadded (.text q) name) (value : SpellsPadded d cs)
      (tail : SpellsMembers members rest) :
      SpellsMembers (.next (.text q) d members) (name ++ ':' :: (cs ++ ',' :: rest))

end

theorem Spells.padded {d : Draft} {cs : List Char} (h : Spells d cs) : SpellsPadded d cs := by
  have hpadded := SpellsPadded.mk (fun _ hc => absurd hc List.not_mem_nil)
    (fun _ hc => absurd hc List.not_mem_nil) h
  rwa [List.nil_append, List.append_nil] at hpadded

/-! ## White space -/

@[simp] theorem skipBlanks_cons {c : Char} (h : isBlank c = false) (cs : List Char) :
    skipBlanks (c :: cs) = c :: cs := by
  simp [skipBlanks, h]

theorem skipBlanks_blank {ws : List Char} (h : Blank ws) (rest : List Char) :
    skipBlanks (ws ++ rest) = skipBlanks rest :=
  List.dropWhile_append_of_pos h

@[simp] theorem skipBlanks_idem (cs : List Char) : skipBlanks (skipBlanks cs) = skipBlanks cs := by
  cases hcs : skipBlanks cs with
  | nil => rfl
  | cons c rest =>
      have hhead := List.head?_dropWhile_not isBlank cs
      rw [show cs.dropWhile isBlank = c :: rest from hcs] at hhead
      exact skipBlanks_cons (by simpa using hhead) rest

/-- White space before a value counts for nothing. -/
theorem scan_congr {cs ds : List Char} (h : skipBlanks cs = skipBlanks ds) (fuel : Nat) :
    scan fuel cs = scan fuel ds := by
  cases fuel with
  | zero => rfl
  | succ fuel => rw [scan, scan, h]

@[simp] theorem scanItem_skipBlanks (fuel : Nat) (cs : List Char) :
    scanItem fuel (skipBlanks cs) = scanItem fuel cs := by
  cases fuel with
  | zero => rfl
  | succ fuel => rw [scanItem, scanItem, scan_congr (skipBlanks_idem cs)]

@[simp] theorem scanMember_skipBlanks (fuel : Nat) (cs : List Char) :
    scanMember fuel (skipBlanks cs) = scanMember fuel cs := by
  cases fuel with
  | zero => rfl
  | succ fuel => rw [scanMember, scanMember, scan_congr (skipBlanks_idem cs)]

/-- White space ends a number. -/
theorem ends_blank {ws rest : List Char} (h : Blank ws) (hrest : Number.Ends rest) :
    Number.Ends (ws ++ rest) := by
  cases ws with
  | nil => exact hrest
  | cons c ws =>
      intro d hd
      obtain rfl : c = d := by simpa using hd
      have hc := h c List.mem_cons_self
      simp only [isBlank, Bool.or_eq_true, beq_iff_eq] at hc
      rcases hc with ((rfl | rfl) | rfl) | rfl <;> decide

/-! ## First characters -/

/-- A number starts with its sign or a digit, and no other value does. -/
theorem ne_of_numeral {c d : Char} (hc : c = '-' ∨ Number.isDigit c = true)
    (hd : ¬ (d = '-' ∨ Number.isDigit d = true)) : c ≠ d := by
  rintro rfl
  exact hd hc

theorem isBlank_of_numeral {c : Char} (hc : c = '-' ∨ Number.isDigit c = true) :
    isBlank c = false := by
  simp only [isBlank, Bool.or_eq_false_iff, beq_eq_false_iff_ne]
  exact ⟨⟨⟨ne_of_numeral hc (by decide), ne_of_numeral hc (by decide)⟩,
    ne_of_numeral hc (by decide)⟩, ne_of_numeral hc (by decide)⟩

theorem scan_numeral {c : Char} {cs rest : List Char} (hc : c = '-' ∨ Number.isDigit c = true)
    (hskip : skipBlanks cs = c :: rest) (fuel : Nat) :
    scan (fuel + 1) cs = numeral (c :: rest) := by
  rw [scan, hskip]
  split
  case h_8 h => cases h; exact if_pos hc
  case h_1 h => cases h
  all_goals
    rename_i h
    cases h
    exact absurd hc (by decide)

/-- The first character of a value closes nothing and is not white space. -/
theorem Spells.exists_cons {d : Draft} {cs : List Char} (h : Spells d cs) :
    ∃ c tail, cs = c :: tail ∧ isBlank c = false ∧ c ≠ ']' ∧ c ≠ '}' := by
  cases h with
  | null => exact ⟨'n', _, rfl, by decide⟩
  | boolean b =>
      cases b
      · exact ⟨'f', _, rfl, by decide⟩
      · exact ⟨'t', _, rfl, by decide⟩
  | number h =>
      obtain ⟨c, tail, hcs, hc⟩ := h.exists_cons
      exact ⟨c, tail, hcs, isBlank_of_numeral hc, ne_of_numeral hc (by decide),
        ne_of_numeral hc (by decide)⟩
  | text => exact ⟨'\"', _, rfl, by decide⟩
  | emptyArray => exact ⟨'[', _, rfl, by decide⟩
  | array => exact ⟨'[', _, rfl, by decide⟩
  | emptyObject => exact ⟨'{', _, rfl, by decide⟩
  | object => exact ⟨'{', _, rfl, by decide⟩

theorem Spells.length_pos {d : Draft} {cs : List Char} (h : Spells d cs) : 0 < cs.length := by
  obtain ⟨c, tail, rfl, -⟩ := h.exists_cons
  exact Nat.succ_pos _

theorem SpellsPadded.length_pos {d : Draft} {cs : List Char} (h : SpellsPadded d cs) :
    0 < cs.length := by
  cases h with
  | mk _ _ h =>
      have hpos := h.length_pos
      simp only [List.length_append]
      omega

theorem SpellsPadded.exists_skipBlanks {d : Draft} {cs : List Char} (h : SpellsPadded d cs)
    (rest : List Char) : ∃ c tail, skipBlanks (cs ++ rest) = c :: tail ∧ c ≠ ']' ∧ c ≠ '}' := by
  cases h with
  | mk hbefore _ h =>
      obtain ⟨c, tail, rfl, hblank, hclose⟩ := h.exists_cons
      rw [List.append_assoc, skipBlanks_blank hbefore, List.append_assoc, List.cons_append,
        skipBlanks_cons hblank]
      exact ⟨c, _, rfl, hclose⟩

/-- Behind an opening bracket stands an element unless the closing one does. -/
theorem scanItems_of_spells {items : Items} {cs : List Char} (h : SpellsItems items cs) (fuel : Nat)
    (rest : List Char) : scanItems (fuel + 1) (cs ++ rest) = scanItem fuel (cs ++ rest) := by
  have hfirst : ∃ c tail, skipBlanks (cs ++ rest) = c :: tail ∧ c ≠ ']' := by
    cases h with
    | last head =>
        obtain ⟨c, tail, hskip, hclose, -⟩ := head.exists_skipBlanks ([']'] ++ rest)
        exact ⟨c, tail, by rwa [List.append_assoc], hclose⟩
    | next head =>
        obtain ⟨c, tail, hskip, hclose, -⟩ := head.exists_skipBlanks (',' :: (_ ++ rest))
        exact ⟨c, tail, by rwa [List.append_assoc, List.cons_append], hclose⟩
  obtain ⟨c, tail, hskip, hclose⟩ := hfirst
  rw [← scanItem_skipBlanks, scanItems, hskip]
  split
  · rename_i heq
    cases heq
  · rename_i heq
    cases heq
    exact absurd rfl hclose
  · rfl

theorem scanMembers_of_spells {members : Members} {cs : List Char} (h : SpellsMembers members cs)
    (fuel : Nat) (rest : List Char) :
    scanMembers (fuel + 1) (cs ++ rest) = scanMember fuel (cs ++ rest) := by
  have hfirst : ∃ c tail, skipBlanks (cs ++ rest) = c :: tail ∧ c ≠ '}' := by
    cases h with
    | last key =>
        obtain ⟨c, tail, hskip, -, hclose⟩ := key.exists_skipBlanks (':' :: (_ ++ ['}'] ++ rest))
        exact ⟨c, tail, by rwa [List.append_assoc, List.cons_append], hclose⟩
    | next key =>
        obtain ⟨c, tail, hskip, -, hclose⟩ := key.exists_skipBlanks (':' :: (_ ++ ',' :: _ ++ rest))
        exact ⟨c, tail, by rwa [List.append_assoc, List.cons_append], hclose⟩
  obtain ⟨c, tail, hskip, hclose⟩ := hfirst
  rw [← scanMember_skipBlanks, scanMembers, hskip]
  split
  · rename_i heq
    cases heq
  · rename_i heq
    cases heq
    exact absurd rfl hclose
  · rfl

theorem colon_blank {ws : List Char} (h : Blank ws) (cs : List Char) :
    colon (ws ++ ':' :: cs) = .ok cs := by
  simp [colon, skipBlanks_blank h, isBlank]

/-! ## Reading -/

/-- A spelling is read as its draft, up to its end, with fuel of three times its length. -/
def ReadsTo (d : Draft) (cs : List Char) : Prop :=
  ∀ (fuel : Nat) (rest : List Char), 3 * cs.length ≤ fuel → Number.Ends rest →
    scan fuel (cs ++ rest) = (d, some rest)

/-- The reader stops behind a value and leaves the white space behind it. -/
theorem SpellsPadded.scan_eq {d : Draft} {cs : List Char} (h : SpellsPadded d cs)
    (hreads : ∀ core, Spells d core → ReadsTo d core) {fuel : Nat} (hfuel : 3 * cs.length ≤ fuel)
    {mark : Char} (hmark : mark ∈ [',', ':', ']', '}']) (rest : List Char) :
    ∃ after, Blank after ∧ scan fuel (cs ++ mark :: rest) = (d, some (after ++ mark :: rest)) := by
  obtain ⟨hbefore, hafter, hvalue⟩ := h
  simp only [List.length_append] at hfuel
  refine ⟨_, hafter, ?_⟩
  rw [← hreads _ hvalue fuel _ (by omega) (ends_blank hafter (Number.ends_cons hmark rest))]
  apply scan_congr
  rw [List.append_assoc, skipBlanks_blank hbefore, List.append_assoc]

mutual

/-- A value is read as spelled. -/
theorem readsTo_of_spells {d : Draft} {cs : List Char} (h : Spells d cs) : ReadsTo d cs := by
  -- The induction is on the draft. What is left of the fuel is three times the length of any part,
  -- and the parts are shorter by the brackets around them and the marks between them.
  intro fuel rest hfuel hends
  have hpos := h.length_pos
  obtain ⟨fuel, rfl⟩ : ∃ n, fuel = n + 1 := ⟨fuel - 1, by omega⟩
  cases h with
  | null => simp [scan, isBlank, word]
  | boolean b => cases b <;> simp [Value.booleanText, scan, isBlank, word]
  | number h =>
      obtain ⟨c, tail, rfl, hc⟩ := h.exists_cons
      have hscan := Number.scan_of_spells h hends
      rw [List.cons_append] at hscan ⊢
      rw [scan_numeral hc (skipBlanks_cons (isBlank_of_numeral hc) _), numeral, hscan]
  | text h =>
      rw [List.cons_append, scan, skipBlanks_cons (by decide), List.append_assoc]
      simp [quoted, Quoted.scan_of_spells h]
  | emptyArray h =>
      simp only [List.length_cons, List.length_append] at hfuel
      obtain ⟨fuel, rfl⟩ : ∃ n, fuel = n + 1 := ⟨fuel - 1, by omega⟩
      rw [List.cons_append, scan, skipBlanks_cons (by decide), List.append_assoc]
      simp [scanItems, skipBlanks_blank h, isBlank]
  | array h =>
      simp only [List.length_cons] at hfuel
      -- One unit of fuel goes to the value and one to the look at what is behind the bracket.
      obtain ⟨fuel, rfl⟩ : ∃ n, fuel = n + 1 := ⟨fuel - 1, by omega⟩
      have hitems := scanItem_of_spells h fuel rest (by omega)
      rw [List.cons_append, scan, skipBlanks_cons (by decide)]
      simp [scanItems_of_spells h, hitems]
  | emptyObject h =>
      simp only [List.length_cons, List.length_append] at hfuel
      obtain ⟨fuel, rfl⟩ : ∃ n, fuel = n + 1 := ⟨fuel - 1, by omega⟩
      rw [List.cons_append, scan, skipBlanks_cons (by decide), List.append_assoc]
      simp [scanMembers, skipBlanks_blank h, isBlank]
  | object h =>
      simp only [List.length_cons] at hfuel
      obtain ⟨fuel, rfl⟩ : ∃ n, fuel = n + 1 := ⟨fuel - 1, by omega⟩
      have hmembers := scanMember_of_spells h fuel rest (by omega)
      rw [List.cons_append, scan, skipBlanks_cons (by decide)]
      simp [scanMembers_of_spells h, hmembers]
termination_by sizeOf d

theorem scanItem_of_spells {items : Items} {cs : List Char} (h : SpellsItems items cs) (fuel : Nat)
    (rest : List Char) (hfuel : 3 * cs.length + 1 ≤ fuel) :
    scanItem fuel (cs ++ rest) = (items, some rest) := by
  obtain ⟨fuel, rfl⟩ : ∃ n, fuel = n + 1 := ⟨fuel - 1, by omega⟩
  cases h with
  | last head =>
      simp only [List.length_append] at hfuel
      obtain ⟨after, hafter, hscan⟩ := head.scan_eq (fun _ h => readsTo_of_spells h)
        (by omega : _ ≤ fuel) (by decide : ']' ∈ _) rest
      rw [List.append_assoc, List.singleton_append, scanItem, hscan]
      simp [skipBlanks_blank hafter, isBlank]
  | @next d items cs more head tail =>
      -- The element is not empty, which pays for going on to the next one.
      have hpos := head.length_pos
      simp only [List.length_append, List.length_cons] at hfuel
      obtain ⟨after, hafter, hscan⟩ := head.scan_eq (fun _ h => readsTo_of_spells h)
        (by omega : _ ≤ fuel) (by decide : ',' ∈ _) (more ++ rest)
      have htail := scanItem_of_spells tail fuel rest (by omega)
      rw [List.append_assoc, List.cons_append, scanItem, hscan]
      simp [skipBlanks_blank hafter, isBlank, htail]
termination_by sizeOf items

theorem scanMember_of_spells {members : Members} {cs : List Char} (h : SpellsMembers members cs)
    (fuel : Nat) (rest : List Char) (hfuel : 3 * cs.length + 1 ≤ fuel) :
    scanMember fuel (cs ++ rest) = (members, some rest) := by
  obtain ⟨fuel, rfl⟩ : ∃ n, fuel = n + 1 := ⟨fuel - 1, by omega⟩
  cases h with
  | @last q d name cs key value =>
      simp only [List.length_append, List.length_cons] at hfuel
      obtain ⟨between, hbetween, hkey⟩ := key.scan_eq (fun _ h => readsTo_of_spells h)
        (by omega : _ ≤ fuel) (by decide : ':' ∈ _) (cs ++ '}' :: rest)
      obtain ⟨after, hafter, hvalue⟩ := value.scan_eq (fun _ h => readsTo_of_spells h)
        (by omega : _ ≤ fuel) (by decide : '}' ∈ _) rest
      simp only [List.append_assoc, List.cons_append, List.nil_append]
      rw [scanMember, hkey]
      simp [colon_blank hbetween, hvalue, skipBlanks_blank hafter, isBlank]
  | @next q d members name cs more key value tail =>
      simp only [List.length_append, List.length_cons] at hfuel
      obtain ⟨between, hbetween, hkey⟩ := key.scan_eq (fun _ h => readsTo_of_spells h)
        (by omega : _ ≤ fuel) (by decide : ':' ∈ _) (cs ++ ',' :: (more ++ rest))
      obtain ⟨after, hafter, hvalue⟩ := value.scan_eq (fun _ h => readsTo_of_spells h)
        (by omega : _ ≤ fuel) (by decide : ',' ∈ _) (more ++ rest)
      have htail := scanMember_of_spells tail fuel rest (by omega)
      simp only [List.append_assoc, List.cons_append]
      rw [scanMember, hkey]
      simp [colon_blank hbetween, hvalue, skipBlanks_blank hafter, isBlank, htail]
termination_by sizeOf members

end

/-- A whole text of the grammar says what it spells, and nothing follows it. -/
theorem ofText_of_spells {d : Draft} {cs : List Char} (h : SpellsPadded d cs) :
    ofText cs = (d, false) := by
  obtain @⟨_, before, core, after, hbefore, hafter, hvalue⟩ := h
  have hscan : scan (3 * (before ++ (core ++ after)).length + 3) (before ++ (core ++ after)) =
      (d, some after) := by
    have hends := ends_blank hafter Number.ends_nil
    rw [List.append_nil] at hends
    rw [← readsTo_of_spells hvalue _ after ?_ hends]
    · exact scan_congr (skipBlanks_blank hbefore _) _
    · simp only [List.length_append]
      omega
  have hskip : skipBlanks after = [] := by
    have hskip := skipBlanks_blank hafter []
    rwa [List.append_nil] at hskip
  rw [ofText, hscan]
  simp [hskip]

/-! ## Flaws -/

mutual

/-- A spelled value has no flaw. -/
theorem flaw?_of_spells {d : Draft} {cs : List Char} (h : Spells d cs) : d.flaw? = none := by
  cases h with
  | array h => exact itemsFlaw?_of_spells h
  | object h => exact membersFlaw?_of_spells h
  | _ => rfl
termination_by sizeOf d

theorem itemsFlaw?_of_spells {items : Items} {cs : List Char} (h : SpellsItems items cs) :
    itemsFlaw? items = none := by
  cases h with
  | last head =>
      obtain ⟨-, -, hvalue⟩ := head
      simp [itemsFlaw?, flaw?_of_spells hvalue]
  | next head tail =>
      obtain ⟨-, -, hvalue⟩ := head
      simp [itemsFlaw?, flaw?_of_spells hvalue, itemsFlaw?_of_spells tail]
termination_by sizeOf items

theorem membersFlaw?_of_spells {members : Members} {cs : List Char}
    (h : SpellsMembers members cs) : membersFlaw? members = none := by
  cases h with
  | last key value =>
      obtain ⟨-, -, hname⟩ := key
      obtain ⟨-, -, hvalue⟩ := value
      cases hname
      simp [membersFlaw?, Quoted.flaw?, Quoted.Ending.flaw?, flaw?_of_spells hvalue]
  | next key value tail =>
      obtain ⟨-, -, hname⟩ := key
      obtain ⟨-, -, hvalue⟩ := value
      cases hname
      simp [membersFlaw?, Quoted.flaw?, Quoted.Ending.flaw?, flaw?_of_spells hvalue,
        membersFlaw?_of_spells tail]
termination_by sizeOf members

end

theorem SpellsPadded.flaw?_eq {d : Draft} {cs : List Char} (h : SpellsPadded d cs) :
    d.flaw? = none := by
  obtain ⟨-, -, hvalue⟩ := h
  exact flaw?_of_spells hvalue

end MachineAtlas.Json.Draft
