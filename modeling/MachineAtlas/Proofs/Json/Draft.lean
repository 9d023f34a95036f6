-- SUMMARY: A written value is read as the draft that says what it holds.
import MachineAtlas.Proofs.Json.Spelling
/-!
# Drafts of written values

A written value is spelled as a draft that says what it holds, and so it is read as that.
-/
namespace MachineAtlas.Json

/-! ## The draft of a value -/

namespace Value

mutual

/-- What the one-line text of a value is read as. -/
def draft : Value → Draft
  | .null => .null
  | .boolean b => .boolean b
  | .integer n => .number (Number.ofInt n)
  | .text s => .text (Quoted.ofChars s.toList)
  | .array items => .array (itemsDraft items)
  | .object members => .object (membersDraft members)

def itemsDraft : List Value → Items
  | [] => .done
  | v :: rest => .next (draft v) (itemsDraft rest)

def membersDraft : List (String × Value) → Members
  | [] => .done
  | (k, v) :: rest => .next (.text (Quoted.ofChars k.toList)) (draft v) (membersDraft rest)

end

@[simp] theorem compactItems_cons_cons (v w : Value) (vs : List Value) :
    compactItems (v :: w :: vs) = compact v ++ ',' :: compactItems (w :: vs) := by
  rw [compactItems]
  simp

theorem compactMembers_cons_cons (k : String) (v : Value) (m : String × Value)
    (ms : List (String × Value)) :
    compactMembers ((k, v) :: m :: ms) =
      textChars k ++ ':' :: compact v ++ ',' :: compactMembers (m :: ms) := by
  rw [compactMembers]
  simp

theorem spells_text (s : String) :
    Draft.Spells (.text (Quoted.ofChars s.toList)) (textChars s) :=
  .text (Quoted.spells_escapes s.toList)

mutual

/-- A value is written as a spelling of its draft. -/
theorem spells_compact (v : Value) : Draft.Spells v.draft v.compact := by
  cases v with
  | null => exact .null
  | boolean b => exact .boolean b
  | integer n => exact .number (Number.spells_integerText n)
  | text s => exact spells_text s
  | array items =>
      cases items with
      | nil => exact .emptyArray fun _ hc => absurd hc List.not_mem_nil
      | cons v vs => exact .array (spells_compactItems v vs)
  | object members =>
      cases members with
      | nil => exact .emptyObject fun _ hc => absurd hc List.not_mem_nil
      | cons m ms =>
          cases m with
          | mk k v => exact .object (spells_compactMembers k v ms)
termination_by sizeOf v

theorem spells_compactItems (v : Value) (vs : List Value) :
    Draft.SpellsItems (itemsDraft (v :: vs)) (compactItems (v :: vs) ++ [']']) := by
  cases vs with
  | nil => exact .last (spells_compact v).padded
  | cons w ws =>
      rw [compactItems_cons_cons, List.append_assoc]
      exact .next (spells_compact v).padded (spells_compactItems w ws)
termination_by sizeOf (v :: vs)

theorem spells_compactMembers (k : String) (v : Value) (ms : List (String × Value)) :
    Draft.SpellsMembers (membersDraft ((k, v) :: ms)) (compactMembers ((k, v) :: ms) ++ ['}']) := by
  cases ms with
  | nil =>
      rw [compactMembers, List.append_assoc]
      exact .last (spells_text k).padded (spells_compact v).padded
  | cons m ms =>
      cases m with
      | mk l w =>
          rw [compactMembers_cons_cons]
          simp only [List.append_assoc, List.cons_append]
          exact .next (spells_text k).padded (spells_compact v).padded
            (spells_compactMembers l w ms)
termination_by sizeOf ((k, v) :: ms)

end

end Value

/-! ## Reading what was written -/

namespace Draft

/-- The text of a value is read as its draft, and nothing follows it. -/
@[simp] theorem ofText_compact (v : Value) : ofText v.compact = (v.draft, false) :=
  ofText_of_spells v.spells_compact.padded

end Draft

/-! ## Controls -/

namespace Value

theorem toNat_of_mem_integerText {n : Int} {c : Char} (h : c ∈ integerText n) :
    0x20 ≤ c.toNat := by
  have hdigit {c : Char} (hc : c ∈ Nat.toDigits 10 n.natAbs) : 0x20 ≤ c.toNat := by
    have h := Number.isDigit_of_mem_toDigits hc
    simp only [Number.isDigit, decide_eq_true_eq] at h
    exact Nat.le_trans (by decide) (UInt32.le_iff_toNat_le.1 h.1)
  rcases Int.lt_or_le n 0 with hneg | hpos
  · rw [Number.integerText_of_neg hneg, List.mem_cons] at h
    rcases h with rfl | h
    · decide
    · exact hdigit h
  · rw [Number.integerText_of_nonneg hpos] at h
    exact hdigit h

private theorem isPrinted_null : ("null".toList.all fun c => 0x20 ≤ c.toNat) = true := by
  decide

private theorem isPrinted_booleanText (b : Bool) :
    ((booleanText b).all fun c => 0x20 ≤ c.toNat) = true := by
  cases b <;> decide

mutual

/-- A value is written on one line: its text has no controls. -/
theorem toNat_of_mem_compact (v : Value) {c : Char} (h : c ∈ v.compact) : 0x20 ≤ c.toNat := by
  cases v with
  | null => exact of_decide_eq_true (List.all_eq_true.1 isPrinted_null c h)
  | boolean b => exact of_decide_eq_true (List.all_eq_true.1 (isPrinted_booleanText b) c h)
  | integer n => exact toNat_of_mem_integerText h
  | text s => exact Quoted.toNat_of_mem_encode h
  | array items =>
      simp only [compact, List.mem_append, List.mem_cons, List.not_mem_nil, or_false] at h
      rcases h with (rfl | h) | rfl
      · decide
      · exact toNat_of_mem_compactItems items h
      · decide
  | object members =>
      simp only [compact, List.mem_append, List.mem_cons, List.not_mem_nil, or_false] at h
      rcases h with (rfl | h) | rfl
      · decide
      · exact toNat_of_mem_compactMembers members h
      · decide
termination_by sizeOf v

theorem toNat_of_mem_compactItems (vs : List Value) {c : Char} (h : c ∈ compactItems vs) :
    0x20 ≤ c.toNat := by
  cases vs with
  | nil => simp [compactItems] at h
  | cons v vs =>
      cases vs with
      | nil => exact toNat_of_mem_compact v (by simpa [compactItems] using h)
      | cons w ws =>
          simp only [compactItems_cons_cons, List.mem_append, List.mem_cons] at h
          rcases h with h | rfl | h
          · exact toNat_of_mem_compact v h
          · decide
          · exact toNat_of_mem_compactItems (w :: ws) h
termination_by sizeOf vs

theorem toNat_of_mem_compactMembers (ms : List (String × Value)) {c : Char}
    (h : c ∈ compactMembers ms) : 0x20 ≤ c.toNat := by
  cases ms with
  | nil => simp [compactMembers] at h
  | cons m ms =>
      cases m with
      | mk k v =>
          have hhead : c ∈ textChars k ++ ':' :: compact v → 0x20 ≤ c.toNat := by
            intro h
            rw [List.mem_append, List.mem_cons] at h
            rcases h with h | rfl | h
            · exact Quoted.toNat_of_mem_encode h
            · decide
            · exact toNat_of_mem_compact v h
          cases ms with
          | nil => exact hhead (by simpa [compactMembers] using h)
          | cons n ns =>
              rw [compactMembers_cons_cons, List.mem_append, List.mem_cons] at h
              rcases h with h | rfl | h
              · exact hhead h
              · decide
              · exact toNat_of_mem_compactMembers (n :: ns) h
termination_by sizeOf ms

end

end Value

end MachineAtlas.Json
