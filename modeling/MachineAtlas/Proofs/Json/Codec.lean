-- SUMMARY: Lawful codecs, the law of each combinator, and the round trip of one-line texts.
import MachineAtlas.Json.Layout
import MachineAtlas.Proofs.Json.Whole
/-!
# Lawful codecs

A lawful codec reads back what it writes and refuses every draft with a flaw. Each way of building a
codec keeps that, so that a lawful codec of objects inverts its one-line text and accepts no proper
front of it.
-/
namespace MachineAtlas.Json

/-! ## Reading step by step -/

theorem bind_eq_ok {ε α β : Type} {x : Except ε α} {f : α → Except ε β} {b : β} :
    (x >>= f) = .ok b ↔ ∃ a, x = .ok a ∧ f a = .ok b := by
  cases x with
  | error e => simp [bind, Except.bind]
  | ok a => simp [bind, Except.bind]

theorem map_eq_ok {ε α β : Type} {x : Except ε α} {f : α → β} {b : β} :
    x.map f = .ok b ↔ ∃ a, x = .ok a ∧ f a = b := by
  cases x with
  | error e => simp [Except.map]
  | ok a => simp [Except.map]

theorem passFlaw_eq_ok {flaw : Option Flaw} {u : Unit} : passFlaw flaw = .ok u ↔ flaw = none := by
  cases flaw <;> simp [passFlaw]

/-- Pieces spell a text only if the text is closed. -/
theorem Quoted.flaw?_of_text {q : Quoted} {s : List Char} (h : q.text = .ok s) :
    q.flaw? = none := by
  obtain ⟨pieces, ending⟩ := q
  simp only [Quoted.text, Quoted.flaw?] at h ⊢
  fun_induction Quoted.join ending pieces generalizing s
  -- Where the pieces go on, the rest of them spells a text as well.
  all_goals first
    | assumption
    | exact absurd h (by simp)
    | (rename_i ih
       obtain ⟨rest, hrest, -⟩ := map_eq_ok.1 h
       exact ih hrest)

/-! ## Laws -/

namespace Codec

/-- The codec reads what it has written, and nothing that has a flaw. -/
structure Lawful {α : Type} (codec : Codec α) : Prop where
  read_write : ∀ a, codec.read (codec.write a).draft = .ok a
  flawless : ∀ d a, codec.read d = .ok a → d.flaw? = none

section

variable {α : Type} {codec : Codec α}

/-- A lawful codec inverts its text. -/
@[simp] theorem parse_line (h : codec.Lawful) (a : α) : codec.parse (codec.line a) = .ok a := by
  simp [parse, line, Value.line, h.read_write a, bind, Except.bind, pure, Except.pure]

/-- A lawful codec refuses the proper fronts of the text of an object. -/
theorem parse_front (h : codec.Lawful) {a : α} {members : List (String × Value)}
    (hwrite : codec.write a = .object members) {front rest : List Char}
    (hfront : front ++ rest = (codec.line a).toList) (hrest : rest ≠ []) (b : α) :
    codec.parse (String.ofList front) ≠ .ok b := by
  intro hparse
  have hcompact : front ++ rest = (Value.object members).compact := by
    rw [hfront, line, hwrite, Value.line, String.toList_ofList]
  obtain ⟨b', hread, -⟩ := bind_eq_ok.1 hparse
  rw [String.toList_ofList] at hread
  exact Draft.flaw?_of_front hcompact hrest (h.flawless _ _ hread)

end

/-! ## Scalars -/

/-- What is read as a text has no flaw. -/
theorem flaw?_of_readText {expected s : String} {d : Draft}
    (h : d.readText expected = .ok s) : d.flaw? = none := by
  cases d with
  | text q =>
      simp only [Draft.readText] at h
      split at h
      · rename_i hq
        exact Quoted.flaw?_of_text hq
      · cases h
  | _ => cases h

@[simp] theorem readText_draft (expected s : String) :
    (Value.text s).draft.readText expected = .ok s := by
  simp [Value.draft, Draft.readText]

theorem text_lawful : text.Lawful :=
  ⟨readText_draft "a string", fun _ _ h => flaw?_of_readText h⟩

theorem path_lawful : path.Lawful :=
  ⟨readText_draft "path string", fun _ _ h => flaw?_of_readText h⟩

theorem boolean_lawful : boolean.Lawful where
  read_write _ := rfl
  flawless d b h := by
    cases d with
    | boolean b => rfl
    | _ => cases h

theorem flaw?_of_readInteger {expected : String} {low high : Int} {d : Draft}
    {n : { n : Int // low ≤ n ∧ n ≤ high }}
    (h : d.readInteger expected low high = .ok n) : d.flaw? = none := by
  cases d with
  | number n => rfl
  | _ => cases h

/-- An integer within the bounds of its type is read as itself, if the type lies within those of 64
bits. -/
@[simp] theorem readInteger_draft {expected : String} {low high n : Int} (h : low ≤ n ∧ n ≤ high)
    (hrange : Number.InRange n) :
    (Value.integer n).draft.readInteger expected low high = .ok ⟨n, h⟩ := by
  simp [Value.draft, Draft.readInteger, Number.quantity_ofInt hrange, h]

/-- A codec of integers is lawful if its bounds hold all values of its type. -/
theorem integer_lawful {α : Type} {expected : String} {low high : Int} {value : α → Int}
    {ofValue : { n : Int // low ≤ n ∧ n ≤ high } → α}
    (hbounds : ∀ a, low ≤ value a ∧ value a ≤ high) (hrange : ∀ a, Number.InRange (value a))
    (hof : ∀ a, ofValue ⟨value a, hbounds a⟩ = a) :
    Lawful ⟨fun a => .integer (value a),
      fun d => (d.readInteger expected low high).map ofValue⟩ where
  read_write a := by
    simp only [readInteger_draft (hbounds a) (hrange a), Except.map, hof]
  flawless d a h := by
    obtain ⟨n, hread, -⟩ := map_eq_ok.1 h
    exact flaw?_of_readInteger hread

theorem uint32_lawful : uint32.Lawful :=
  have hlt (n : UInt32) : n.toNat < 4294967296 := n.toNat_lt
  integer_lawful (fun n => by have := hlt n; omega)
    (fun n => by have := hlt n; constructor <;> omega) (fun n => by simp)

theorem uint64_lawful : uint64.Lawful :=
  have hlt (n : UInt64) : n.toNat < 18446744073709551616 := n.toNat_lt
  integer_lawful (fun n => by have := hlt n; omega)
    (fun n => by have := hlt n; constructor <;> omega) (fun n => by simp)

theorem int32_lawful : int32.Lawful :=
  have hle (n : Int32) : -2147483648 ≤ n.toInt := n.le_toInt
  have hlt (n : Int32) : n.toInt < 2147483648 := n.toInt_lt
  integer_lawful (fun n => ⟨hle n, Int.le_of_lt_add_one (hlt n)⟩)
    (fun n => by have := hle n; have := hlt n; constructor <;> omega) (fun n => Int32.ofInt_toInt n)

theorem int64_lawful : int64.Lawful :=
  have hle (n : Int64) : -9223372036854775808 ≤ n.toInt := n.le_toInt
  have hlt (n : Int64) : n.toInt < 9223372036854775808 := n.toInt_lt
  integer_lawful (fun n => ⟨hle n, Int.le_of_lt_add_one (hlt n)⟩)
    (fun n => by have := hle n; have := hlt n; constructor <;> omega) (fun n => Int64.ofInt_toInt n)

/-! ## Options and lists -/

theorem draft_eq_null {v : Value} (h : v.draft = .null) : v = .null := by
  cases v <;> simp_all [Value.draft]

theorem option_read_of_ne {α : Type} {codec : Codec α} {d : Draft} (h : d ≠ .null) :
    codec.option.read d = (codec.read d).map some := by
  cases d with
  | null => exact absurd rfl h
  | _ => rfl

/-- An option is told from nothing if no value is written as `null`. -/
theorem option_lawful {α : Type} {codec : Codec α} (h : codec.Lawful)
    (hnull : ∀ a, codec.write a ≠ .null) : codec.option.Lawful where
  read_write
    | none => rfl
    | some a => by
      have hdraft : (codec.write a).draft ≠ .null := fun hd => hnull a (draft_eq_null hd)
      exact (option_read_of_ne hdraft).trans (by rw [h.read_write a]; rfl)
  flawless d a hread := by
    cases d with
    | null => rfl
    | _ =>
        rw [option_read_of_ne (by simp)] at hread
        obtain ⟨a, hread, -⟩ := map_eq_ok.1 hread
        exact h.flawless _ _ hread

@[simp] theorem readItems_draft {α : Type} {codec : Codec α} (h : codec.Lawful) (as : List α) :
    readItems codec (Value.itemsDraft (as.map codec.write)) = .ok as := by
  induction as with
  | nil => rfl
  | cons a as ih =>
      simp only [List.map_cons, Value.itemsDraft, readItems, h.read_write a, ih]
      rfl

theorem itemsFlaw?_of_readItems {α : Type} {codec : Codec α} (h : codec.Lawful) {items : Items}
    {as : List α} (hread : readItems codec items = .ok as) : Draft.itemsFlaw? items = none := by
  fun_induction readItems codec items generalizing as with
  | case1 => rfl
  | case2 flaw => cases hread
  | case3 head tail ih =>
      obtain ⟨a, ha, hread⟩ := bind_eq_ok.1 hread
      obtain ⟨rest, hrest, -⟩ := bind_eq_ok.1 hread
      simp [Draft.itemsFlaw?, h.flawless _ _ ha, ih hrest]

theorem list_lawful {α : Type} {codec : Codec α} (h : codec.Lawful) : codec.list.Lawful where
  read_write as := readItems_draft h as
  flawless d as hread := by
    cases d with
    | array items => exact itemsFlaw?_of_readItems h hread
    | _ => cases hread

/-! ## Variants -/

theorem flaw?_of_readKey {d : Draft} {name : String} (h : d.readKey = .ok name) :
    ∃ q, d = .text q ∧ q.flaw? = none := by
  cases d with
  | text q =>
      simp only [Draft.readKey] at h
      split at h
      · rename_i hq
        exact ⟨q, rfl, Quoted.flaw?_of_text hq⟩
      · cases h
  | _ => cases h

theorem flaw?_of_readUnit {d : Draft} {u : Unit} (h : readUnit d = .ok u) : d.flaw? = none := by
  cases d with
  | null => rfl
  | _ => cases h

theorem flaw?_of_readVariant {α : Type} {variants : List (String × α)} {d : Draft} {a : α}
    (h : readVariant variants d = .ok a) : d.flaw? = none := by
  cases d with
  | text q =>
      simp only [readVariant] at h
      split at h
      · rename_i hq
        exact Quoted.flaw?_of_text hq
      · cases h
  | object members =>
      cases members with
      | next key value tail =>
          obtain ⟨name, hkey, hvariant⟩ := bind_eq_ok.1 h
          obtain ⟨b, -, hcontent⟩ := bind_eq_ok.1 hvariant
          obtain ⟨u, hunit, htail⟩ := bind_eq_ok.1 hcontent
          obtain ⟨q, rfl, hq⟩ := flaw?_of_readKey hkey
          cases tail with
          | done => simp [Draft.flaw?, Draft.membersFlaw?, hq, flaw?_of_readUnit hunit]
          | _ => cases htail
      | _ => cases h
  | _ => cases h

/-- A variant is read back if its name leads to it. -/
theorem variant_lawful {α : Type} {variants : List (String × α)} {name : α → String}
    (h : ∀ a, variants.lookup (name a) = some a) : (variant variants name).Lawful where
  read_write a := by
    simp [variant, readVariant, Value.draft, variantOf, h a]
  flawless _ _ := flaw?_of_readVariant

end Codec

end MachineAtlas.Json
