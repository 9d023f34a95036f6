-- SUMMARY: The forms that a value may have in a document, each of which is read as the value.
import MachineAtlas.Json.Layout
import MachineAtlas.Proofs.Json.Codec
/-!
# Forms

A value may stand in a document in other forms than the one it is written in. The object of a record
may have its fields in any order, without those that stand for their missing values, and with
members between them that are no fields; the same goes for the records inside it.
-/
namespace MachineAtlas.Json

/-- The drafts that stand for each value of a type. -/
abbrev Form (α : Type) := α → Draft → Prop

namespace Form

variable {α : Type}

/-- Only the draft of what is written stands for a value. -/
def written (codec : Codec α) : Form α := fun a d => d = (codec.write a).draft

/-- A text may be spelled with or without escapes. -/
def spelled : Form String := fun s d => ∃ q : Quoted, d = .text q ∧ q.text = .ok s.toList

/-- Nothing is `null`, and something stands in its own form. -/
def option (form : Form α) : Form (Option α)
  | none, d => d = .null
  | some a, d => form a d

end Form

/-- The elements stand in their forms for the values of a list. -/
inductive Items.Lists {α : Type} (form : Form α) : Items → List α → Prop where
  | done : Items.Lists form .done []
  | next {d : Draft} {items : Items} {a : α} {as : List α} (head : form a d)
      (tail : Items.Lists form items as) : Items.Lists form (.next d items) (a :: as)

def Form.list {α : Type} (form : Form α) : Form (List α) := fun as d =>
  ∃ items, d = .array items ∧ items.Lists form as

/-! ## Records -/

/-- The names and values of the members in order, whatever the names are spelled like. -/
inductive Members.Lists : Members → List (String × Draft) → Prop where
  | done : Members.Lists .done []
  | next {q : Quoted} {name : String} {d : Draft} {members : Members} {rest : List (String × Draft)}
      (key : q.text = .ok name.toList) (tail : Members.Lists members rest) :
      Members.Lists (.next (.text q) d members) ((name, d) :: rest)

/-- A form for each type of a list. -/
def Forms : List Type → Type
  | [] => Unit
  | α :: rest => Form α × Forms rest

namespace Layout

/-- The names of the fields in order. -/
def names : {ts : List Type} → Layout ts → List String
  | _, .nil => []
  | _, .cons field fields => field.name :: fields.names

/-- The names of the fields that have to be there. -/
def required : {ts : List Type} → Layout ts → List String
  | _, .nil => []
  | _, .cons field fields =>
    if field.absent.isNone then field.name :: fields.required else fields.required

/-- The members that a record leaves of its fields. A field that stands for its missing value may be
dropped, and every other one has a member with its value in a form of it. -/
def Leaves : {ts : List Type} → Layout ts → Forms ts → Tuple ts → List (String × Draft) → Prop
  | _, .nil, _, _, kept => kept = []
  | _, .cons field fields, (form, forms), (a, r), kept =>
    (field.absent = some a ∧ fields.Leaves forms r kept) ∨
      ∃ d rest, kept = (field.name, d) :: rest ∧ form a d ∧ fields.Leaves forms r rest

/-- The drafts that each field reads as its value. -/
def reading : {ts : List Type} → Layout ts → Forms ts
  | _, .nil => ()
  | _, .cons field fields => (fun a d => field.codec.read d = .ok a, fields.reading)

end Layout

/-- An object of what the fields leave and of any members that are no fields, in any order. -/
def Form.record {α : Type} {ts : List Type} (layout : Layout ts) (forms : Forms ts)
    (unpack : α → Tuple ts) : Form α := fun a d =>
  ∃ members listed kept foreign, d = .object members ∧ members.Lists listed ∧
    listed.Perm (kept ++ foreign) ∧ layout.Leaves forms (unpack a) kept ∧
    ∀ m ∈ foreign, m.1 ∉ layout.names

/-- A record drops no field that has to be there. -/
theorem Layout.mem_of_required {ts : List Type} {layout : Layout ts} {forms : Forms ts}
    {t : Tuple ts} {kept : List (String × Draft)} (h : layout.Leaves forms t kept) {name : String}
    (hname : name ∈ layout.required) : name ∈ kept.map Prod.fst := by
  induction layout generalizing kept with
  | nil => cases hname
  | cons field fields ih =>
      obtain ⟨form, forms⟩ := forms
      obtain ⟨a, r⟩ := t
      unfold required at hname
      rcases h with ⟨habsent, hrest⟩ | ⟨d, rest, rfl, -, hrest⟩
      · rw [habsent, if_neg (by simp)] at hname
        exact ih hrest hname
      · rw [List.map_cons, List.mem_cons]
        split at hname
        · exact (List.mem_cons.1 hname).imp_right (ih hrest)
        · exact .inr (ih hrest hname)

/-- Every form of a record has a member for each field that has to be there. -/
theorem Form.exists_required {α : Type} {ts : List Type} {layout : Layout ts} {forms : Forms ts}
    {unpack : α → Tuple ts} {a : α} {d : Draft} (h : Form.record layout forms unpack a d) :
    ∃ members listed, d = .object members ∧ members.Lists listed ∧
      ∀ name ∈ layout.required, name ∈ listed.map Prod.fst := by
  obtain ⟨members, listed, kept, foreign, rfl, hlists, hperm, hleaves, -⟩ := h
  refine ⟨members, listed, rfl, hlists, fun name hname => ?_⟩
  rw [(hperm.map Prod.fst).mem_iff, List.map_append]
  exact List.mem_append_left _ (Layout.mem_of_required hleaves hname)

/-! ## Laws -/

namespace Form

/-- What is written has the form, and the codec reads whatever has it and has no flaw. -/
structure Lawful {α : Type} (form : Form α) (codec : Codec α) : Prop where
  written : ∀ a, form a (codec.write a).draft
  read : ∀ a d, form a d → d.flaw? = none → codec.read d = .ok a

section

variable {α : Type} {form : Form α} {codec : Codec α}

theorem written_lawful (h : codec.Lawful) : (written codec).Lawful codec where
  written _ := rfl
  read a d hform _ := by
    rw [hform]
    exact h.read_write a

theorem spelled_lawful (expected : String) :
    spelled.Lawful ⟨.text, Draft.readText expected⟩ where
  written s := ⟨Quoted.ofChars s.toList, rfl, Quoted.text_ofChars s.toList⟩
  read s d hform _ := by
    obtain ⟨q, rfl, hq⟩ := hform
    simp only [Draft.readText, hq, String.ofList_toList]

/-- An option is told from nothing if `null` is read as no value. -/
theorem option_lawful (h : form.Lawful codec) (hnull : ∀ a, codec.read .null ≠ .ok a) :
    form.option.Lawful codec.option where
  written
    | none => rfl
    | some a => h.written a
  read
    | none, d, hform, _ => by
      rw [show d = .null from hform]
      rfl
    | some a, d, hform, hflaw => by
      have hread : codec.read d = .ok a := h.read a d hform hflaw
      have hne : d ≠ .null := by
        rintro rfl
        exact hnull a hread
      rw [Codec.option_read_of_ne hne, hread]
      rfl

theorem readItems_of_lists (h : form.Lawful codec) {items : Items} {as : List α}
    (hlists : items.Lists form as) (hflaw : Draft.itemsFlaw? items = none) :
    Codec.readItems codec items = .ok as := by
  induction hlists with
  | done => rfl
  | next head tail ih =>
      simp only [Draft.itemsFlaw?, Option.or_eq_none_iff] at hflaw
      simp only [Codec.readItems, h.read _ _ head hflaw.1, ih hflaw.2]
      rfl

theorem list_lawful (h : form.Lawful codec) : form.list.Lawful codec.list where
  written as := by
    refine ⟨_, rfl, ?_⟩
    induction as with
    | nil => exact .done
    | cons a as ih => exact .next (h.written a) ih
  read as d hform hflaw := by
    obtain ⟨items, rfl, hlists⟩ := hform
    exact readItems_of_lists h hlists hflaw

/-- A text that spells a form of a value is read as that value. -/
theorem Lawful.parse (h : form.Lawful codec) {a : α} {d : Draft} (hform : form a d) {text : String}
    (hspells : Draft.SpellsPadded d text.toList) : codec.parse text = .ok a := by
  have hread := h.read a d hform hspells.flaw?_eq
  rw [Codec.parse, Draft.ofText_of_spells hspells]
  simp [hread, bind, Except.bind, pure, Except.pure]

/-- The text that is written spells a form of the value. -/
theorem Lawful.spells_line (h : form.Lawful codec) (a : α) :
    form a (codec.write a).draft ∧
      Draft.SpellsPadded (codec.write a).draft (codec.line a).toList := by
  refine ⟨h.written a, ?_⟩
  rw [Codec.line, Value.line, String.toList_ofList]
  exact (codec.write a).spells_compact.padded

end

end Form

end MachineAtlas.Json
