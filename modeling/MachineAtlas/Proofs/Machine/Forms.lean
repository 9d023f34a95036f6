-- SUMMARY: Every form of a machine function is read as that function.
import MachineAtlas.Proofs.Machine.Wire
/-!
# Forms of machine functions

A document stands for a machine function if every record in it, at whatever depth, has its fields in
some order, lacks only fields that have the values of missing ones, and has besides only members
that are no fields. Every such document is read as the function that it stands for.
-/
namespace MachineAtlas

open Json (Codec Draft Form Members Number Quoted Tuple Value)
open Json.Codec (boolean_lawful int32_lawful int64_lawful text_lawful uint32_lawful uint64_lawful)
open Json.Form (list_lawful option_lawful record_lawful written written_lawful)

/-! ## Instructions and blocks -/

namespace Instr

def fields (i : Instr) : Tuple [UInt32, UInt32, InstrKind, List String] :=
  (i.opcode, i.flags, i.kind, i.operands, ())

def form : Form Instr :=
  .record layout
    (written .uint32, written .uint32, written InstrKind.codec, .list (written .text), ()) fields

theorem form_lawful : form.Lawful codec :=
  record_lawful layout_lawful
    ⟨written_lawful uint32_lawful, written_lawful uint32_lawful,
      written_lawful InstrKind.codec_lawful, list_lawful (written_lawful text_lawful), trivial⟩
    fun _ => rfl

end Instr

namespace Block

def fields (b : Block) : Tuple
    [Int32, String, Option String, Bool, List Instr, List (Option Int32), List (Option Int32)] :=
  (b.number, b.symbol, b.irLabel, b.addressTaken, b.instrs, b.preds, b.succs, ())

/-- The numbers of neighbours, with `null` for an edge without target. -/
def edgesForm : Form (List (Option Int32)) := .list (.option (written .int32))

def form : Form Block :=
  .record layout
    (written .int32, written .text, .option (written .text), written .boolean, .list Instr.form,
      edgesForm, edgesForm, ()) fields

theorem edgesForm_lawful : edgesForm.Lawful Codec.int32.option.list :=
  list_lawful (option_lawful (written_lawful int32_lawful) fun _ h => by cases h)

theorem form_lawful : form.Lawful codec :=
  record_lawful layout_lawful
    ⟨written_lawful int32_lawful, written_lawful text_lawful,
      option_lawful (written_lawful text_lawful) (fun _ h => by cases h),
      written_lawful boolean_lawful, list_lawful Instr.form_lawful, edgesForm_lawful,
      edgesForm_lawful, trivial⟩
    fun _ => rfl

end Block

/-! ## Frames -/

namespace StackObject

def fields (o : StackObject) : Tuple [Int64, Option UInt64, Bool] := (o.offset, o.size, o.fixed, ())

def form : Form StackObject :=
  .record layout (written .int64, .option (written .uint64), written .boolean, ()) fields

theorem form_lawful : form.Lawful codec :=
  record_lawful layout_lawful
    ⟨written_lawful int64_lawful,
      option_lawful (written_lawful uint64_lawful) (fun _ h => by cases h),
      written_lawful boolean_lawful, trivial⟩
    fun _ => rfl

end StackObject

namespace Frame

def fields (f : Frame) : Tuple
    [List StackObject, Bool, Bool, UInt64, Bool, Option Int32, Option Int32] :=
  (f.objects, f.frameAddressTaken, f.returnAddressTaken, f.stackSize, f.adjustsStack, f.savePoint,
    f.restorePoint, ())

def form : Form Frame :=
  .record layout
    (.list StackObject.form, written .boolean, written .boolean, written .uint64, written .boolean,
      .option (written .int32), .option (written .int32), ()) fields

theorem form_lawful : form.Lawful codec :=
  record_lawful layout_lawful
    ⟨list_lawful StackObject.form_lawful, written_lawful boolean_lawful,
      written_lawful boolean_lawful, written_lawful uint64_lawful, written_lawful boolean_lawful,
      option_lawful (written_lawful int32_lawful) (fun _ h => by cases h),
      option_lawful (written_lawful int32_lawful) (fun _ h => by cases h), trivial⟩
    fun _ => rfl

end Frame

/-! ## Modules and targets -/

namespace OwningModule

def fields (m : OwningModule) : Tuple [String, String] := (m.name, m.sourceFile, ())

def form : Form OwningModule := .record layout (written .text, written .text, ()) fields

theorem form_lawful : form.Lawful codec :=
  record_lawful layout_lawful
    ⟨written_lawful text_lawful, written_lawful text_lawful, trivial⟩ fun _ => rfl

end OwningModule

namespace Target

def fields (t : Target) : Tuple [String, OpcodeNames] := (t.triple, t.opcodeNames, ())

/-- The names of opcodes are a map and no record, and stand as they are written. -/
def form : Form Target := .record layout (written .text, written OpcodeNames.codec, ()) fields

theorem form_lawful : form.Lawful codec :=
  record_lawful layout_lawful
    ⟨written_lawful text_lawful, written_lawful OpcodeNames.codec_lawful, trivial⟩ fun _ => rfl

end Target

/-! ## Functions -/

namespace MachineFunction

def fields (f : MachineFunction) : Tuple
    [String, UInt32, Option String, Frame, List Block, Option OwningModule, Option Target] :=
  (f.name, f.number, f.operand, f.frame, f.blocks, f.owner, f.target, ())

def form : Form MachineFunction :=
  .record layout
    (written .text, written .uint32, .option (written .text), Frame.form, .list Block.form,
      .option OwningModule.form, .option Target.form, ()) fields

theorem form_lawful : form.Lawful codec :=
  record_lawful layout_lawful
    ⟨written_lawful text_lawful, written_lawful uint32_lawful,
      option_lawful (written_lawful text_lawful) (fun _ h => by cases h), Frame.form_lawful,
      list_lawful Block.form_lawful, option_lawful OwningModule.form_lawful (fun _ h => by cases h),
      option_lawful Target.form_lawful (fun _ h => by cases h), trivial⟩
    fun _ => rfl

/-- What is written for a function is a form of it, and every text of such a form is read as the
function, whatever the order of its fields, whichever of those with the values of missing ones it
lacks, and whatever else its objects hold. No form lacks a field that has to be there. -/
theorem parse_form (f : MachineFunction) :
    codec.parse (codec.line f) = .ok f ∧
    (form f (codec.write f).draft ∧ (codec.write f).draft.SpellsPadded (codec.line f).toList) ∧
    (∀ (d : Draft) (text : String), form f d → d.SpellsPadded text.toList →
      codec.parse text = .ok f) ∧
    (∀ d, form f d → ∃ members listed, d = .object members ∧ members.Lists listed ∧
      ∀ name ∈ layout.required, name ∈ listed.map Prod.fst) ∧
    layout.required = ["name"] ∧ Block.layout.required = ["number", "symbol"] ∧
    Instr.layout.required = ["opcode"] ∧ OwningModule.layout.required = ["name"] ∧
    Frame.layout.required = [] ∧ StackObject.layout.required = [] ∧
    Target.layout.required = [] := by
  have hline := form_lawful.spells_line f
  refine ⟨form_lawful.parse hline.1 hline.2, hline, fun d text hform hspells => ?_,
    fun d hform => Form.exists_required hform, rfl, rfl, rfl, rfl, rfl, rfl, rfl⟩
  exact form_lawful.parse hform hspells

/-! ## A loose text -/

def loose : MachineFunction := { name := "f", blocks := [{ number := 7, symbol := "b" }] }

/-- A text of `loose` with fewer fields than are written, in another order, a `null`, and a member
that is no field. -/
def looseText : String :=
  "\x7b\"x\":[-1.5E3, \x7b\x7d],\"blocks\":[\x7b\"symbol\":\"b\",\"number\":7\x7d]," ++
    "\"operand\":null,\"name\":\"f\"\x7d"

def looseKey (name : String) : Draft := .text (Quoted.ofChars name.toList)

def looseForeign : Draft :=
  .array (.next (.number ⟨true, [1], [5], some (false, [3])⟩) (.next (.object .done) .done))

def looseBlock : Draft :=
  .object <| .next (looseKey "symbol") (Value.text "b").draft <|
    .next (looseKey "number") (Value.integer 7).draft .done

def looseDraft : Draft :=
  .object <| .next (looseKey "x") looseForeign <|
    .next (looseKey "blocks") (.array (.next looseBlock .done)) <|
    .next (looseKey "operand") .null <|
    .next (looseKey "name") (Value.text "f").draft .done

theorem looseKey_padded (name : String) :
    (looseKey name).SpellsPadded (Value.textChars name) :=
  (Value.spells_text name).padded

theorem looseDraft_padded : looseDraft.SpellsPadded looseText.toList := by
  have hnone : Draft.Blank [] := fun _ hc => absurd hc List.not_mem_nil
  have hspace : Draft.Blank [' '] := by simp [Draft.Blank, Draft.isBlank]
  have hnumber : Draft.Spells (.number ⟨true, [1], [5], some (false, [3])⟩) _ :=
    .number (.mk (Number.spellsDigits_toDigits 1) (by simp)
      (.point (Number.spellsDigits_toDigits 5))
      (.mark (.inr rfl) .none (Number.spellsDigits_toDigits 3)))
  have hforeign : looseForeign.Spells _ :=
    .array (.next hnumber.padded (.last (.mk hspace hnone (.emptyObject hnone))))
  have hblock : looseBlock.Spells _ :=
    .object (.next (looseKey_padded _) (Value.text "b").spells_compact.padded
      (.last (looseKey_padded _) (Value.integer 7).spells_compact.padded))
  have hdraft : looseDraft.Spells _ :=
    .object (.next (looseKey_padded _) hforeign.padded
      (.next (looseKey_padded _) (Draft.Spells.array (.last hblock.padded)).padded
      (.next (looseKey_padded _) Draft.Spells.null.padded
      (.last (looseKey_padded _) (Value.text "f").spells_compact.padded))))
  -- The grammar has put the text together from its parts, and it is the text given.
  exact Eq.mp (congrArg looseDraft.SpellsPadded (by decide)) hdraft.padded

theorem looseBlock_form : Block.form { number := 7, symbol := "b" } looseBlock :=
  ⟨_, _, [("number", _), ("symbol", _)], [], rfl,
    .next (Quoted.text_ofChars _) (.next (Quoted.text_ofChars _) .done), .swap _ _ _,
    .inr ⟨_, _, rfl, rfl, .inr ⟨_, _, rfl, rfl,
      .inl ⟨rfl, .inl ⟨rfl, .inl ⟨rfl, .inl ⟨rfl, .inl ⟨rfl, rfl⟩⟩⟩⟩⟩⟩⟩,
    fun _ hm => absurd hm List.not_mem_nil⟩

def looseKept : List (String × Draft) :=
  [("name", (Value.text "f").draft), ("operand", .null),
    ("blocks", .array (.next looseBlock .done))]

theorem looseDraft_form : form loose looseDraft := by
  refine ⟨_, _, looseKept, [("x", looseForeign)], rfl,
    .next (Quoted.text_ofChars _) (.next (Quoted.text_ofChars _) (.next (Quoted.text_ofChars _)
      (.next (Quoted.text_ofChars _) .done))),
    List.reverse_perm (looseKept ++ [("x", looseForeign)]), ?_, ?_⟩
  · exact .inr ⟨_, _, rfl, rfl, .inl ⟨rfl, .inr ⟨_, _, rfl, rfl, .inl ⟨rfl, .inr ⟨_, _, rfl,
      ⟨_, rfl, .next looseBlock_form .done⟩, .inl ⟨rfl, .inl ⟨rfl, rfl⟩⟩⟩⟩⟩⟩⟩
  · intro m hm
    obtain rfl : m = ("x", looseForeign) := by simpa using hm
    decide

theorem parse_form_loose : codec.parse looseText = .ok loose :=
  (parse_form loose).2.2.1 looseDraft looseText looseDraft_form looseDraft_padded

end MachineFunction

end MachineAtlas
