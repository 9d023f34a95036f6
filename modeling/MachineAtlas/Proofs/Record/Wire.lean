-- SUMMARY: The codecs of records and their parts are lawful.
import MachineAtlas.Record.Wire
import MachineAtlas.Proofs.Json.Layout
/-!
# Records on the wire

The codec of records and those of its parts are lawful, so a record is read back from its line and
from no proper front of it.
-/
namespace MachineAtlas

open Json (Codec Field Layout)
open Json.Codec (boolean_lawful int32_lawful int64_lawful list_lawful record_lawful text_lawful
  uint32_lawful)
open Json.Field (optional_lawful required_lawful)

/-! ## Blocks -/

theorem Edge.codec_lawful : Edge.codec.Lawful := by
  refine record_lawful ?_ fun _ => rfl
  exact ⟨required_lawful _ int32_lawful, by decide, required_lawful _ text_lawful, by decide,
    trivial⟩

theorem Successor.codec_lawful : Successor.codec.Lawful := by
  refine record_lawful ?_ fun _ => rfl
  exact ⟨required_lawful _ int32_lawful, by decide, required_lawful _ text_lawful, by decide,
    required_lawful _ boolean_lawful, by decide, trivial⟩

theorem InstrRecord.codec_lawful : InstrRecord.codec.Lawful := by
  refine record_lawful ?_ fun _ => rfl
  exact ⟨required_lawful _ uint32_lawful, by decide, required_lawful _ boolean_lawful, by decide,
    required_lawful _ boolean_lawful, by decide, trivial⟩

theorem IrBlock.codec_lawful : IrBlock.codec.Lawful := by
  refine record_lawful ?_ fun _ => rfl
  exact ⟨required_lawful _ text_lawful, by decide, trivial⟩

theorem MachineBlock.codec_lawful : MachineBlock.codec.Lawful := by
  refine record_lawful ?_ fun _ => rfl
  exact ⟨required_lawful _ int32_lawful, by decide, required_lawful _ text_lawful, by decide,
    required_lawful _ boolean_lawful, by decide, required_lawful _ boolean_lawful, by decide,
    required_lawful _ boolean_lawful, by decide, required_lawful _ boolean_lawful, by decide,
    required_lawful _ boolean_lawful, by decide, required_lawful _ boolean_lawful, by decide,
    required_lawful _ (list_lawful Edge.codec_lawful), by decide,
    required_lawful _ (list_lawful Successor.codec_lawful), by decide,
    required_lawful _ (list_lawful InstrRecord.codec_lawful), by decide,
    optional_lawful _ (list_lawful text_lawful) (fun _ h => by cases h), by decide, trivial⟩

theorem BlockRecord.codec_lawful : BlockRecord.codec.Lawful := by
  refine record_lawful ?_ fun _ => rfl
  exact ⟨optional_lawful _ IrBlock.codec_lawful (fun _ h => by cases h), by decide,
    required_lawful _ MachineBlock.codec_lawful, by decide, trivial⟩

/-! ## Functions -/

theorem FrameSummary.codec_lawful : FrameSummary.codec.Lawful := by
  refine record_lawful ?_ fun _ => rfl
  exact ⟨required_lawful _ boolean_lawful, by decide, required_lawful _ boolean_lawful, by decide,
    required_lawful _ boolean_lawful, by decide, required_lawful _ boolean_lawful, by decide,
    required_lawful _ uint32_lawful, by decide, required_lawful _ uint32_lawful, by decide,
    required_lawful _ int64_lawful, by decide, required_lawful _ boolean_lawful, by decide, trivial⟩

theorem FunctionRecord.codec_lawful : FunctionRecord.codec.Lawful := by
  refine record_lawful ?_ fun _ => rfl
  exact ⟨required_lawful _ text_lawful, by decide, required_lawful _ text_lawful, by decide,
    required_lawful _ uint32_lawful, by decide, required_lawful _ boolean_lawful, by decide,
    optional_lawful _ text_lawful (fun _ h => by cases h), by decide,
    required_lawful _ FrameSummary.codec_lawful, by decide,
    required_lawful _ (list_lawful BlockRecord.codec_lawful), by decide, trivial⟩

theorem ModuleSummary.codec_lawful : ModuleSummary.codec.Lawful := by
  refine record_lawful ?_ fun _ => rfl
  exact ⟨required_lawful _ text_lawful, by decide, required_lawful _ text_lawful, by decide,
    required_lawful _ text_lawful, by decide, required_lawful _ text_lawful, by decide, trivial⟩

theorem Record.codec_lawful : Record.codec.Lawful := by
  refine record_lawful ?_ fun _ => rfl
  exact ⟨required_lawful _ FunctionRecord.codec_lawful, by decide,
    optional_lawful _ ModuleSummary.codec_lawful (fun _ h => by cases h), by decide, trivial⟩

end MachineAtlas
