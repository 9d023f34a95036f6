-- SUMMARY: Codecs of records from their fields, in objects in any order or arrays in order.
import MachineAtlas.Json.Codec
/-!
# Record layouts

The fields of a record: their names and codecs, the value that a missing field stands for, and the
values that are left out when the record is written. A record is written as an object with its
fields in order, and read from an object in any order or from an array in order.
-/
namespace MachineAtlas.Json

/-- One field. `absent` is the value of a missing field, if it may be missing. -/
structure Field (α : Type) where
  name : String
  codec : Codec α
  absent : Option α := none
  omitted : α → Bool := fun _ => false

namespace Field

/-- A field that has to be there. -/
def required {α : Type} (name : String) (codec : Codec α) : Field α := { name, codec }

/-- A field that stands for `value` where it is missing, and is always written. -/
def default {α : Type} (name : String) (codec : Codec α) (value : α) : Field α :=
  { name, codec, absent := some value }

/-- A field that is left out where there is nothing to write. -/
def optional {α : Type} (name : String) (codec : Codec α) : Field (Option α) :=
  { name, codec := codec.option, absent := some none, omitted := Option.isNone }

/-- A list that is left out where it is empty. -/
def nonempty {α : Type} (name : String) (codec : Codec α) : Field (List α) :=
  { name, codec := codec.list, absent := some [], omitted := List.isEmpty }

end Field

/-- A value of each type of a list. -/
def Tuple : List Type → Type
  | [] => Unit
  | α :: rest => α × Tuple rest

/-- A value of each type of a list, where one has been found. -/
def Slots : List Type → Type
  | [] => Unit
  | α :: rest => Option α × Slots rest

/-- The fields of a record in order, indexed by the types of their values. -/
inductive Layout : List Type → Type 1 where
  | nil : Layout []
  | cons {α : Type} {rest : List Type} (field : Field α) (fields : Layout rest) :
      Layout (α :: rest)

namespace Layout

def count : {ts : List Type} → Layout ts → Nat
  | _, .nil => 0
  | _, .cons _ fields => fields.count + 1

def write : {ts : List Type} → Layout ts → Tuple ts → List (String × Value)
  | _, .nil, _ => []
  | _, .cons field fields, (a, r) =>
    if field.omitted a then fields.write r
    else (field.name, field.codec.write a) :: fields.write r

/-! ## Objects -/

/-- No field has been found. -/
def blank : {ts : List Type} → Layout ts → Slots ts
  | _, .nil => ()
  | _, .cons _ fields => (none, fields.blank)

/-- Reads the field of a name, if there is one, and puts it to those found so far. That a field
stands there twice is a fault before its value is looked at. -/
def store (name : String) (value : Draft) :
    {ts : List Type} → Layout ts → Slots ts → Except Fault (Option (Slots ts))
  | _, .nil, _ => .ok none
  | _, .cons field fields, (slot, found) =>
    if field.name = name then
      match slot with
      | some _ => .error (.duplicateField name)
      | none => do
        let a ← field.codec.read value
        pure (some (some a, found))
    else do
      let found ← fields.store name value found
      pure (found.map (slot, ·))

/-- The record of the fields found, the first missing one being at fault. -/
def close : {ts : List Type} → Layout ts → Slots ts → Except Fault (Tuple ts)
  | _, .nil, _ => .ok ()
  | _, .cons field fields, (slot, found) =>
    match slot.or field.absent with
    | some a => do
      let r ← fields.close found
      pure (a, r)
    | none => .error (.missingField field.name)

/-- Reads the members of an object, passing over those that are no fields. -/
def readMembers {ts : List Type} (layout : Layout ts) (found : Slots ts) :
    Members → Except Fault (Tuple ts)
  | .done => layout.close found
  | .stop flaw => .error (.flaw flaw)
  | .next key value tail => do
    let name ← key.readKey
    match ← layout.store name value found with
    | some found => layout.readMembers found tail
    | none => do
      passFlaw value.flaw?
      layout.readMembers found tail

/-! ## Arrays -/

/-- What follows the last field of a record that is read from an array. -/
def readEnd : Items → Except Fault Unit
  | .done => .ok ()
  | .stop flaw => .error (.flaw flaw)
  | .next .. => .error (.flaw .malformed)

/-- Reads the fields from the elements of an array, of which `index` precede. -/
def readItems (record : String) (total : Nat) :
    {ts : List Type} → Layout ts → Nat → Items → Except Fault (Tuple ts)
  | _, .nil, _, items => readEnd items
  | _, .cons field fields, index, .done =>
    match field.absent with
    | some a => do
      let r ← fields.readItems record total (index + 1) .done
      pure (a, r)
    | none => .error (.shortSequence index record total)
  | _, .cons _ _, _, .stop flaw => .error (.flaw flaw)
  | _, .cons field fields, index, .next head tail => do
    let a ← field.codec.read head
    let r ← fields.readItems record total (index + 1) tail
    pure (a, r)

/-! ## Records -/

def read {ts : List Type} (record : String) (layout : Layout ts) : Draft → Except Fault (Tuple ts)
  | .array items => layout.readItems record layout.count 0 items
  | .object members => layout.readMembers layout.blank members
  | d => .error (d.mismatch ("struct " ++ record))

end Layout

/-- The codec of a record type whose values are tuples of fields, packed. -/
def Codec.record {α : Type} {ts : List Type} (name : String) (layout : Layout ts)
    (unpack : α → Tuple ts) (pack : Tuple ts → α) : Codec α :=
  ⟨fun a => .object (layout.write (unpack a)), fun d => (layout.read name d).map pack⟩

end MachineAtlas.Json
