-- SUMMARY: Codecs, which write values and read them from drafts, for the basic types and combinators.
import MachineAtlas.Json.Fault
import MachineAtlas.Json.Value
/-!
# Codecs

A codec writes the values of a type and reads them back from a draft. Reading visits the draft in
the order of its text and stops at the first fault.
-/
namespace MachineAtlas.Json

structure Codec (α : Type) where
  write : α → Value
  read : Draft → Except Fault α

/-- Raises a flaw of a part that is only looked at for flaws. -/
def passFlaw : Option Flaw → Except Fault Unit
  | none => .ok ()
  | some flaw => .error (.flaw flaw)

/-- Reads a whole text: one value, and nothing but white space after it. -/
def Codec.parse {α : Type} (codec : Codec α) (text : String) : Except Fault α := do
  let (draft, trailing) := Draft.ofText text.toList
  let value ← codec.read draft
  if trailing then throw (.flaw .malformed) else pure value

/-- The one-line text of a value. -/
def Codec.line {α : Type} (codec : Codec α) (a : α) : String := (codec.write a).line

/-! ## Scalars -/

namespace Draft

def readText (expected : String) : Draft → Except Fault String
  | .text q =>
    match q.text with
    | .ok s => .ok (String.ofList s)
    | .error flaw => .error (.flaw flaw)
  | d => .error (d.mismatch expected)

/-- The name of a member, which has to be a text. -/
def readKey : Draft → Except Fault String
  | .text q =>
    match q.text with
    | .ok s => .ok (String.ofList s)
    | .error flaw => .error (.flaw flaw)
  | .missing => .error (.flaw .truncated)
  | _ => .error (.flaw .malformed)

def readBoolean : Draft → Except Fault Bool
  | .boolean b => .ok b
  | d => .error (d.mismatch "a boolean")

/-- Reads an integer of a type with the bounds `low` and `high`. -/
def readInteger (expected : String) (low high : Int) : Draft → Except Fault { n : Int // low ≤ n ∧ n ≤ high }
  | .number n =>
    match n.quantity with
    | some (.integer i) =>
      if h : low ≤ i ∧ i ≤ high then .ok ⟨i, h⟩ else .error (.outOfRange i expected)
    | _ => .error ((Draft.number n).mismatch expected)
  | d => .error (d.mismatch expected)

end Draft

namespace Codec

def text : Codec String := ⟨.text, Draft.readText "a string"⟩

/-- A path is written as a text. -/
def path : Codec String := ⟨.text, Draft.readText "path string"⟩

def boolean : Codec Bool := ⟨.boolean, Draft.readBoolean⟩

def uint32 : Codec UInt32 :=
  ⟨fun n => .integer n.toNat,
   fun d => (d.readInteger "u32" 0 4294967295).map fun n => UInt32.ofNat n.1.toNat⟩

def uint64 : Codec UInt64 :=
  ⟨fun n => .integer n.toNat,
   fun d => (d.readInteger "u64" 0 18446744073709551615).map fun n => UInt64.ofNat n.1.toNat⟩

def int32 : Codec Int32 :=
  ⟨fun n => .integer n.toInt,
   fun d => (d.readInteger "i32" (-2147483648) 2147483647).map fun n => Int32.ofInt n.1⟩

def int64 : Codec Int64 :=
  ⟨fun n => .integer n.toInt,
   fun d =>
    (d.readInteger "i64" (-9223372036854775808) 9223372036854775807).map fun n => Int64.ofInt n.1⟩

/-! ## Options and lists -/

/-- Nothing is written as `null`. -/
def option {α : Type} (codec : Codec α) : Codec (Option α) where
  write
    | none => .null
    | some a => codec.write a
  read
    | .null => .ok none
    | d => (codec.read d).map some

def readItems {α : Type} (codec : Codec α) : Items → Except Fault (List α)
  | .done => .ok []
  | .stop flaw => .error (.flaw flaw)
  | .next head tail => do
    let a ← codec.read head
    let rest ← readItems codec tail
    pure (a :: rest)

def list {α : Type} (codec : Codec α) : Codec (List α) where
  write as := .array (as.map codec.write)
  read
    | .array items => readItems codec items
    | d => .error (d.mismatch "a sequence")

/-! ## Variants -/

/-- The variant of a name. -/
def variantOf {α : Type} (variants : List (String × α)) (name : String) : Except Fault α :=
  match variants.lookup name with
  | some a => .ok a
  | none => .error (.unknownVariant name (variants.map Prod.fst))

/-- A variant without content, which is spelled out as `null`. -/
def readUnit : Draft → Except Fault Unit
  | .null => .ok ()
  | d => .error (d.mismatch "unit")

/-- A variant is written as its name, and read from its name or from an object whose only member
has that name and no content. Nothing else has a form that could be a variant. -/
def readVariant {α : Type} (variants : List (String × α)) : Draft → Except Fault α
  | .text q =>
    match q.text with
    | .ok s => variantOf variants (String.ofList s)
    | .error flaw => .error (.flaw flaw)
  | .object (.next key value tail) => do
    let name ← key.readKey
    let a ← variantOf variants name
    readUnit value
    match tail with
    | .done => pure a
    | .stop flaw => throw (.flaw flaw)
    | .next .. => throw (.flaw .malformed)
  | .object (.stop flaw) => .error (.flaw flaw)
  | .missing => .error (.flaw .truncated)
  | _ => .error (.flaw .malformed)

def variant {α : Type} (variants : List (String × α)) (name : α → String) : Codec α :=
  ⟨fun a => .text (name a), readVariant variants⟩

end Codec

end MachineAtlas.Json
