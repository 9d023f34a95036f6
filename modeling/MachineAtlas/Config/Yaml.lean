-- SUMMARY: Reading a configuration from a YAML mapping.
import MachineAtlas.Config
import MachineAtlas.Yaml.Node
/-!
# Configurations in YAML

Reading a configuration from a mapping. Members that are no fields are passed over, and a field may
stand there once.
-/
namespace MachineAtlas.Config

open Yaml (Node Style)

/-! ## Fields -/

def nullWords : List String := ["null", "Null", "NULL", "~"]

def trueWords : List String := ["true", "True", "TRUE"]

def falseWords : List String := ["false", "False", "FALSE"]

/-- The full text of a standard tag. -/
def standardTag (name : String) : String := "tag:yaml.org,2002:" ++ name

/-- A word counts as a boolean where it is plain, or literal and tagged so. -/
def booleanOfNode? : Node → Option Bool
  | .scalar tag style text =>
    if style = .plain ∨ (style = .literal ∧ tag = some (standardTag "bool")) then
      if trueWords.contains text then some true
      else if falseWords.contains text then some false
      else none
    else none
  | _ => none

/-- A path is the text of a scalar of any kind. -/
def pathOfNode? : Node → Option String
  | .scalar _ _ text => some text
  | _ => none

/-- A plain null word, or nothing at all, is no path. Where a node is tagged, only the tag of null
makes it one, and then nothing but a null word may stand there. -/
def optionalPathOfNode? : Node → Option (Option String)
  | .scalar tag style text =>
    if style ≠ .plain then some (some text)
    else match tag with
      | none => some (if text.isEmpty ∨ nullWords.contains text then none else some text)
      | some tag =>
        if tag = standardTag "null" then if nullWords.contains text then some none else none
        else some (some text)
  | _ => none

/-! ## Mappings -/

/-- The fields found so far. -/
structure FoundFields where
  enabled : Option Bool := none
  output : Option String := none
  prettyPrintInstrs : Option Bool := none
  diagnostics : Option (Option String) := none

/-- Fills an empty slot. -/
def fillSlot {α : Type} (slot : Option α) (value : Option α) : Option (Option α) :=
  match slot, value with
  | none, some a => some (some a)
  | _, _ => none

def readMember (found : FoundFields) (key value : Node) : Option FoundFields := do
  match ← pathOfNode? key with
  | "enabled" => pure { found with enabled := ← fillSlot found.enabled (booleanOfNode? value) }
  | "output" => pure { found with output := ← fillSlot found.output (pathOfNode? value) }
  | "pretty_print_instrs" =>
    pure { found with
      prettyPrintInstrs := ← fillSlot found.prettyPrintInstrs (booleanOfNode? value) }
  | "diagnostics" =>
    pure { found with diagnostics := ← fillSlot found.diagnostics (optionalPathOfNode? value) }
  | _ => pure found

def FoundFields.config (found : FoundFields) : Config :=
  let c : Config := {}
  { enabled := found.enabled.getD c.enabled
    output := found.output.getD c.output
    prettyPrintInstrs := found.prettyPrintInstrs.getD c.prettyPrintInstrs
    diagnostics := found.diagnostics.getD c.diagnostics }

/-- The configuration that a node describes. A node without text is one without members. -/
def ofNode? : Node → Option Config
  | .mapping members => do
    let found ← members.foldlM (fun found (k, v) => readMember found k v) {}
    pure found.config
  | .scalar _ .plain "" => some {}
  | _ => none

/-- The configuration that a text describes. A text without document describes the default one. -/
def ofYaml? (text : String) : Option Config := do
  match ← Node.ofText? text with
  | .blank => pure {}
  | .document node => ofNode? node

end MachineAtlas.Config
