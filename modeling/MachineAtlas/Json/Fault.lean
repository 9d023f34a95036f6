-- SUMMARY: The reasons why a text is not the document of a wanted type, and their wording.
import MachineAtlas.Json.Draft
import MachineAtlas.Decimal.Shortest
import MachineAtlas.Text.Literal
/-!
# Faults

The reasons why a text is not the document of a wanted type, and their wording.
-/
namespace MachineAtlas.Json

open MachineAtlas.Decimal (Binary64)

/-- What stands where something else is wanted. -/
inductive Found where
  | null
  | boolean (b : Bool)
  | integer (n : Int)
  | decimal (negative : Bool) (magnitude : Binary64)
  | text (s : List Char)
  | sequence
  | map
  deriving DecidableEq, Repr

/-- A flaw of the text, or the first place at which a sound text does not fit the wanted type. -/
inductive Fault where
  | flaw (flaw : Flaw)
  | mismatch (found : Found) (expected : String)
  | outOfRange (n : Int) (expected : String)
  | missingField (name : String)
  | duplicateField (name : String)
  | shortSequence (length : Nat) (record : String) (fields : Nat)
  | unknownVariant (name : String) (variants : List String)
  deriving DecidableEq, Repr

def Found.message : Found → String
  | .null => "null"
  | .boolean b => "boolean `" ++ (if b then "true" else "false") ++ "`"
  | .integer n => "integer `" ++ toString n ++ "`"
  | .decimal negative x => "floating point `" ++ String.ofList (x.text negative) ++ "`"
  | .text s => "string " ++ String.ofList (Text.literal s)
  | .sequence => "sequence"
  | .map => "map"

/-- Names between grave accents, separated by commas. -/
def nameList (names : List String) : String :=
  ", ".intercalate (names.map fun name => "`" ++ name ++ "`")

/-- The wording of a fault. A flaw has none of its own: it is said in one word. -/
def Fault.message : Fault → String
  | .flaw .malformed => "malformed text"
  | .flaw .truncated => "truncated text"
  | .mismatch found expected => "invalid type: " ++ found.message ++ ", expected " ++ expected
  | .outOfRange n expected =>
    "invalid value: " ++ (Found.integer n).message ++ ", expected " ++ expected
  | .missingField name => "missing field `" ++ name ++ "`"
  | .duplicateField name => "duplicate field `" ++ name ++ "`"
  | .shortSequence length record fields =>
    "invalid length " ++ toString length ++ ", expected struct " ++ record ++ " with " ++
      toString fields ++ (if fields = 1 then " element" else " elements")
  | .unknownVariant name variants =>
    "unknown variant `" ++ name ++ "`, expected one of " ++ nameList variants

/-- The fault of a value of the wrong kind. A number or text is read to its end first, and a flaw
there counts. -/
def Draft.mismatch (expected : String) : Draft → Fault
  | .null => .mismatch .null expected
  | .boolean b => .mismatch (.boolean b) expected
  | .number n =>
    match n.quantity with
    | none => .flaw .malformed
    | some (.integer i) => .mismatch (.integer i) expected
    | some (.decimal negative x) => .mismatch (.decimal negative x) expected
  | .text q =>
    match q.text with
    | .error flaw => .flaw flaw
    | .ok s => .mismatch (.text s) expected
  | .array _ => .mismatch .sequence expected
  | .object _ => .mismatch .map expected
  | .cutNumber => .flaw .truncated
  | .missing => .flaw .truncated
  | .broken flaw => .flaw flaw

end MachineAtlas.Json
