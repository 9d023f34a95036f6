-- SUMMARY: The values that are written as documents, and the two layouts of their text.
import MachineAtlas.Json.Quoted
/-!
# Values and their text

The values that are written as documents, and the two layouts of their text: on one line without
blanks, and with one member or element per line.
-/
namespace MachineAtlas.Json

/-- A value to be written. The members of an object are written in the order they have here. -/
inductive Value where
  | null
  | boolean (b : Bool)
  | integer (n : Int)
  | text (s : String)
  | array (items : List Value)
  | object (members : List (String × Value))
  deriving Repr, Inhabited

namespace Value

def booleanText (b : Bool) : List Char := if b then "true".toList else "false".toList

def textChars (s : String) : List Char := Quoted.encode s.toList

def integerText (n : Int) : List Char := (toString n).toList

/-! ## On one line -/

mutual

/-- The text of a value on one line, without blanks. -/
def compact : Value → List Char
  | .null => "null".toList
  | .boolean b => booleanText b
  | .integer n => integerText n
  | .text s => textChars s
  | .array items => '[' :: compactItems items ++ [']']
  | .object members => '{' :: compactMembers members ++ ['}']

def compactItems : List Value → List Char
  | [] => []
  | [v] => compact v
  | v :: rest => compact v ++ ',' :: compactItems rest

def compactMembers : List (String × Value) → List Char
  | [] => []
  | [(k, v)] => textChars k ++ ':' :: compact v
  | (k, v) :: rest => textChars k ++ ':' :: compact v ++ ',' :: compactMembers rest

end

/-- The one-line text as a string. -/
def line (v : Value) : String := String.ofList v.compact

/-! ## One entry per line -/

def newline (depth : Nat) : List Char := '\n' :: List.replicate (2 * depth) ' '

mutual

/-- The text of a value with an entry per line, two blanks deeper at each level. -/
def spread (depth : Nat) : Value → List Char
  | .null => "null".toList
  | .boolean b => booleanText b
  | .integer n => integerText n
  | .text s => textChars s
  | .array [] => ['[', ']']
  | .array (v :: rest) =>
    '[' :: spreadItems (depth + 1) (v :: rest) ++ newline depth ++ [']']
  | .object [] => ['{', '}']
  | .object (m :: rest) =>
    '{' :: spreadMembers (depth + 1) (m :: rest) ++ newline depth ++ ['}']

def spreadItems (depth : Nat) : List Value → List Char
  | [] => []
  | [v] => newline depth ++ spread depth v
  | v :: rest => newline depth ++ spread depth v ++ ',' :: spreadItems depth rest

def spreadMembers (depth : Nat) : List (String × Value) → List Char
  | [] => []
  | [(k, v)] => newline depth ++ textChars k ++ ':' :: ' ' :: spread depth v
  | (k, v) :: rest =>
    newline depth ++ textChars k ++ ':' :: ' ' :: spread depth v ++ ',' :: spreadMembers depth rest

end

/-- The indented text as a string. -/
def pretty (v : Value) : String := String.ofList (v.spread 0)

/-! ## Maps -/

/-- A map cannot be written if one of its keys is neither a text nor an integer nor a boolean. -/
inductive KeyFault where
  | composite
  deriving DecidableEq, Repr

def KeyFault.message : KeyFault → String
  | .composite => "key must be a string"

/-- The name under which a key is written. -/
def keyText? : Value → Except KeyFault String
  | .text s => .ok s
  | .integer n => .ok (String.ofList (integerText n))
  | .boolean b => .ok (String.ofList (booleanText b))
  | _ => .error .composite

/-- The object that a map from values to values is written as. -/
def ofMap (entries : List (Value × Value)) : Except KeyFault Value := do
  let members ← entries.mapM fun (k, v) => do pure (← keyText? k, v)
  pure (.object members)

end Value

end MachineAtlas.Json
