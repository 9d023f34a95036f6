-- SUMMARY: Operands, the names by which code refers to functions and blocks.
/-!
# Operands

The names by which code refers to functions and to blocks: a sigil and the name, between quotation
marks unless the name is an identifier or a number.
-/
namespace MachineAtlas.Operand

/-- The characters of identifiers other than digits. -/
def isIdentifierStart (c : Char) : Bool :=
  c.isAlpha || c == '-' || c == '$' || c == '.' || c == '_'

def isIdentifierChar (c : Char) : Bool := isIdentifierStart c || c.isDigit

def isIdentifier : List Char → Bool
  | [] => false
  | c :: cs => isIdentifierStart c && cs.all isIdentifierChar

def isNumeral (cs : List Char) : Bool := ! cs.isEmpty && cs.all Char.isDigit

def hexDigit (n : Nat) : Char := if n < 10 then Char.ofNat (48 + n) else Char.ofNat (55 + n)

/-- A byte that shows for itself is written so, any other one by number. -/
def quoteByte (b : UInt8) : List Char :=
  if b = 0x22 ∨ b = 0x5C ∨ b < 0x20 ∨ 0x7F ≤ b then
    ['\\', hexDigit (b.toNat / 16), hexDigit (b.toNat % 16)]
  else [Char.ofNat b.toNat]

/-- The bytes of a name between quotation marks. -/
def quote (name : List Char) : List Char :=
  '\"' :: (name.flatMap String.utf8EncodeChar).flatMap quoteByte ++ ['\"']

/-- The operand of a name, which is the name itself if it has its sigil already. -/
def render (sigil : Char) (name : List Char) : List Char :=
  if name.head? = some sigil then name
  else if isIdentifier name || isNumeral name then sigil :: name
  else sigil :: quote name

/-- The operand of a function. -/
def function (name : String) : String := String.ofList (render '@' name.toList)

/-- The operand of a block. -/
def block (label : String) : String := String.ofList (render '%' label.toList)

end MachineAtlas.Operand
