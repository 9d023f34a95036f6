-- SUMMARY: Files as lines with one document each, and the walk of a visitor over them.
import MachineAtlas.Files.System
import MachineAtlas.Json.Codec
/-!
# Lines

A file as lines with one document each. Blank lines are passed over but counted, and the first line
that is no text, does not parse or is refused by its visitor ends the walk.
-/
namespace MachineAtlas

/-! ## Blank texts -/

namespace Text

/-- The code points of white space as Unicode has it, as ascending ranges with both ends included.
These are more than what separates the tokens of a document. -/
def blankRanges : List (Nat × Nat) :=
  [(0x9, 0xD), (0x20, 0x20), (0x85, 0x85), (0xA0, 0xA0), (0x1680, 0x1680), (0x2000, 0x200A),
   (0x2028, 0x2029), (0x202F, 0x202F), (0x205F, 0x205F), (0x3000, 0x3000)]

def isBlankChar (c : Char) : Bool :=
  blankRanges.any fun (first, last) => first ≤ c.toNat && c.toNat ≤ last

/-- The text holds nothing but white space. -/
def isBlank (s : String) : Bool := s.toList.all isBlankChar

end Text

namespace Lines

/-! ## Splitting -/

def newline : UInt8 := 0x0A

def carriageReturn : UInt8 := 0x0D

/-- Puts a byte in front of the first line. -/
def pushFront (b : UInt8) (lines : List Bytes) : List Bytes :=
  if b = newline then [b] :: lines
  else match lines with
    | [] => [[b]]
    | line :: rest => (b :: line) :: rest

/-- The lines of a file, each with the newline that ends it. -/
def split (content : Bytes) : List Bytes := content.foldr pushFront []

/-- A line without its end: a newline, with a carriage return before it if there is one. -/
def chomp (line : Bytes) : Bytes :=
  match line.reverse with
  | 0x0A :: 0x0D :: rest => rest.reverse
  | 0x0A :: rest => rest.reverse
  | _ => line

/-! ## Visiting -/

/-- Why a walk over lines ends early. Lines are counted from one. -/
inductive Fault (ε : Type) where
  | unreadable (io : IoFault)
  | malformed (line : Nat) (fault : Json.Fault)
  | refused (e : ε)
  deriving Repr

variable {α σ ε : Type}

/-- Hands the value of each line to a visitor with a state, and counts the values. `number` lines
come before these and `count` values were visited. -/
def visitFrom (codec : Json.Codec α) (visit : σ → α → σ × Except ε Unit) (number count : Nat)
    (s : σ) : List Bytes → σ × Except (Fault ε) Nat
  | [] => (s, .ok count)
  | line :: rest =>
    match bytesText? line with
    | none => (s, .error (.unreadable .notText))
    | some _ =>
      let text := (bytesText? (chomp line)).getD ""
      if Text.isBlank text then visitFrom codec visit (number + 1) count s rest
      else match codec.parse text with
        | .error fault => (s, .error (.malformed (number + 1) fault))
        | .ok a =>
          match visit s a with
          | (s, .error e) => (s, .error (.refused e))
          | (s, .ok ()) => visitFrom codec visit (number + 1) (count + 1) s rest

/-- Hands the value of each line of a file to a visitor. -/
def visit (codec : Json.Codec α) (visitor : σ → α → σ × Except ε Unit) (s : σ) (content : Bytes) :
    σ × Except (Fault ε) Nat :=
  visitFrom codec visitor 0 0 s (split content)

end Lines

end MachineAtlas
