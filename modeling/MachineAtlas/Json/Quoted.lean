-- SUMMARY: Texts between quotation marks: writing them, and reading the pieces that spell them.
/-!
# Quoted texts

A text between quotation marks: how it is written, and how it is taken apart into the pieces that it
is spelled with. A piece that is a lone surrogate is no character, so the text of the pieces may
fail to exist although every piece is well formed.
-/
namespace MachineAtlas.Json

/-- A flawed text either holds something that no document holds, or ends too early. -/
inductive Flaw where
  | malformed
  | truncated
  deriving DecidableEq, Repr

/-- A character, or a 16-bit unit given by its number. -/
inductive Piece where
  | char (c : Char)
  | unit (code : Nat)
  deriving DecidableEq, Repr

/-- What follows the pieces: the closing mark, the end of the document, or a flaw. -/
inductive Ending where
  | closed
  | unterminated
  | spoiled (flaw : Flaw)
  deriving DecidableEq, Repr

/-- A text after its opening mark, as far as it can be read. -/
structure Quoted where
  pieces : List Piece
  ending : Ending
  deriving DecidableEq, Repr

namespace Quoted

/-! ## Writing -/

def hexDigit (n : Nat) : Char := if n < 10 then Char.ofNat (48 + n) else Char.ofNat (87 + n)

/-- The spelling of one character. Controls without a short form are given by number. -/
def escape (c : Char) : List Char :=
  if c = '\"' then ['\\', '\"']
  else if c = '\\' then ['\\', '\\']
  else if c = '\n' then ['\\', 'n']
  else if c = '\r' then ['\\', 'r']
  else if c = '\t' then ['\\', 't']
  else if c = '\x08' then ['\\', 'b']
  else if c = '\x0c' then ['\\', 'f']
  else if c.toNat < 0x20 then ['\\', 'u', '0', '0', hexDigit (c.toNat / 16), hexDigit (c.toNat % 16)]
  else [c]

/-- A text between its marks. -/
def encode (s : List Char) : List Char := '\"' :: s.flatMap escape ++ ['\"']

/-! ## Reading -/

def hexValue (c : Char) : Option Nat :=
  if '0' ≤ c ∧ c ≤ '9' then some (c.toNat - 48)
  else if 'a' ≤ c ∧ c ≤ 'f' then some (c.toNat - 87)
  else if 'A' ≤ c ∧ c ≤ 'F' then some (c.toNat - 55)
  else none

def hexUnit (a b c d : Char) : Option Nat := do
  let a ← hexValue a
  let b ← hexValue b
  let c ← hexValue c
  let d ← hexValue d
  pure (((a * 16 + b) * 16 + c) * 16 + d)

/-- The character that a one-letter escape stands for. -/
def shortEscape (c : Char) : Option Char :=
  if c = '\"' ∨ c = '\\' ∨ c = '/' then some c
  else if c = 'b' then some '\x08'
  else if c = 'f' then some '\x0c'
  else if c = 'n' then some '\n'
  else if c = 'r' then some '\r'
  else if c = 't' then some '\t'
  else none

/-- A unit given by number takes four bytes, and fewer than those are an early end whatever they
are. -/
def shortUnit (rest : List Char) : Flaw :=
  if (String.ofList rest).utf8ByteSize < 4 then .truncated else .malformed

/-- A quoted text and what follows it, if it is closed. -/
abbrev Scan := Quoted × Option (List Char)

def Scan.cons (p : Piece) (s : Scan) : Scan := (⟨p :: s.1.pieces, s.1.ending⟩, s.2)

def spoil (flaw : Flaw) : Scan := (⟨[], .spoiled flaw⟩, none)

/-- Takes apart the text after an opening mark. -/
def scan : List Char → Scan
  | [] => (⟨[], .unterminated⟩, none)
  | '\"' :: rest => (⟨[], .closed⟩, some rest)
  | '\\' :: 'u' :: a :: b :: c :: d :: rest =>
    match hexUnit a b c d with
    | some code => (scan rest).cons (.unit code)
    | none => spoil .malformed
  | '\\' :: 'u' :: short => spoil (shortUnit short)
  | '\\' :: c :: rest =>
    match shortEscape c with
    | some e => (scan rest).cons (.char e)
    | none => spoil .malformed
  | ['\\'] => spoil .truncated
  | c :: rest => if c.toNat < 0x20 then spoil .malformed else (scan rest).cons (.char c)

def isLeading (code : Nat) : Bool := 0xD800 ≤ code ∧ code ≤ 0xDBFF

def isTrailing (code : Nat) : Bool := 0xDC00 ≤ code ∧ code ≤ 0xDFFF

/-- The character that a leading and a trailing surrogate stand for together. -/
def surrogatePair (lead trail : Nat) : Char :=
  Char.ofNat (0x10000 + (lead - 0xD800) * 0x400 + (trail - 0xDC00))

def Ending.flaw? : Ending → Option Flaw
  | .closed => none
  | .unterminated => some .truncated
  | .spoiled flaw => some flaw

/-- The flaw of pieces that do not go on with a unit after a leading surrogate. -/
def unpaired : Ending → Flaw
  | .closed => .malformed
  | .unterminated => .truncated
  | .spoiled flaw => flaw

/-- The characters that the pieces spell: a surrogate counts only as one of a pair. -/
def join (ending : Ending) : List Piece → Except Flaw (List Char)
  | [] => match Ending.flaw? ending with
    | none => .ok []
    | some flaw => .error flaw
  | .char c :: rest => (join ending rest).map (c :: ·)
  | [.unit code] =>
    if isTrailing code then .error .malformed
    else if isLeading code then .error (unpaired ending)
    else (join ending []).map (Char.ofNat code :: ·)
  | .unit code :: .char c :: rest =>
    if isTrailing code ∨ isLeading code then .error .malformed
    else (join ending (.char c :: rest)).map (Char.ofNat code :: ·)
  | .unit code :: .unit next :: rest =>
    if isTrailing code then .error .malformed
    else if isLeading code then
      if isTrailing next then (join ending rest).map (surrogatePair code next :: ·)
      else .error .malformed
    else (join ending (.unit next :: rest)).map (Char.ofNat code :: ·)

/-- The text, or the first flaw in it. -/
def text (q : Quoted) : Except Flaw (List Char) := join q.ending q.pieces

/-- The first flaw of a text that is only passed over: its surrogates need no partners. -/
def flaw? (q : Quoted) : Option Flaw := Ending.flaw? q.ending

end Quoted

end MachineAtlas.Json
