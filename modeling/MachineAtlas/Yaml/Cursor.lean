-- SUMMARY: A place in a text that is read by lines and columns.
/-!
# Cursors

A place in a text that is read by lines and columns.
-/
namespace MachineAtlas.Yaml

/-- What is left of a text, and where that begins. -/
structure Cursor where
  rest : List Char
  line : Nat := 0
  column : Nat := 0
  index : Nat := 0
  deriving Repr

namespace Cursor

/-- The end of the text, as a character. -/
def ending : Char := '\x00'

/-- The character `n` places on. -/
def peek (c : Cursor) (n : Nat) : Char := c.rest.getD n ending

def head (c : Cursor) : Char := c.peek 0

def isBlank (c : Char) : Bool := c == ' ' || c == '\t'

def isBreak (c : Char) : Bool :=
  c == '\n' || c == '\r' || c == '\x85' || c == '\u2028' || c == '\u2029'

def isBreakOrEnd (c : Char) : Bool := isBreak c || c == ending

def isBlankOrEnd (c : Char) : Bool := isBlank c || isBreakOrEnd c

/-- One character on. -/
def next (c : Cursor) : Cursor :=
  { c with rest := c.rest.tail, column := c.column + 1, index := c.index + 1 }

/-- Several characters of one line on. -/
def skip (c : Cursor) (n : Nat) : Cursor :=
  { c with rest := c.rest.drop n, column := c.column + n, index := c.index + n }

/-- Goes to the next line, over a break that is one character or two. -/
def nextLine (c : Cursor) : Cursor :=
  let width := if c.peek 0 == '\r' && c.peek 1 == '\n' then 2 else 1
  { rest := c.rest.drop width, line := c.line + 1, column := 0, index := c.index + width }

/-- What a break stands for: most breaks are the same. -/
def breakChar (c : Cursor) : Char :=
  if c.head == '\u2028' || c.head == '\u2029' then c.head else '\n'

/-- Goes on while the characters of the line satisfy a condition. -/
def skipWhile (c : Cursor) (p : Char → Bool) : Cursor :=
  c.skip (c.rest.takeWhile p).length

/-- The characters of the line that satisfy a condition. -/
def spanWhile (c : Cursor) (p : Char → Bool) : List Char × Cursor :=
  (c.rest.takeWhile p, c.skipWhile p)

/-- A document begins or ends here. -/
def isBoundary (c : Cursor) : Bool :=
  c.column == 0 && (c.rest.take 3 == ['-', '-', '-'] || c.rest.take 3 == ['.', '.', '.']) &&
    isBlankOrEnd (c.peek 3)

end Cursor

end MachineAtlas.Yaml
