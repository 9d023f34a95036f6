-- SUMMARY: Texts as tokens, among them those that only indentation shows.
import MachineAtlas.Yaml.Scalar
/-!
# Tokens

A text as tokens, among them those for the begin and end of collections that only indentation shows.
Whether something is the key of a mapping is known only at the colon after it, so the tokens of a
mapping and its key are then put in front of what has been read already.
-/
namespace MachineAtlas.Yaml

inductive Token where
  | versionDirective (major minor : Nat)
  | tagDirective (handle first : String)
  | documentStart
  | documentEnd
  | blockSequenceStart
  | blockMappingStart
  | blockEnd
  | flowSequenceStart
  | flowSequenceEnd
  | flowMappingStart
  | flowMappingEnd
  | blockEntry
  | flowEntry
  | key
  | value
  | alias (name : String)
  | anchor (name : String)
  | tag (handle suffix : String)
  | scalar (style : Style) (text : String)
  | streamEnd
  deriving DecidableEq, Repr

/-! ## Names -/

def isNameChar (c : Char) : Bool := c.isAlphanum || c == '_' || c == '-'

/-- The name of an anchor, which has to end where a name can. -/
def scanName (c : Cursor) : Option (String × Cursor) :=
  let (name, c) := c.next.spanWhile isNameChar
  let ends := Cursor.isBlankOrEnd c.head || ['?', ':', ',', ']', '}', '%', '@', '\x60'].contains c.head
  if name.isEmpty ∨ ¬ ends then none else some (String.ofList name, c)

def isTagChar (c : Char) : Bool := isNameChar c || ";/?:@&=+$.!~*\x27()".contains c

/-- The bytes that a tag spells with percent signs, and its other characters. -/
def tagBytes (brackets : Bool) (acc : List UInt8) (c : Cursor) : Nat → Option (List UInt8 × Cursor)
  | 0 => none
  | fuel + 1 =>
    if c.head = '%' then do
      let a ← hexValue (c.peek 1)
      let b ← hexValue (c.peek 2)
      tagBytes brackets (acc ++ [UInt8.ofNat (a * 16 + b)]) (c.skip 3) fuel
    else if isTagChar c.head || (brackets && (c.head == ',' || c.head == '[' || c.head == ']')) then
      tagBytes brackets (acc ++ String.utf8EncodeChar c.head) c.next fuel
    else some (acc, c)

/-- The text of a tag after a part of it that was read before. Some of it has to be there. -/
def scanTagText (brackets : Bool) (before : List Char) (isLong : Bool) (c : Cursor) :
    Option (String × Cursor) := do
  let (bytes, after) ← tagBytes brackets [] c (c.rest.length + 1)
  if bytes.isEmpty ∧ ¬ isLong then none
  else do
    let text ← String.fromUTF8? ⟨bytes.toArray⟩
    pure (String.ofList before ++ text, after)

/-- The handle of a tag: a mark, perhaps a name, perhaps a mark. -/
def scanHandle (c : Cursor) : Option (List Char × Cursor) :=
  if c.head = '!' then
    let (name, c) := c.next.spanWhile isNameChar
    if c.head = '!' then some ('!' :: name ++ ['!'], c.next) else some ('!' :: name, c)
  else none

/-- A tag: one written out between angles, one with a handle, or a local one. -/
def scanTag (flow : Bool) (c : Cursor) : Option (Token × Cursor) := do
  let (token, c) ←
    if c.peek 1 = '<' then do
      let (text, c) ← scanTagText true [] false (c.skip 2)
      if c.head = '>' then some (Token.tag "" text, c.next) else none
    else do
      let (handle, after) ← scanHandle c
      if 2 ≤ handle.length ∧ handle.getLast? = some '!' then do
        let (text, c) ← scanTagText false [] false after
        pure (Token.tag (String.ofList handle) text, c)
      else do
        let (text, c) ← scanTagText false handle.tail true after
        pure (if text.isEmpty then Token.tag "" "!" else Token.tag "!" text, c)
  if (flow ∧ c.head = ',') ∨ Cursor.isBlankOrEnd c.head then some (token, c) else none

/-! ## Directives -/

/-- A part of a version number, of nine digits at most. -/
def scanVersionPart (c : Cursor) : Option (Nat × Cursor) :=
  let (ds, c) := c.spanWhile Char.isDigit
  if ds.isEmpty ∨ 9 < ds.length then none
  else some (ds.foldl (fun n d => n * 10 + (d.toNat - 48)) 0, c)

def scanDirective (c : Cursor) : Option (Token × Cursor) := do
  let (name, c) := c.next.spanWhile isNameChar
  if name.isEmpty ∨ ¬ Cursor.isBlankOrEnd c.head then none
  else do
    let blanks := c.skipWhile Cursor.isBlank
    let (token, c) ←
      if name = ['Y', 'A', 'M', 'L'] then do
        let (major, c) ← scanVersionPart blanks
        if c.head = '.' then do
          let (minor, c) ← scanVersionPart c.next
          pure (Token.versionDirective major minor, c)
        else none
      else if name = ['T', 'A', 'G'] then do
        let (handle, c) ← scanHandle blanks
        if handle.getLast? = some '!' ∧ Cursor.isBlank c.head then do
          let (first, c) ← scanTagText true [] false (c.skipWhile Cursor.isBlank)
          if Cursor.isBlankOrEnd c.head then
            some (Token.tagDirective (String.ofList handle) first, c)
          else none
        else none
      else none
    let c ← lineEnd c
    pure (token, c)

/-! ## The scanner -/

/-- A place where a key may have begun. `needed` says that nothing but a key can stand there. -/
structure KeyPlace where
  token : Nat
  line : Nat
  column : Nat
  index : Nat
  needed : Bool
  deriving Repr

/-- The state of reading tokens. `keys` has a place for each open flow collection and one for the
text around them, the innermost first. `indents` are the columns of the open block collections, the
innermost first, and `indent` the column of the innermost. -/
structure Scanner where
  cursor : Cursor
  tokens : List Token := []
  keys : List (Option KeyPlace) := [none]
  indent : Int := -1
  indents : List Int := []
  keyAllowed : Bool := true
  deriving Repr

namespace Scanner

def inFlow (s : Scanner) : Bool := 1 < s.keys.length

def push (s : Scanner) (t : Token) : Scanner := { s with tokens := s.tokens ++ [t] }

/-- Puts a token in front of the token of a number. -/
def insert (s : Scanner) (n : Nat) (t : Token) : Scanner :=
  { s with tokens := s.tokens.take n ++ t :: s.tokens.drop n }

def setKey (s : Scanner) (k : Option KeyPlace) : Scanner := { s with keys := k :: s.keys.tail }

/-- Gives up the place of a key, unless a key is needed there. -/
def dropKey (s : Scanner) : Option Scanner :=
  match s.keys.head? with
  | some (some k) => if k.needed then none else some (s.setKey none)
  | _ => some s

/-- Remembers that a key may begin here. -/
def saveKey (s : Scanner) : Option Scanner :=
  if s.keyAllowed then do
    let s ← s.dropKey
    pure (s.setKey (some
      { token := s.tokens.length, line := s.cursor.line, column := s.cursor.column,
        index := s.cursor.index, needed := ! s.inFlow && s.indent == s.cursor.column }))
  else some s

/-- The longest key. -/
def keyLimit : Nat := 1024

/-- A key ends on the line where it begins. -/
def isStale (c : Cursor) (k : KeyPlace) : Bool :=
  k.line < c.line || k.index + keyLimit < c.index

/-- Gives up the places of keys that can no longer be keys. -/
def dropStale (s : Scanner) : Option Scanner := do
  let keys ← s.keys.mapM fun
    | none => some none
    | some k => if isStale s.cursor k then (if k.needed then none else some none) else some (some k)
  pure { s with keys }

/-- Opens a block collection at a column that is deeper than all open ones. -/
def roll (s : Scanner) (column : Nat) (place : Nat) (t : Token) : Scanner :=
  if ! s.inFlow && s.indent < column then
    { s.insert place t with indents := s.indent :: s.indents, indent := column }
  else s

/-- Closes the block collections that are deeper than a column. -/
def unrollFrom (column : Int) (s : Scanner) : List Int → Scanner
  | [] => s
  | outer :: rest =>
    if column < s.indent then
      unrollFrom column { s.push .blockEnd with indent := outer, indents := rest } rest
    else s

def unroll (s : Scanner) (column : Int) : Scanner :=
  if s.inFlow then s else unrollFrom column s s.indents

/-! ## Between tokens -/

/-- Goes over white space, comments and breaks. A tab counts only where no key can begin. -/
def skipSpace (s : Scanner) : Nat → Scanner
  | 0 => s
  | fuel + 1 =>
    let c := s.cursor
    if c.column = 0 ∧ c.head = '\ufeff' then skipSpace { s with cursor := c.next } fuel
    else if c.head = ' ' ∨ (c.head = '\t' ∧ (s.inFlow ∨ ¬ s.keyAllowed)) then
      skipSpace { s with cursor := c.next } fuel
    else if c.head = '#' then
      skipSpace { s with cursor := c.skipWhile fun x => ! Cursor.isBreakOrEnd x } fuel
    else if Cursor.isBreak c.head then
      skipSpace { s with cursor := c.nextLine, keyAllowed := s.keyAllowed || ! s.inFlow } fuel
    else s

/-! ## Kinds of token -/

/-- Pushes a token and goes on behind it. -/
def take (s : Scanner) (t : Token) (width : Nat) : Scanner :=
  { s.push t with cursor := s.cursor.skip width }

def finish (s : Scanner) : Option Scanner := do
  let s ← (s.unroll (-1)).dropKey
  pure (s.push .streamEnd)

def directive (s : Scanner) : Option Scanner := do
  let s ← (s.unroll (-1)).dropKey
  let (t, cursor) ← scanDirective s.cursor
  pure { s.push t with cursor, keyAllowed := false }

def boundary (s : Scanner) (t : Token) : Option Scanner := do
  let s ← (s.unroll (-1)).dropKey
  pure { s.take t 3 with keyAllowed := false }

def openFlow (s : Scanner) (t : Token) : Option Scanner := do
  let s ← s.saveKey
  pure { s.take t 1 with keys := none :: s.keys, keyAllowed := true }

def closeFlow (s : Scanner) (t : Token) : Option Scanner := do
  let s ← s.dropKey
  pure { s.take t 1 with keys := if s.inFlow then s.keys.tail else s.keys, keyAllowed := false }

def flowEntry (s : Scanner) : Option Scanner := do
  let s ← s.dropKey
  pure { s.take .flowEntry 1 with keyAllowed := true }

def blockEntry (s : Scanner) : Option Scanner := do
  if ! s.inFlow && ! s.keyAllowed then none
  else do
    let s ← (s.roll s.cursor.column s.tokens.length .blockSequenceStart).dropKey
    pure { s.take .blockEntry 1 with keyAllowed := true }

def explicitKey (s : Scanner) : Option Scanner := do
  if ! s.inFlow && ! s.keyAllowed then none
  else do
    let s ← (s.roll s.cursor.column s.tokens.length .blockMappingStart).dropKey
    pure { s.take .key 1 with keyAllowed := ! s.inFlow }

/-- The colon after a key, which makes what stands at its place a key, or one without. -/
def value (s : Scanner) : Option Scanner :=
  match s.keys.head? with
  | some (some k) =>
    let s := ((s.insert k.token .key).roll k.column k.token .blockMappingStart).setKey none
    some { s.take .value 1 with keyAllowed := false }
  | _ =>
    if ! s.inFlow && ! s.keyAllowed then none
    else
      let s := s.roll s.cursor.column s.tokens.length .blockMappingStart
      some { s.take .value 1 with keyAllowed := ! s.inFlow }

/-- A token that may be the begin of a key. -/
def inKey (s : Scanner) (scan : Cursor → Option (Token × Cursor)) : Option Scanner := do
  let s ← s.saveKey
  let (t, cursor) ← scan s.cursor
  pure { s.push t with cursor, keyAllowed := false }

def block (s : Scanner) (folded : Bool) : Option Scanner := do
  let s ← s.dropKey
  let (text, cursor) ← scanBlock folded s.indent s.cursor
  let style := if folded then Style.folded else Style.literal
  pure { s.push (.scalar style (String.ofList text)) with cursor, keyAllowed := true }

def quoted (s : Scanner) (double : Bool) : Option Scanner :=
  s.inKey fun c => do
    let (text, c) ← scanQuoted double c
    pure (.scalar .quoted (String.ofList text), c)

def plain (s : Scanner) : Option Scanner := do
  let s ← s.saveKey
  let (text, cursor, broken) ← scanPlain s.inFlow (s.indent + 1).toNat s.cursor
  pure { s.push (.scalar .plain (String.ofList text)) with cursor, keyAllowed := broken }

/-- Whether a plain scalar can begin here. -/
def beginsPlain (s : Scanner) : Bool :=
  let c := s.cursor.head
  let next := s.cursor.peek 1
  if c == '-' then ! Cursor.isBlank next
  else if c == '?' || c == ':' then ! s.inFlow && ! Cursor.isBlankOrEnd next
  else ! Cursor.isBlankOrEnd c && ! ",[]\x7b\x7d#&*!|>\x27\"%@\x60".contains c

/-- Reads the next token. -/
def step (s : Scanner) : Option Scanner := do
  let s ← (s.skipSpace (s.cursor.rest.length + 1)).dropStale
  let s := s.unroll s.cursor.column
  let c := s.cursor.head
  let next := s.cursor.peek 1
  if c = Cursor.ending then s.finish
  else if s.cursor.column = 0 ∧ c = '%' then s.directive
  else if s.cursor.isBoundary then s.boundary (if c = '-' then .documentStart else .documentEnd)
  else if c = '[' then s.openFlow .flowSequenceStart
  else if c = '{' then s.openFlow .flowMappingStart
  else if c = ']' then s.closeFlow .flowSequenceEnd
  else if c = '}' then s.closeFlow .flowMappingEnd
  else if c = ',' then s.flowEntry
  else if c = '-' ∧ Cursor.isBlankOrEnd next then s.blockEntry
  else if c = '?' ∧ (s.inFlow ∨ Cursor.isBlankOrEnd next) then s.explicitKey
  else if c = ':' ∧ (s.inFlow ∨ Cursor.isBlankOrEnd next) then s.value
  else if c = '*' then s.inKey fun c => do
    let (name, c) ← scanName c
    pure (.alias name, c)
  else if c = '&' then s.inKey fun c => do
    let (name, c) ← scanName c
    pure (.anchor name, c)
  else if c = '!' then s.inKey (scanTag s.inFlow)
  else if c = '|' ∧ ¬ s.inFlow then s.block false
  else if c = '>' ∧ ¬ s.inFlow then s.block true
  else if c = '\'' then s.quoted false
  else if c = '\"' then s.quoted true
  else if s.beginsPlain then s.plain
  else none

def run (s : Scanner) : Nat → Option (List Token)
  | 0 => none
  | fuel + 1 => do
    let s ← s.step
    if s.tokens.getLast? = some .streamEnd then pure s.tokens else s.run fuel

end Scanner

/-- A character that a text may hold. -/
def isTextChar (c : Char) : Bool :=
  let n := c.toNat
  n == 0x9 || n == 0xA || n == 0xD || (0x20 ≤ n && n ≤ 0x7E) || n == 0x85 ||
    (0xA0 ≤ n && n ≤ 0xD7FF) || (0xE000 ≤ n && n ≤ 0xFFFD) || 0x10000 ≤ n

/-- The tokens of a text, if it is made of tokens. -/
def Token.ofText? (s : String) : Option (List Token) :=
  let cs := s.toList
  if cs.all isTextChar then ({ cursor := { rest := cs } } : Scanner).run (cs.length + 2) else none

end MachineAtlas.Yaml
