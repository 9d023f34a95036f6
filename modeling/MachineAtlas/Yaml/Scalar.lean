-- SUMMARY: The spellings of a scalar: plain, quoted, and as a block of lines.
import MachineAtlas.Yaml.Cursor
/-!
# Scalars

The spellings of a scalar: plain, between quotation marks of two kinds, and as a block of lines. A
break between two lines of one scalar is folded into a blank unless more breaks follow it.
-/
namespace MachineAtlas.Yaml

inductive Style where
  | plain
  | quoted
  | literal
  | folded
  deriving DecidableEq, Repr

/-! ## Gaps -/

/-- White space inside a scalar: the blanks before a first break, that break, and those after it.
An escaped break counts as a break that leaves nothing. -/
structure Gap where
  blanks : List Char := []
  first : Option Char := none
  more : List Char := []
  broken : Bool := false
  deriving Repr

/-- What a gap leaves in the text. -/
def Gap.text (g : Gap) : List Char :=
  if ! g.broken then g.blanks
  else match g.first with
    | none => g.more
    | some '\n' => if g.more.isEmpty then [' '] else g.more
    | some c => c :: g.more

/-- Reads the white space of a gap. Blanks after a break are dropped; a tab among them is refused in
a column before `indent`. -/
def Gap.scan (indent : Nat) (g : Gap) (c : Cursor) : Nat → Option (Gap × Cursor)
  | 0 => none
  | fuel + 1 =>
    if Cursor.isBlank c.head then
      if g.broken then
        if c.column < indent ∧ c.head = '\t' then none else g.scan indent c.next fuel
      else Gap.scan indent { g with blanks := g.blanks ++ [c.head] } c.next fuel
    else if Cursor.isBreak c.head then
      if g.broken then
        Gap.scan indent { g with more := g.more ++ [c.breakChar] } c.nextLine fuel
      else
        Gap.scan indent { g with first := some c.breakChar, broken := true } c.nextLine fuel
    else some (g, c)

def gapAt (indent : Nat) (g : Gap) (c : Cursor) : Option (Gap × Cursor) :=
  g.scan indent c (c.rest.length + 1)

/-! ## Plain scalars -/

def isFlowMark (c : Char) : Bool := c == ',' || c == '[' || c == ']' || c == '{' || c == '}'

/-- The plain characters of a line, in a flow collection or outside. A colon in front of a mark of
flow collections is refused there. -/
def plainRun (flow : Bool) : List Char → Option (List Char)
  | [] => some []
  | c :: rest =>
    let next := rest.headD Cursor.ending
    if Cursor.isBlankOrEnd c then some []
    else if flow ∧ c = ':' ∧ (isFlowMark next ∨ next = '?') then none
    else if c = ':' ∧ Cursor.isBlankOrEnd next then some []
    else if flow ∧ isFlowMark c then some []
    else (plainRun flow rest).map (c :: ·)

/-- Goes on with a plain scalar after `text` and a gap. Gives the text, where it ends, and whether
breaks follow it. -/
def plainFrom (flow : Bool) (indent : Nat) (text : List Char) (gap : Gap) (c : Cursor) :
    Nat → Option (List Char × Cursor × Bool)
  | 0 => none
  | fuel + 1 =>
    if c.isBoundary || c.head == '#' then some (text, c, gap.broken)
    else do
      let run ← plainRun flow c.rest
      let (text, gap) := if run.isEmpty then (text, gap) else (text ++ gap.text ++ run, {})
      let c := c.skip run.length
      if Cursor.isBlank c.head || Cursor.isBreak c.head then
        let (gap, c) ← gapAt indent gap c
        if ¬ flow ∧ c.column < indent then pure (text, c, gap.broken)
        else plainFrom flow indent text gap c fuel
      else pure (text, c, gap.broken)

/-- Reads a plain scalar whose lines stand at `indent` or deeper. -/
def scanPlain (flow : Bool) (indent : Nat) (c : Cursor) : Option (List Char × Cursor × Bool) :=
  plainFrom flow indent [] {} c (c.rest.length + 1)

/-! ## Quoted scalars -/

def hexValue (c : Char) : Option Nat :=
  if '0' ≤ c ∧ c ≤ '9' then some (c.toNat - 48)
  else if 'a' ≤ c ∧ c ≤ 'f' then some (c.toNat - 87)
  else if 'A' ≤ c ∧ c ≤ 'F' then some (c.toNat - 55)
  else none

/-- The character of a hexadecimal number. -/
def hexChar (digits : List Char) : Option Char := do
  let n ← digits.foldlM (fun n c => do pure (n * 16 + (← hexValue c))) 0
  if n.isValidChar then some (Char.ofNat n) else none

/-- The character of a one-letter escape. -/
def escapeChar (c : Char) : Option Char :=
  [('0', '\x00'), ('a', '\x07'), ('b', '\x08'), ('t', '\t'), ('\t', '\t'), ('n', '\n'),
   ('v', '\x0b'), ('f', '\x0c'), ('r', '\r'), ('e', '\x1b'), (' ', ' '), ('\"', '\"'),
   ('/', '/'), ('\\', '\\'), ('N', '\x85'), ('_', '\xa0'), ('L', '\u2028'),
   ('P', '\u2029')].lookup c

/-- The number of digits of an escape that gives a character by number. -/
def escapeWidth (c : Char) : Option Nat := [('x', 2), ('u', 4), ('U', 8)].lookup c

/-- Reads what follows the opening mark of a quoted scalar. Escapes count only between double
marks, and a mark of the other kind stands for itself by being doubled. -/
def quotedFrom (double : Bool) (text : List Char) (c : Cursor) :
    Nat → Option (List Char × Cursor)
  | 0 => none
  | fuel + 1 =>
    if c.isBoundary || c.head == Cursor.ending then none
    else if c.head = (if double then '\"' else '\'') then
      if ¬ double ∧ c.peek 1 = '\'' then quotedFrom double (text ++ ['\'']) (c.skip 2) fuel
      else some (text, c.next)
    else if Cursor.isBlank c.head || Cursor.isBreak c.head then do
      let (gap, c) ← gapAt 0 {} c
      quotedFrom double (text ++ gap.text) c fuel
    else if double ∧ c.head = '\\' then
      let e := c.peek 1
      if Cursor.isBreak e then do
        let (gap, c) ← gapAt 0 { broken := true } c.next.nextLine
        quotedFrom double (text ++ gap.text) c fuel
      else match escapeChar e, escapeWidth e with
        | some x, _ => quotedFrom double (text ++ [x]) (c.skip 2) fuel
        | none, some width => do
          let digits := (c.rest.drop 2).take width
          if digits.length < width then none
          else quotedFrom double (text ++ [← hexChar digits]) (c.skip (2 + width)) fuel
        | none, none => none
    else quotedFrom double (text ++ [c.head]) c.next fuel

def scanQuoted (double : Bool) (c : Cursor) : Option (List Char × Cursor) :=
  quotedFrom double [] c.next (c.rest.length + 1)

/-! ## Block scalars -/

/-- What becomes of the breaks at the end of a block. -/
inductive Chomping where
  | strip
  | clip
  | keep
  deriving DecidableEq, Repr

def chompingOf (c : Char) : Option Chomping :=
  if c = '+' then some .keep else if c = '-' then some .strip else none

/-- The digit that gives the depth of a block, which is not zero. -/
def depthOf (c : Char) : Option (Option Nat) :=
  if '1' ≤ c ∧ c ≤ '9' then some (some (c.toNat - 48))
  else if c = '0' then none
  else some none

/-- The marks after the sign of a block, in either order. -/
def blockMarks (c : Cursor) : Option (Chomping × Option Nat × Cursor) :=
  match chompingOf c.head with
  | some chomping => do
    let c := c.next
    let depth ← depthOf c.head
    pure (chomping, depth, if depth.isSome then c.next else c)
  | none => do
    let depth ← depthOf c.head
    let c := if depth.isSome then c.next else c
    match chompingOf c.head with
    | some chomping => pure (chomping, depth, c.next)
    | none => pure (.clip, depth, c)

/-- Goes over blanks and a comment to the end of the line, where there may be nothing else. -/
def lineEnd (c : Cursor) : Option Cursor :=
  let c := c.skipWhile Cursor.isBlank
  let c := if c.head == '#' then c.skipWhile (fun x => ! Cursor.isBreakOrEnd x) else c
  if Cursor.isBreak c.head then some c.nextLine
  else if c.head == Cursor.ending then some c
  else none

/-- Reads empty lines of a block and the indentation of the next line, up to the depth of the block
if that is known. Gives the breaks and the deepest column seen. -/
def blockBreaks (depth : Option Nat) (breaks : List Char) (deepest : Nat) (c : Cursor) :
    Nat → Option (List Char × Nat × Cursor)
  | 0 => none
  | fuel + 1 =>
    let within (column : Nat) : Bool := match depth with
      | none => true
      | some d => column < d
    let spaces := (c.rest.takeWhile (· == ' ')).length
    let c := match depth with
      | none => c.skip spaces
      | some d => c.skip (min spaces (d - c.column))
    let deepest := max deepest c.column
    if within c.column && c.head == '\t' then none
    else if Cursor.isBreak c.head then
      blockBreaks depth (breaks ++ [c.breakChar]) deepest c.nextLine fuel
    else some (breaks, deepest, c)

/-- The lines of a block at depth `depth`. `last` is the break of the line before, `breaks` the ones
after it, and `spaced` says that it began with a blank. -/
def blockLines (folded : Bool) (depth : Nat) (text : List Char) (last : Option Char)
    (breaks : List Char) (spaced : Bool) (c : Cursor) :
    Nat → Option (List Char × Option Char × List Char × Cursor)
  | 0 => none
  | fuel + 1 =>
    if c.column = depth ∧ c.head ≠ Cursor.ending then do
      let spacedNow := Cursor.isBlank c.head
      let joint :=
        if folded ∧ last = some '\n' ∧ ¬ spaced ∧ ¬ spacedNow then
          if breaks.isEmpty then [' '] else []
        else last.toList
      let (run, c) := c.spanWhile fun x => ! Cursor.isBreakOrEnd x
      let last := if Cursor.isBreak c.head then some c.breakChar else none
      let after := if Cursor.isBreak c.head then c.nextLine else c
      let (more, _, c) ← blockBreaks (some depth) [] 0 after (after.rest.length + 1)
      blockLines folded depth (text ++ joint ++ breaks ++ run) last more spacedNow c fuel
    else some (text, last, breaks, c)

/-- Reads a block inside a collection at `indent`, which is `-1` outside all collections. -/
def scanBlock (folded : Bool) (indent : Int) (c : Cursor) : Option (List Char × Cursor) := do
  let (chomping, given, c) ← blockMarks c.next
  let c ← lineEnd c
  let depth := given.map fun d => if 0 ≤ indent then indent.toNat + d else d
  let (breaks, deepest, c) ← blockBreaks depth [] 0 c (c.rest.length + 1)
  let depth := depth.getD (max (max deepest (indent + 1).toNat) 1)
  let (text, last, breaks, c) ←
    blockLines folded depth [] none breaks false c (c.rest.length + 1)
  let tail := match chomping with
    | .strip => []
    | .clip => last.toList
    | .keep => last.toList ++ breaks
  pure (text ++ tail, c)

end MachineAtlas.Yaml
