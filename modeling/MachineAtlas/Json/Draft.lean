-- SUMMARY: Drafts, what a text says up to where it goes wrong, and the reader that makes them.
import MachineAtlas.Json.Number
import MachineAtlas.Json.Quoted
/-!
# Drafts

What a text says, as far as it can be read. Where the text goes wrong its draft ends in a leaf that
says how, so that whoever walks a draft in the order of the text meets each flaw where it stands.
-/
namespace MachineAtlas.Json

mutual

/-- A value as spelled. `cutNumber` is a number that the text ends inside of, `missing` the end of
the text where a value has to start. -/
inductive Draft where
  | null
  | boolean (b : Bool)
  | number (n : Number)
  | text (q : Quoted)
  | array (items : Items)
  | object (members : Members)
  | cutNumber
  | missing
  | broken (flaw : Flaw)

/-- The elements of an array. `stop` is a flaw in place of a comma or the closing bracket. -/
inductive Items where
  | done
  | stop (flaw : Flaw)
  | next (head : Draft) (tail : Items)

/-- The members of an object. A key is a draft too, as it may be anything in a flawed text. -/
inductive Members where
  | done
  | stop (flaw : Flaw)
  | next (key value : Draft) (tail : Members)

end

namespace Draft

instance : Inhabited Draft := ⟨.null⟩

/-! ## Tokens -/

/-- White space between tokens. -/
def isBlank (c : Char) : Bool := c == ' ' || c == '\t' || c == '\n' || c == '\r'

def skipBlanks (cs : List Char) : List Char := cs.dropWhile isBlank

/-- A draft and, if reading can go on, what follows it. -/
abbrev Scan := Draft × Option (List Char)

def flawed (flaw : Flaw) : Scan := (.broken flaw, none)

/-- The rest of a word that its first letter announces. -/
def word (meaning : Draft) : List Char → List Char → Scan
  | [], rest => (meaning, some rest)
  | _ :: _, [] => flawed .truncated
  | w :: ws, c :: rest => if c = w then word meaning ws rest else flawed .malformed

def quoted (rest : List Char) : Scan :=
  let (q, rest) := Quoted.scan rest
  (.text q, rest)

def numeral (cs : List Char) : Scan :=
  match Number.scan cs with
  | .found n rest => (.number n, some rest)
  | .cut => (.cutNumber, none)
  | .malformed => flawed .malformed

/-- What stands where a colon has to: nothing, so that the value after it can be read, or the draft
that the value is then. -/
def colon (cs : List Char) : Except Draft (List Char) :=
  match skipBlanks cs with
  | ':' :: rest => .ok rest
  | _ :: _ => .error (.broken .malformed)
  | [] => .error .missing

/-! ## Values -/

mutual

/-- Reads one value. Each level of nesting and each element takes one unit of fuel, and the length
of the text is enough. -/
def scan : Nat → List Char → Scan
  | 0, _ => flawed .malformed
  | fuel + 1, cs =>
    match skipBlanks cs with
    | [] => (.missing, none)
    | 'n' :: rest => word .null ['u', 'l', 'l'] rest
    | 't' :: rest => word (.boolean true) ['r', 'u', 'e'] rest
    | 'f' :: rest => word (.boolean false) ['a', 'l', 's', 'e'] rest
    | '\"' :: rest => quoted rest
    | '[' :: rest =>
      let (items, rest) := scanItems fuel rest
      (.array items, rest)
    | '{' :: rest =>
      let (members, rest) := scanMembers fuel rest
      (.object members, rest)
    | c :: rest =>
      if c = '-' ∨ Number.isDigit c then numeral (c :: rest) else flawed .malformed

/-- The elements after an opening bracket. -/
def scanItems : Nat → List Char → Items × Option (List Char)
  | 0, _ => (.stop .malformed, none)
  | fuel + 1, cs =>
    match skipBlanks cs with
    | [] => (.stop .truncated, none)
    | ']' :: rest => (.done, some rest)
    | rest => scanItem fuel rest

/-- An element, and those after it. -/
def scanItem : Nat → List Char → Items × Option (List Char)
  | 0, _ => (.stop .malformed, none)
  | fuel + 1, cs =>
    match scan fuel cs with
    | (head, none) => (.next head .done, none)
    | (head, some rest) =>
      let (tail, rest) := match skipBlanks rest with
        | [] => (.stop .truncated, none)
        | ',' :: rest => scanItem fuel rest
        | ']' :: rest => (.done, some rest)
        | _ => (.stop .malformed, none)
      (.next head tail, rest)

/-- The members after an opening brace. -/
def scanMembers : Nat → List Char → Members × Option (List Char)
  | 0, _ => (.stop .malformed, none)
  | fuel + 1, cs =>
    match skipBlanks cs with
    | [] => (.stop .truncated, none)
    | '}' :: rest => (.done, some rest)
    | rest => scanMember fuel rest

/-- A member, and those after it. -/
def scanMember : Nat → List Char → Members × Option (List Char)
  | 0, _ => (.stop .malformed, none)
  | fuel + 1, cs =>
    match scan fuel cs with
    | (key, none) => (.next key .missing .done, none)
    | (key, some rest) =>
      match colon rest with
      | .error value => (.next key value .done, none)
      | .ok rest =>
        match scan fuel rest with
        | (value, none) => (.next key value .done, none)
        | (value, some rest) =>
          let (tail, rest) := match skipBlanks rest with
            | [] => (.stop .truncated, none)
            | ',' :: rest => scanMember fuel rest
            | '}' :: rest => (.done, some rest)
            | _ => (.stop .malformed, none)
          (.next key value tail, rest)

end

/-- The draft of a text, and whether more than white space follows it. -/
def ofText (cs : List Char) : Draft × Bool :=
  match scan (3 * cs.length + 3) cs with
  | (d, none) => (d, false)
  | (d, some rest) => (d, ! (skipBlanks rest).isEmpty)

/-! ## Passing over -/

mutual

/-- The first flaw of a value that is only passed over: its numbers may have any size and its
surrogates need no partners, but a number may not be cut. -/
def flaw? : Draft → Option Flaw
  | .null => none
  | .boolean _ => none
  | .number _ => none
  | .text q => q.flaw?
  | .array items => itemsFlaw? items
  | .object members => membersFlaw? members
  | .cutNumber => some .malformed
  | .missing => some .truncated
  | .broken flaw => some flaw

def itemsFlaw? : Items → Option Flaw
  | .done => none
  | .stop flaw => some flaw
  | .next head tail => (flaw? head).or (itemsFlaw? tail)

def membersFlaw? : Members → Option Flaw
  | .done => none
  | .stop flaw => some flaw
  | .next key value tail =>
    match key with
    | .text q => q.flaw?.or ((flaw? value).or (membersFlaw? tail))
    | .missing => some .truncated
    | _ => some .malformed

end

end Draft

end MachineAtlas.Json
