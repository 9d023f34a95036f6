-- SUMMARY: The demangler of the program, and the reader of path names.
import MachineAtlas.Symbol
import MachineAtlas.Symbol.Spelling
/-!
# The demangler

Many names can be read in two schemes: as a mangled name, and as a path, with each element after its
length, between a mark and a final `E`. In a path, characters that symbols cannot hold are spelled
out between dollar signs. A path name is taken for one only if it does not spell out as a mangled
name.
-/
namespace MachineAtlas.Symbol

namespace PathName

/-- A path, with what follows it. -/
structure Path where
  elements : List (List Char)
  suffix : List Char
  deriving DecidableEq, Repr, Inhabited

/-! ## Reading -/

def isDigit (c : Char) : Bool := '0' ≤ c && c ≤ '9'

def isAscii (c : Char) : Bool := c.toNat < 128

/-- Letters, digits and punctuation. -/
def isGraphic (c : Char) : Bool := 33 ≤ c.toNat && c.toNat ≤ 126

def cutMark : List Char := ".llvm.".toList

def isCutChar (c : Char) : Bool := ('A' ≤ c && c ≤ 'F') || isDigit c || c == '@'

/-- Drops the mark that a linker gives to the names that it makes unique, with what follows it. -/
def withoutCutMark : List Char → List Char
  | [] => []
  | c :: cs =>
    if cutMark.isPrefixOf (c :: cs) then
      if ((c :: cs).drop cutMark.length).all isCutChar then [] else c :: cs
    else c :: withoutCutMark cs

def withoutOpening (cs : List Char) : Option (List Char) :=
  [['_', 'Z', 'N'], ['Z', 'N'], ['_', '_', 'Z', 'N']].findSome? fun opening =>
    if opening.isPrefixOf cs then some (cs.drop opening.length) else none

/-- A length, unless it does not fit a word. -/
def length? (digits : List Char) : Option Nat :=
  let n := digits.foldl (fun n c => 10 * n + (c.toNat - '0'.toNat)) 0
  if n < UInt64.size then some n else none

/-- The elements up to the final `E`. The fuel bounds their number. -/
def elements : Nat → List Char → Option (List (List Char) × List Char)
  | 0, _ => none
  | _ + 1, [] => none
  | _ + 1, 'E' :: rest => some ([], rest)
  | fuel + 1, cs => do
    let digits := cs.takeWhile isDigit
    if digits.isEmpty then none
    let n ← length? digits
    let rest := cs.drop digits.length
    if rest.length < n then none
    let (es, suffix) ← elements fuel (rest.drop n)
    pure (rest.take n :: es, suffix)

def isSuffix (cs : List Char) : Bool :=
  cs.isEmpty || (cs.head? == some '.' && cs.all isGraphic)

def read? (cs : List Char) : Option Path := do
  let cs ← withoutOpening (withoutCutMark cs)
  if ! cs.all isAscii then none
  let (es, suffix) ← elements (cs.length + 1) cs
  if isSuffix suffix then some { elements := es, suffix } else none

/-! ## Writing -/

def escapes : List (String × Char) :=
  [("SP", '@'), ("BP", '*'), ("RF", '&'), ("LT", '<'), ("GT", '>'), ("LP", '('), ("RP", ')'),
   ("C", ',')]

def hexDigit? (c : Char) : Option Nat :=
  if isDigit c then some (c.toNat - '0'.toNat)
  else if 'a' ≤ c && c ≤ 'f' then some (c.toNat - 'a'.toNat + 10)
  else none

def isControl (n : Nat) : Bool := n < 32 || (127 ≤ n && n < 160)

/-- A character by its number. Control characters have to stay spelled out. -/
def numbered? (digits : List Char) : Option Char := do
  if digits.isEmpty then none
  let n ← digits.foldlM (fun n c => do return 16 * n + (← hexDigit? c)) 0
  if n.isValidChar && ! isControl n then some (Char.ofNat n) else none

def escaped? (word : List Char) : Option Char :=
  match escapes.lookup (String.ofList word) with
  | some c => some c
  | none =>
    match word with
    | 'u' :: digits => numbered? digits
    | _ => none

/-- An element with its characters put back. From the first spelling that is none, all is left. -/
def decode : Nat → List Char → List Char
  | 0, cs => cs
  | _ + 1, [] => []
  | fuel + 1, '.' :: '.' :: rest => ':' :: ':' :: decode fuel rest
  | fuel + 1, '.' :: rest => '.' :: decode fuel rest
  | fuel + 1, '$' :: rest =>
    match rest.dropWhile (· != '$') with
    | [] => '$' :: rest
    | _ :: after =>
      match escaped? (rest.takeWhile (· != '$')) with
      | none => '$' :: rest
      | some c => c :: decode fuel after
  | fuel + 1, c :: rest =>
    c :: (rest.takeWhile fun c => c != '$' && c != '.') ++
      decode fuel (rest.dropWhile fun c => c != '$' && c != '.')

/-- An element as it reads. One that begins with a dollar sign has an underscore in front. -/
def element : List Char → List Char
  | '_' :: '$' :: rest => decode (rest.length + 1) ('$' :: rest)
  | cs => decode cs.length cs

def Path.spelled (p : Path) : List Char :=
  [':', ':'].intercalate (p.elements.map element) ++ p.suffix

/-- The readable form of a path name. -/
def readable? (s : String) : Option String :=
  (read? s.toList).map fun p => String.ofList p.spelled

end PathName

def demangle : Demangler := fun s => (Spelling.readable? s).or (PathName.readable? s)

end MachineAtlas.Symbol
