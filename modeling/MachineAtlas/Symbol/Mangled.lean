-- SUMMARY: The reader of mangled names.
import MachineAtlas.Symbol.Term
/-!
# Mangled names

The reader of mangled names. A name is read from left to right; a code may refer to a scope, a
template or a type that was read before it, and what an attempt noted stays noted even if the
attempt fails.
-/
namespace MachineAtlas.Symbol.Mangled

/-! ## State -/

/-- Something that a later code can refer to. -/
inductive Entry where
  | scope (name : Name)
  | template (name : Name)
  | type (type : Ty)

/-- An entry in the place of a scope. Only an entry that was noted as a scope is one by itself. -/
def Entry.asScope : Entry → Name
  | scope name => name
  | template name => .ofType (.named name)
  | type t => .ofType t

def Entry.asType : Entry → Ty
  | scope name | template name => .named name
  | type t => t

/-- What is left of a name, what its codes can refer to, and whether the target of a conversion is
being read. -/
structure Reading where
  rest : List Char
  entries : Array Entry := #[]
  inConversion : Bool := false

abbrev Reader := OptionT (StateM Reading)

/-- Goes back to where it began if it fails. -/
def attempt {α : Type} (p : Reader α) : Reader α := do
  let start := (← get).rest
  p <|> (do modify fun r => { r with rest := start }; failure)

def maybe {α : Type} (p : Reader α) : Reader (Option α) := some <$> attempt p <|> pure none

def note (e : Entry) : Reader Unit := modify fun r => { r with entries := r.entries.push e }

def noteType (t : Ty) : Reader Ty := do
  note (.type t)
  pure t

/-! ## Characters and numbers -/

def head? : Reader (Option Char) := do return (← get).rest.head?

/-- Reads one code. -/
def code (s : String) : Reader Unit := do
  let r ← get
  if s.toList.isPrefixOf r.rest then set { r with rest := r.rest.drop s.length } else failure

def has (s : String) : Reader Bool := (do code s; pure true) <|> pure false

/-- Reads the first code of a table that is there. -/
def oneOf {α : Type} (table : List (String × α)) : Reader α := do
  let r ← get
  match table.find? fun e => e.1.toList.isPrefixOf r.rest with
  | none => failure
  | some (s, a) =>
    set { r with rest := r.rest.drop s.length }
    pure a

def isDigit (c : Char) : Bool := '0' ≤ c && c ≤ '9'

def digitValue (c : Char) : Nat := if isDigit c then c.toNat - '0'.toNat else c.toNat - 'A'.toNat + 10

/-- A number in a base, without superfluous zeros and below `2 ^ 63`. -/
def numeral (base : Nat) (p : Char → Bool) : Reader Nat := do
  let r ← get
  let digits := r.rest.takeWhile p
  if digits.isEmpty || (digits.head? == some '0' && digits.length != 1) then failure
  let n := digits.foldl (fun n c => base * n + digitValue c) 0
  if Nat.pow 2 63 ≤ n then failure
  set { r with rest := r.rest.drop digits.length }
  pure n

def number : Reader Nat := numeral 10 isDigit

/-- A number that may be negative, as it is written. -/
def signed : Reader String := do
  let sign := if ← has "n" then "-" else ""
  return sign ++ toString (← number)

/-- The number of a code that starts at nothing: nothing is zero, and `0` is one. -/
def ordinal (p : Reader Nat) : Reader Nat := do
  let n := match ← maybe p with
    | none => 0
    | some n => n + 1
  code "_"
  pure n

def isIdentifierChar (c : Char) : Bool :=
  isDigit c || ('A' ≤ c && c ≤ 'Z') || ('a' ≤ c && c ≤ 'z') || c == '_' || c == '$' || c == '.'

/-- An identifier after its length. -/
def identifier : Reader String := do
  let n ← number
  let r ← get
  let cs := r.rest.take n
  if n = 0 || cs.length != n || ! cs.all isIdentifierChar then failure
  set { r with rest := r.rest.drop n }
  pure (String.ofList cs)

/-- Tells apart what has the same name in one function. -/
def discriminator : Reader Unit := do
  code "_"
  if ← has "_" then
    if (← number) < 10 then failure
    code "_"
  else
    let r ← get
    match r.rest with
    | c :: rest => if isDigit c then set { r with rest } else failure
    | [] => failure

/-! ## Tables -/

def builtins : List (String × String) :=
  [("v", "void"), ("w", "wchar_t"), ("b", "bool"), ("c", "char"), ("a", "signed char"),
   ("h", "unsigned char"), ("s", "short"), ("t", "unsigned short"), ("i", "int"),
   ("j", "unsigned int"), ("l", "long"), ("m", "unsigned long"), ("x", "long long"),
   ("y", "unsigned long long"), ("n", "__int128"), ("o", "unsigned __int128"), ("f", "float"),
   ("d", "double"), ("e", "long double"), ("g", "__float128"), ("z", "..."),
   ("Dd", "decimal64"), ("De", "decimal128"), ("Df", "decimal32"), ("Dh", "half"),
   ("Di", "char32_t"), ("Ds", "char16_t"), ("Du", "char8_t"), ("Da", "auto"),
   ("Dc", "decltype(auto)"), ("Dn", "std::nullptr_t")]

def standards : List (String × Standard) :=
  [("St", .std), ("Sa", .allocator), ("Sb", .basicString), ("Ss", .string), ("Si", .inputStream),
   ("So", .outputStream), ("Sd", .stream)]

def operators : List (String × String) :=
  [("nw", "new"), ("na", "new[]"), ("dl", "delete"), ("da", "delete[]"), ("aw", "co_await"),
   ("ps", "+"), ("ng", "-"), ("ad", "&"), ("de", "*"), ("co", "~"), ("pl", "+"), ("mi", "-"),
   ("ml", "*"), ("dv", "/"), ("rm", "%"), ("an", "&"), ("or", "|"), ("eo", "^"), ("aS", "="),
   ("pL", "+="), ("mI", "-="), ("mL", "*="), ("dV", "/="), ("rM", "%="), ("aN", "&="),
   ("oR", "|="), ("eO", "^="), ("ls", "<<"), ("rs", ">>"), ("lS", "<<="), ("rS", ">>="),
   ("eq", "=="), ("ne", "!="), ("lt", "<"), ("gt", ">"), ("le", "<="), ("ge", ">="),
   ("ss", "<=>"), ("nt", "!"), ("aa", "&&"), ("oo", "||"), ("pp", "++"), ("mm", "--"),
   ("cm", ","), ("pm", "->*"), ("pt", "->"), ("cl", "()"), ("ix", "[]"), ("qu", "?")]

def elaborations : List (String × String) := [("Ts", "class"), ("Tu", "union"), ("Te", "enum")]

/-- What is made for a type, with the words before and after it. -/
def madeForTypes : List (String × String × String) :=
  [("TV", "\x7bvtable(", ")\x7d"), ("TT", "\x7bvtt(", ")\x7d"), ("TI", "typeinfo for ", ""),
   ("TS", "typeinfo name for ", ""), ("TF", "typeinfo fn for ", "")]

/-- What is made for an object, with the words before it. -/
def madeForObjects : List (String × String) :=
  [("GV", "guard variable for "), ("TH", "TLS init function for "),
   ("TW", "TLS wrapper function for ")]

/-- What is made for a function, with the words before it. -/
def madeForFunctions : List (String × String) :=
  [("GTt", "transaction clone for "), ("GTn", "non-transaction clone for ")]

/-! ## Small codes -/

/-- A code of the standard library, or a reference to an entry. -/
def reference : Reader Entry :=
  (do return .scope (.standard (← oneOf standards))) <|> do
    code "S"
    let n ← ordinal (numeral 36 fun c => isDigit c || ('A' ≤ c && c ≤ 'Z'))
    match (← get).entries[n]? with
    | none => failure
    | some e => pure e

/-- A reference to an entry that no arguments follow. -/
def untemplated : Reader Entry := do
  let e ← reference
  if (← head?) == some 'I' then failure
  pure e

def templateParam : Reader Nat := do
  code "T"
  ordinal number

def qualifiers : Reader Qualifiers := do
  let isRestrict ← has "r"
  let isVolatile ← has "V"
  let isConst ← has "K"
  pure { isRestrict, isVolatile, isConst }

def refKind : Reader RefKind := oneOf [("R", .lvalue), ("O", .rvalue)]

/-- How far a thunk moves the object that it is called for. -/
def callOffset : Reader String :=
  attempt (do
    code "h"
    let n ← signed
    code "_"
    pure ("\x7boffset(" ++ n ++ ")\x7d")) <|> do
  code "v"
  let n ← signed
  code "_"
  let v ← signed
  code "_"
  pure ("\x7bvirtual offset(" ++ n ++ ", " ++ v ++ ")\x7d")

/-- As many as there are. -/
def many {α : Type} (p : Reader α) : Nat → Reader (List α)
  | 0 => pure []
  | fuel + 1 => do
    match ← maybe p with
    | none => pure []
    | some a => return a :: (← many p fuel)

def tagged (p : Part) : Reader Part := do
  let tags ← many (do code "B"; identifier) (← get).rest.length
  pure (tags.foldl .tagged p)

/-! ## Names and types -/

mutual

/-- A function or an object, or something made for one. Here and below the fuel bounds the nesting,
and several times the length of the text is enough. -/
def encoding : Nat → Reader Encoding
  | 0 => failure
  | fuel + 1 => do
    match ← maybe (name fuel) with
    | none => special fuel
    | some n =>
      match ← many (type fuel) (fuel + 1) with
      | [] => pure (.data n)
      | t :: ts => pure (.function n t ts)

/-- What a compiler makes for a type, an object or a function. -/
def special : Nat → Reader Encoding
  | 0 => failure
  | fuel + 1 =>
    attempt (do
      let (opening, closing) ← oneOf madeForTypes
      return .ofType opening (← type fuel) closing) <|>
    attempt (do
      let opening ← oneOf madeForObjects
      return .ofName opening (← name fuel)) <|>
    attempt (do
      let opening ← oneOf madeForFunctions
      return .ofEncoding opening (← encoding fuel) "") <|>
    attempt (do
      code "GR"
      let n ← name fuel
      let k ← ordinal number
      return .ofName ("reference temporary #" ++ toString k ++ " for ") n) <|>
    attempt (do
      code "TC"
      let derived ← type fuel
      let _ ← number
      code "_"
      return .base "construction vtable for " (← type fuel) derived) <|>
    attempt (do
      code "Tc"
      let this ← callOffset
      let result ← callOffset
      return .ofEncoding ("\x7bvirtual override thunk(" ++ this ++ ", " ++ result ++ ", ")
        (← encoding fuel) ")\x7d") <|> do
    code "T"
    let this ← callOffset
    return .ofEncoding ("\x7bvirtual override thunk(" ++ this ++ ", ") (← encoding fuel) ")\x7d"

def name : Nat → Reader Name
  | 0 => failure
  | fuel + 1 => do
    match ← maybe (nested fuel) with
    | some n => pure n
    | none =>
      match ← maybe (unscoped fuel) with
      | some n =>
        if (← head?) == some 'I' then
          note (.template n)
          return .applied n (← arguments fuel)
        else pure n
      | none =>
        match ← maybe reference with
        | some e => return .applied e.asScope (← arguments fuel)
        | none => enclosed fuel

def unscoped : Nat → Reader Name
  | 0 => failure
  | fuel + 1 => do
    if ← has "St" then return .member (.standard .std) (← part fuel)
    else return .part (← part fuel)

/-- A name in a scope. It has to end in a part of its own or in arguments. -/
def nested : Nat → Reader Name
  | 0 => failure
  | fuel + 1 => do
    code "N"
    let q ← qualifiers
    let ref ← maybe refKind
    let n ← inScope fuel none
    code "E"
    match n with
    | .part _ | .member .. | .applied .. => pure (.method n q ref)
    | _ => failure

/-- The parts of a nested name after a scope. All but the whole are noted. -/
def inScope : Nat → Option Name → Reader Name
  | 0, _ => failure
  | fuel + 1, scope => do
    match ← head?, scope with
    | none, _ => failure
    | some 'E', none => failure
    | some 'E', some n => pure n
    | some 'S', _ => do
      let e ← reference
      inScope fuel (some e.asScope)
    | some 'T', _ => do
      let i ← templateParam
      note (.scope (.param i))
      inScope fuel (some (.param i))
    | some 'I', some template => do
      let args ← arguments fuel
      extended fuel (.applied template args)
    | some _, none => do
      let p ← part fuel
      extended fuel (.part p)
    | some _, some outer => do
      let p ← part fuel
      let _ ← has "M"
      extended fuel (.member outer p)

/-- Goes on after a part. -/
def extended : Nat → Name → Reader Name
  | 0, _ => failure
  | fuel + 1, n => do
    if (← head?) == some 'E' then pure n
    else
      note (.scope n)
      inScope fuel (some n)

/-- A name that is local to a function. -/
def enclosed : Nat → Reader Name
  | 0 => failure
  | fuel + 1 => do
    code "Z"
    let e ← encoding fuel
    code "E"
    if ← has "s" then
      let _ ← maybe discriminator
      pure (.literalWithin e)
    else if ← has "d" then
      let n ← ordinal number
      return .defaultArgument e (n + 1) (← name fuel)
    else
      let n ← name fuel
      let _ ← maybe discriminator
      pure (.within e n)

def part : Nat → Reader Part
  | 0 => failure
  | fuel + 1 => do
    let p ← attempt (operator fuel) <|> attempt (member fuel) <|> attempt (plain fuel)
    tagged p

def operator : Nat → Reader Part
  | 0 => failure
  | fuel + 1 =>
    (do return .operator (← oneOf operators)) <|>
    attempt (do
      code "cv"
      let outer := (← get).inConversion
      modify fun r => { r with inConversion := true }
      let t ← maybe (type fuel)
      modify fun r => { r with inConversion := outer }
      match t with
      | none => failure
      | some t => pure (.conversion t)) <|>
    attempt (do
      code "li"
      return .literalOperator (← identifier)) <|> do
    code "v"
    let r ← get
    match r.rest with
    | c :: rest =>
      if isDigit c then
        set { r with rest }
        return .operator (← identifier)
      else failure
    | [] => failure

/-- A constructor or a destructor. -/
def member : Nat → Reader Part
  | 0 => failure
  | fuel + 1 =>
    (do
      let _ ← oneOf [("CI1", ()), ("CI2", ()), ("CI3", ())]
      return .inheritedCtor (← type fuel)) <|>
    oneOf [("C1", .ctor), ("C2", .ctor), ("C3", .ctor), ("C4", .ctor), ("D0", .dtor),
      ("D1", .dtor), ("D2", .dtor), ("D4", .dtor)]

/-- An identifier, a closure or something without a name. -/
def plain : Nat → Reader Part
  | 0 => failure
  | fuel + 1 => do
    if ← has "L" then
      let s ← identifier
      let _ ← maybe discriminator
      pure (.source s)
    else if ← has "Ul" then
      let parameters ← if ← has "v" then pure [] else many (type fuel) (fuel + 1)
      code "E"
      let n ← ordinal number
      pure (.closure parameters (n + 1))
    else if ← has "Ut" then
      let n ← ordinal number
      pure (.unnamed (n + 1))
    else return .source (← identifier)

/-- A type. All are noted but those that have a code of their own or come from an entry. -/
def type : Nat → Reader Ty
  | 0 => failure
  | fuel + 1 => do
    match ← maybe (oneOf builtins <|> do code "u"; identifier) with
    | some s => pure (.builtin s)
    | none =>
      match ← maybe (named fuel) with
      | some t => noteType t
      | none =>
        match ← maybe untemplated with
        | some e => pure e.asType
        | none => do
          let t ← attempt (compound fuel) <|> attempt (parameter fuel) <|> modified fuel
          noteType t

/-- A class or an enumeration. -/
def named : Nat → Reader Ty
  | 0 => failure
  | fuel + 1 =>
    attempt (do return .named (← name fuel)) <|> do
    let key ← oneOf elaborations
    return .elaborated key (← name fuel)

/-- Types that are built from several others. -/
def compound : Nat → Reader Ty
  | 0 => failure
  | fuel + 1 =>
    attempt (do
      let q ← qualifiers
      let _ ← has "Dx"
      code "F"
      let _ ← has "Y"
      let result ← type fuel
      let parameters ← many (type fuel) (fuel + 1)
      let ref ← maybe refKind
      code "E"
      pure (.function result parameters q ref)) <|>
    attempt (do
      code "A"
      let size ← maybe number
      code "_"
      return .array size (← type fuel)) <|>
    attempt (do
      code "Dv"
      let size ← number
      code "_"
      return .vector size (← type fuel)) <|> do
    code "M"
    let holder ← type fuel
    return .memberPointer holder (← type fuel)

/-- A template parameter, or an instance of one that is a template. The target of a conversion is an
instance only if more arguments follow, as the last ones are those of the conversion. -/
def parameter : Nat → Reader Ty
  | 0 => failure
  | fuel + 1 => do
    let i ← templateParam
    if (← head?) != some 'I' then return .param i
    if (← get).inConversion then
      let start := (← get).rest
      let _ ← arguments fuel
      let more ← head?
      modify fun r => { r with rest := start }
      if more != some 'I' then return .param i
    note (.scope (.param i))
    return .named (.applied (.param i) (← arguments fuel))

/-- Types that are built from one other. -/
def modified : Nat → Reader Ty
  | 0 => failure
  | fuel + 1 => do
    let q ← qualifiers
    if q != {} then return .qualified q (← type fuel)
    if ← has "P" then return .pointer (← type fuel)
    if let some k ← maybe refKind then return .reference k (← type fuel)
    if ← has "C" then return .marked (← type fuel) "complex"
    if ← has "G" then return .marked (← type fuel) "imaginary"
    if ← has "U" then
      let mark ← identifier
      return .marked (← type fuel) mark
    code "Dp"
    return .expansion (← type fuel)

-- Arguments

def arguments : Nat → Reader (List Arg)
  | 0 => failure
  | fuel + 1 => do
    code "I"
    let args ← many (argument fuel) (fuel + 1)
    if args.isEmpty then failure
    code "E"
    pure args

def argument : Nat → Reader Arg
  | 0 => failure
  | fuel + 1 =>
    attempt (literal fuel) <|>
    attempt (do return .type (← type fuel)) <|> do
    let _ ← oneOf [("J", ()), ("I", ())]
    let args ← many (argument fuel) (fuel + 1)
    code "E"
    pure (.pack args)

/-- A value of a type, or an entity. -/
def literal : Nat → Reader Arg
  | 0 => failure
  | fuel + 1 => do
    code "L"
    match ← maybe (type fuel) with
    | some t =>
      let r ← get
      let digits := r.rest.takeWhile (· != 'E')
      set { r with rest := r.rest.drop digits.length }
      code "E"
      pure (.literal t (String.ofList digits))
    | none =>
      code "_Z"
      let e ← encoding fuel
      code "E"
      pure (.entity e)

end

/-! ## Whole names -/

/-- What a copy of a function is for, and the numbers of the copy. -/
structure CloneMark where
  purpose : String
  numbers : List Nat
  deriving DecidableEq, Repr, Inhabited

/-- What a mangled name is about: an entity, or the code of a block in a function. -/
inductive Subject where
  | entity (encoding : Encoding) (clones : List CloneMark)
  | block (encoding : Encoding)

def cloneMark : Reader CloneMark := do
  code "."
  let r ← get
  let purpose := r.rest.takeWhile fun c => isIdentifierChar c && c != '.'
  if purpose.isEmpty then failure
  set { r with rest := r.rest.drop purpose.length }
  let numbers ← many (do code "."; number) r.rest.length
  pure { purpose := String.ofList purpose, numbers }

def entity (fuel size : Nat) : Reader Subject := do
  let _ ← oneOf [("_Z", ()), ("__Z", ())]
  let e ← encoding fuel
  return .entity e (← many cloneMark size)

def block (fuel : Nat) : Reader Subject := do
  let _ ← oneOf [("___Z", ()), ("____Z", ())]
  let e ← encoding fuel
  code "_block_invoke"
  if ← has "_" then
    let _ ← number
  else
    let _ ← maybe number
  pure (.block e)

def subject (size : Nat) : Reader Subject :=
  let fuel := 32 * (size + 2)
  attempt (entity fuel size) <|> block fuel

/-- Reads a name that is mangled as a whole. -/
def read? (s : String) : Option Subject :=
  match (subject s.length).run.run { rest := s.toList } with
  | (some m, { rest := [], .. }) => some m
  | _ => none

end MachineAtlas.Symbol.Mangled
