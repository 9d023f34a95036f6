-- SUMMARY: Spelling out what a mangled name says.
import MachineAtlas.Symbol.Mangled
/-!
# Spelling

How a mangled name is spelled out. A type goes around the name that it declares, so it is written in
two steps: what leads up to the name, and what trails it.
-/
namespace MachineAtlas.Symbol.Spelling

/-! ## Writing -/

/-- What has been written, last character first, and whether a pack of arguments was. -/
structure Sheet where
  written : List Char := []
  sawPack : Bool := false

/-- Writing fails if a name refers to something that it does not have. -/
abbrev Writer := StateT Sheet Option

def put (s : String) : Writer Unit :=
  modify fun w => { w with written := s.toList.reverse ++ w.written }

def last? : Writer (Option Char) := do return (← get).written.head?

/-- Writes a space, unless there is one. -/
def space : Writer Unit := do
  if (← last?) != some ' ' then put " "

/-- Writes a list with a separator between its elements. -/
def separated {α : Type} (write : α → Writer Unit) : List α → Writer Unit
  | [] => pure ()
  | [a] => write a
  | a :: b :: rest => do
    write a
    put ", "
    separated write (b :: rest)

def words : List String → Writer Unit
  | [] => pure ()
  | s :: rest => do
    space
    put s
    words rest

/-! ## What names refer to -/

/-- The class that constructors belong to, the arguments that template parameters stand for,
innermost first, and whether the parameters of a closure are being written. -/
structure Scope where
  leaf : Option Part := none
  arguments : List (List Arg) := []
  inClosure : Bool := false

def Scope.argument? (s : Scope) (i : Nat) : Option Arg :=
  if s.inClosure then none else s.arguments.findSome? fun args => args[i]?

/-- The type behind template parameters. The fuel bounds how many there are. -/
def Scope.resolve (s : Scope) : Nat → Ty → Ty
  | fuel + 1, .param i =>
    match s.argument? i with
    | some (.type t) => s.resolve fuel t
    | _ => .param i
  | _, t => t

/-- How a type stands to the name that it declares: it may put its own text around that name. -/
inductive Shape where
  | plain | function | array
  deriving DecidableEq, Repr

/-- An array keeps its shape under qualifiers. -/
def Scope.shape (s : Scope) (fuel : Nat) (t : Ty) : Shape :=
  match s.resolve fuel t with
  | .function .. => .function
  | .array .. => .array
  | .qualified _ t =>
    match s.resolve fuel t with
    | .array .. => .array
    | _ => .plain
  | _ => .plain

/-- The name that a type declares is inside of what this type puts around it. -/
def Scope.surrounds (s : Scope) : Nat → Ty → Bool
  | 0, _ => false
  | fuel + 1, t =>
    match s.resolve fuel t with
    | .function .. | .array .. => true
    | .pointer t | .reference _ t | .memberPointer _ t | .qualified _ t => s.surrounds fuel t
    | _ => false

/-! ## Leaves -/

/-- The scopes without a name have an identifier that says so. -/
def isAnonymousScope (identifier : String) : Bool :=
  ["_GLOBAL_.N", "_GLOBAL__N", "_GLOBAL_$N"].any fun s => s.toList.isPrefixOf identifier.toList

def putIdentifier (identifier : String) : Writer Unit :=
  put (if isAnonymousScope identifier then "(anonymous namespace)" else identifier)

def putOperator (spelling : String) : Writer Unit :=
  put (if spelling.toList.head?.any Char.isAlpha then "operator " ++ spelling
    else "operator" ++ spelling)

/-- The value of a literal, with what follows it for its type. -/
def putValue (digits : String) (suffix : String) : Writer Unit :=
  match digits.toList with
  | 'n' :: rest => put ("-" ++ String.ofList rest ++ suffix)
  | _ => put (digits ++ suffix)

def literalSuffixes : List (String × String) :=
  [("int", ""), ("unsigned int", "u"), ("long", "l"), ("unsigned long", "ul"), ("long long", "ll"),
   ("unsigned long long", "ull")]

/-- Opens a group around what a function or an array is reached by. -/
def openGroup (shape : Shape) (apart : Bool) : Writer Unit :=
  match shape with
  | .plain => pure ()
  | .function => do
    let c ← last?
    if apart || ! (c == some '(' || c == some '*') then space
    put "("
  | .array => do
    space
    put "("

def closeGroup (shape : Shape) : Writer Unit :=
  match shape with
  | .plain => pure ()
  | .function | .array => put ")"

/-! ## Terms -/

mutual

/-- Writes an entity. Here and below the fuel bounds the nesting. -/
def encoding : Nat → Scope → Encoding → Writer Unit
  | 0, _, _ => failure
  | fuel + 1, scope, .function n first others => do
    let scope := { scope with leaf := n.leaf?.or scope.leaf }
    match n.arguments? with
    | none =>
      name fuel scope n
      parameters fuel scope (first :: others)
      object fuel n
    | some args =>
      let scope := { scope with arguments := args :: scope.arguments }
      if n.hasNoResult then
        name fuel scope n
        parameters fuel scope (first :: others)
      else
        type fuel scope first
        put " "
        name fuel scope n
        parameters fuel scope others
      object fuel n
  | fuel + 1, scope, .data n => whole fuel scope n
  | fuel + 1, scope, .ofType opening t closing => do
    put opening
    type fuel scope t
    put closing
  | fuel + 1, scope, .ofName opening n => do
    put opening
    whole fuel scope n
  | fuel + 1, scope, .ofEncoding opening e closing => do
    put opening
    encoding fuel scope e
    put closing
  | fuel + 1, scope, .base opening base derived => do
    put opening
    type fuel scope base
    put "-in-"
    type fuel scope derived

/-- The parameters of a function. A single `void` stands for none. -/
def parameters : Nat → Scope → List Ty → Writer Unit
  | 0, _, _ => failure
  | _ + 1, _, [.builtin "void"] => put "()"
  | fuel + 1, scope, ts => do
    put "("
    separated (type fuel scope) ts
    put ")"

/-- A name without the qualifiers of its object. -/
def name : Nat → Scope → Name → Writer Unit
  | 0, _, _ => failure
  | _ + 1, _, .standard s => put s.spelling
  | fuel + 1, scope, .part p => part fuel scope p
  | fuel + 1, scope, .member outer p => do
    name fuel scope outer
    put "::"
    part fuel scope p
  | fuel + 1, scope, .param i => type fuel scope (.param i)
  | fuel + 1, scope, .applied template args => do
    name fuel scope template
    arguments fuel scope args
  | fuel + 1, scope, .method n _ _ => name fuel scope n
  | fuel + 1, scope, .within e n => do
    encoding fuel scope e
    put "::"
    name fuel scope n
  | fuel + 1, scope, .literalWithin e => do
    encoding fuel scope e
    put "::string literal"
  | fuel + 1, scope, .defaultArgument e number n => do
    encoding fuel scope e
    put ("::\x7bdefault arg#" ++ toString number ++ "\x7d::")
    name fuel scope n
  | fuel + 1, scope, .ofType t => type fuel scope t

/-- The qualifiers of the object that a method is called for. -/
def object : Nat → Name → Writer Unit
  | 0, _ => failure
  | _ + 1, .method _ q ref => do
    words q.words
    words (ref.toList.map RefKind.spelling)
  | fuel + 1, .within _ n | fuel + 1, .defaultArgument _ _ n => object fuel n
  | _ + 1, _ => pure ()

def whole : Nat → Scope → Name → Writer Unit
  | 0, _, _ => failure
  | fuel + 1, scope, n => do
    name fuel scope n
    object fuel n

def part : Nat → Scope → Part → Writer Unit
  | 0, _, _ => failure
  | _ + 1, _, .source identifier => putIdentifier identifier
  | _ + 1, _, .operator spelling => putOperator spelling
  | fuel + 1, scope, .conversion t => do
    put "operator "
    type fuel scope t
  | _ + 1, _, .literalOperator suffix => put ("operator\"\" " ++ suffix)
  | fuel + 1, scope, .ctor => own fuel scope scope.leaf
  | fuel + 1, scope, .inheritedCtor t => own fuel scope t.leaf?
  | fuel + 1, scope, .dtor => do
    put "~"
    own fuel scope scope.leaf
  | _ + 1, _, .unnamed number => put ("\x7bunnamed type#" ++ toString number ++ "\x7d")
  | fuel + 1, scope, .closure ts number => do
    put "\x7blambda("
    separated (type fuel { scope with inClosure := true }) ts
    put (")#" ++ toString number ++ "\x7d")
  | fuel + 1, scope, .tagged p tag => do
    part fuel scope p
    put ("[abi:" ++ tag ++ "]")

/-- The class that a constructor or a destructor belongs to. -/
def own : Nat → Scope → Option Part → Writer Unit
  | 0, _, _ | _, _, none => failure
  | fuel + 1, scope, some p => part fuel scope p

def type : Nat → Scope → Ty → Writer Unit
  | 0, _, _ => failure
  | fuel + 1, scope, t => do
    lead fuel scope t
    trail fuel scope t

/-- What a type writes before the name that it declares. -/
def lead : Nat → Scope → Ty → Writer Unit
  | 0, _, _ => failure
  | _ + 1, _, .builtin spelling => put spelling
  | fuel + 1, scope, .named n => whole fuel scope n
  | fuel + 1, scope, .elaborated key n => do
    put (key ++ " ")
    whole fuel scope n
  | fuel + 1, scope, .param i =>
    if scope.inClosure then put ("auto:" ++ toString (i + 1))
    else
      match scope.argument? i with
      | none => failure
      | some (.type t) => lead fuel scope t
      | some arg => argument fuel scope arg
  | fuel + 1, scope, .function result _ _ _ => do
    lead fuel scope result
    if ! scope.surrounds fuel result then space
  | fuel + 1, scope, .array _ element => lead fuel scope element
  | fuel + 1, scope, .vector size element => do
    lead fuel scope element
    put (" __vector(" ++ toString size ++ ")")
  | fuel + 1, scope, .pointer t => do
    lead fuel scope t
    openGroup (scope.shape fuel t) false
    put "*"
  | fuel + 1, scope, .reference kind t =>
    match scope.resolve fuel t with
    | .reference inner t => lead fuel scope (.reference (kind.collapse inner) t)
    | target => do
      lead fuel scope target
      openGroup (scope.shape fuel target) false
      put kind.spelling
  | fuel + 1, scope, .memberPointer holder t => do
    lead fuel scope t
    openGroup (scope.shape fuel t) true
    if (← last?) != some '(' then put " "
    type fuel scope holder
    put "::*"
  | fuel + 1, scope, .qualified q t => do
    lead fuel scope t
    if scope.shape fuel t != .array then openGroup (scope.shape fuel t) true
    words q.words
  | fuel + 1, scope, .marked t mark => do
    lead fuel scope t
    put (" " ++ mark)
  | fuel + 1, scope, .expansion t => do
    lead fuel scope t
    trail fuel scope t
    if ! (← get).sawPack then put "..."

/-- What a type writes after the name that it declares. -/
def trail : Nat → Scope → Ty → Writer Unit
  | 0, _, _ => failure
  | fuel + 1, scope, .param i =>
    match scope.argument? i with
    | some (.type t) => trail fuel scope t
    | _ => pure ()
  | fuel + 1, scope, .function result ts q ref => do
    parameters fuel scope ts
    words q.words
    words (ref.toList.map RefKind.spelling)
    trail fuel scope result
  | fuel + 1, scope, .array size element => do
    space
    extents fuel scope size element
  | fuel + 1, scope, .pointer t | fuel + 1, scope, .memberPointer _ t
  | fuel + 1, scope, .reference _ t => do
    closeGroup (scope.shape fuel t)
    trail fuel scope t
  | fuel + 1, scope, .qualified _ t => do
    if scope.shape fuel t != .array then closeGroup (scope.shape fuel t)
    trail fuel scope t
  | fuel + 1, scope, .vector _ t | fuel + 1, scope, .marked t _ => trail fuel scope t
  | _ + 1, _, _ => pure ()

/-- The size of an array, and those of the arrays in it. -/
def extents : Nat → Scope → Option Nat → Ty → Writer Unit
  | 0, _, _, _ => failure
  | fuel + 1, scope, size, element => do
    put ("[" ++ (size.elim "" toString) ++ "]")
    match scope.resolve fuel element with
    | .array size element => extents fuel scope size element
    | t => trail fuel scope t

/-- Template arguments. Two brackets that look the same do not touch. -/
def arguments : Nat → Scope → List Arg → Writer Unit
  | 0, _, _ => failure
  | fuel + 1, scope, args => do
    if (← last?) == some '<' then put " "
    put "<"
    separated (argument fuel scope) args
    if (← last?) == some '>' then put " "
    put ">"

def argument : Nat → Scope → Arg → Writer Unit
  | 0, _, _ => failure
  | fuel + 1, scope, .type t => type fuel scope t
  | fuel + 1, scope, .literal t digits => literal fuel scope t digits
  | fuel + 1, scope, .entity e => encoding fuel scope e
  | fuel + 1, scope, .pack args => do
    modify fun w => { w with sawPack := true }
    separated (argument fuel scope) args

/-- A value. Types without a suffix of their own are written before it. -/
def literal : Nat → Scope → Ty → String → Writer Unit
  | 0, _, _, _ => failure
  | _ + 1, _, .builtin "bool", "0" => put "false"
  | _ + 1, _, .builtin "bool", "1" => put "true"
  | _ + 1, _, .builtin "std::nullptr_t", _ => put "nullptr"
  | fuel + 1, scope, t, digits => do
    let spelling? := match t with
      | .builtin spelling => some spelling
      | _ => none
    match spelling?.bind fun s => literalSuffixes.lookup s with
    | some suffix => putValue digits suffix
    | none =>
      put "("
      type fuel scope t
      put ")"
      if spelling? == some "float" || spelling? == some "double" then
        put "["
        putValue digits ""
        put "]"
      else putValue digits ""

end

/-! ## Whole names -/

def cloneMark (m : Mangled.CloneMark) : Writer Unit :=
  put (" [clone ." ++ m.purpose ++ String.join (m.numbers.map fun n => "." ++ toString n) ++ "]")

def subject (fuel : Nat) : Mangled.Subject → Writer Unit
  | .entity e marks => do
    encoding fuel {} e
    marks.forM cloneMark
  | .block e => do
    put "invocation function for block in "
    encoding fuel {} e

/-- The readable form of a mangled name. -/
def readable? (s : String) : Option String := do
  let m ← Mangled.read? s
  let ((), sheet) ← (subject (32 * (s.length + 2)) m).run {}
  pure (String.ofList sheet.written.reverse)

end MachineAtlas.Symbol.Spelling
