-- SUMMARY: The entities, types and arguments that a mangled name speaks of.
/-!
# Symbol terms

What a mangled name says: the entity that it names, the types of its parameters and the arguments
of its templates. Names, types and arguments hold each other.
-/
namespace MachineAtlas.Symbol

/-- Names of the standard library with a code of their own. -/
inductive Standard where
  | std | allocator | basicString | string | inputStream | outputStream | stream
  deriving DecidableEq, Repr, Inhabited

/-- The name within its scope, by which a class calls its constructors. -/
def Standard.leaf : Standard → String
  | std => "std"
  | allocator => "allocator"
  | basicString => "basic_string"
  | string => "string"
  | inputStream => "istream"
  | outputStream => "ostream"
  | stream => "iostream"

def Standard.spelling : Standard → String
  | std => "std"
  | s => "std::" ++ s.leaf

structure Qualifiers where
  isRestrict : Bool := false
  isVolatile : Bool := false
  isConst : Bool := false
  deriving DecidableEq, Repr, Inhabited

def Qualifiers.words (q : Qualifiers) : List String :=
  (if q.isConst then ["const"] else []) ++ (if q.isVolatile then ["volatile"] else []) ++
    (if q.isRestrict then ["restrict"] else [])

inductive RefKind where
  | lvalue | rvalue
  deriving DecidableEq, Repr, Inhabited

/-- A reference to a reference is to an rvalue only if both are. -/
def RefKind.collapse : RefKind → RefKind → RefKind
  | rvalue, rvalue => rvalue
  | _, _ => lvalue

def RefKind.spelling : RefKind → String
  | lvalue => "&"
  | rvalue => "&&"

mutual

/-- What stands between two separators of a name. -/
inductive Part where
  | source (identifier : String)
  | operator (spelling : String)
  | conversion (target : Ty)
  | literalOperator (suffix : String)
  | ctor
  | inheritedCtor (base : Ty)
  | dtor
  | unnamed (number : Nat)
  | closure (parameters : List Ty) (number : Nat)
  | tagged (part : Part) (tag : String)

/-- The name of an entity or of a scope. `method` gives a nested name the qualifiers of its object;
`within` and `literalWithin` name what is local to a function. -/
inductive Name where
  | standard (name : Standard)
  | part (part : Part)
  | member (scope : Name) (part : Part)
  | param (index : Nat)
  | applied (template : Name) (arguments : List Arg)
  | method (name : Name) (qualifiers : Qualifiers) (ref : Option RefKind)
  | within (encloser : Encoding) (entity : Name)
  | literalWithin (encloser : Encoding)
  | defaultArgument (encloser : Encoding) (number : Nat) (entity : Name)
  | ofType (type : Ty)

inductive Ty where
  | builtin (spelling : String)
  | named (name : Name)
  | elaborated (key : String) (name : Name)
  | param (index : Nat)
  | function (result : Ty) (parameters : List Ty) (qualifiers : Qualifiers) (ref : Option RefKind)
  | array (size : Option Nat) (element : Ty)
  | vector (size : Nat) (element : Ty)
  | pointer (target : Ty)
  | reference (kind : RefKind) (target : Ty)
  | memberPointer (holder target : Ty)
  | qualified (qualifiers : Qualifiers) (type : Ty)
  | marked (type : Ty) (mark : String)
  | expansion (type : Ty)

/-- A template argument. -/
inductive Arg where
  | type (type : Ty)
  | literal (type : Ty) (digits : String)
  | entity (encoding : Encoding)
  | pack (arguments : List Arg)

/-- What a mangled name is about: a function with the types of its signature, an object, or
something made for a type, an object or a function. -/
inductive Encoding where
  | function (name : Name) (first : Ty) (others : List Ty)
  | data (name : Name)
  | ofType (opening : String) (type : Ty) (closing : String)
  | ofName (opening : String) (name : Name)
  | ofEncoding (opening : String) (encoding : Encoding) (closing : String)
  | base (opening : String) (base derived : Ty)

end

instance : Inhabited Part := ⟨.dtor⟩
instance : Inhabited Ty := ⟨.builtin "void"⟩
instance : Inhabited Name := ⟨.standard .std⟩
instance : Inhabited Arg := ⟨.pack []⟩
instance : Inhabited Encoding := ⟨.data default⟩

/-! ## Parts -/

/-- Members that have no result type in their signature. -/
def Part.hasNoResult : Part → Bool
  | conversion _ | ctor | inheritedCtor _ | dtor => true
  | tagged part _ => part.hasNoResult
  | _ => false

/-- The part by which a class is called in its own members. -/
def Part.leaf? : Part → Option Part
  | source identifier => some (source identifier)
  | unnamed number => some (unnamed number)
  | closure parameters number => some (closure parameters number)
  | tagged part _ => part.leaf?
  | _ => none

/-! ## Names -/

/-- The arguments of the template that a name is an instance of. -/
def Name.arguments? : Name → Option (List Arg)
  | applied _ arguments => some arguments
  | method (applied _ arguments) _ _ => some arguments
  | within _ entity | defaultArgument _ _ entity => entity.arguments?
  | _ => none

mutual

def Name.hasNoResult : Name → Bool
  | .part p => p.hasNoResult
  | .member _ p => p.hasNoResult
  | .applied template _ => template.hasNoResult
  | .method name _ _ => name.hasNoResult
  | .within _ entity => entity.hasNoResult
  | .defaultArgument _ _ entity => entity.hasNoResult
  | .ofType t => t.hasNoResult
  | _ => false

def Ty.hasNoResult : Ty → Bool
  | .named name => name.hasNoResult
  | _ => false

end

mutual

/-- The last part that a class can be called by. -/
def Name.leaf? : Name → Option Part
  | .standard s => some (.source s.leaf)
  | .part p => p.leaf?
  | .member scope p => p.leaf?.or scope.leaf?
  | .applied template _ => template.leaf?
  | .method name _ _ => name.leaf?
  | .within _ entity => entity.leaf?
  | .defaultArgument _ _ entity => entity.leaf?
  | .ofType t => t.leaf?
  | .param _ | .literalWithin _ => none

def Ty.leaf? : Ty → Option Part
  | .named name => name.leaf?
  | _ => none

end

end MachineAtlas.Symbol
