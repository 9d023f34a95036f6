-- SUMMARY: Which linkage names are mangled, and how a name is classified.
import MachineAtlas.Json.Value
/-!
# Symbols

Which linkage names are mangled, and what a demangler makes of them. A demangler is asked only for
mangled names.
-/
namespace MachineAtlas

/-- A demangler gives the readable form of a name, if it has one. -/
abbrev Demangler := String → Option String

structure SymbolClass where
  name : String
  isMangled : Bool
  demangledName : Option String
  deriving DecidableEq, Repr, Inhabited

namespace Symbol

/-- A mangled name has one to four underscores in front, and then a `Z`. -/
def isMangled (name : String) : Bool :=
  let underscores := (name.toList.takeWhile (· == '_')).length
  decide (1 ≤ underscores ∧ underscores ≤ 4) && name.toList[underscores]? == some 'Z'

/-- Classifies a name, asking for its readable form at most once. -/
def classifyWith {m : Type → Type} [Monad m] (ask : String → m (Option String)) (name : String) :
    m SymbolClass :=
  if isMangled name then do
    let demangledName ← ask name
    pure { name, isMangled := true, demangledName }
  else pure { name, isMangled := false, demangledName := none }

def classify (demangle : Demangler) (name : String) : SymbolClass :=
  Id.run (classifyWith (m := Id) demangle name)

/-- A demangler that takes down the names it is asked for. -/
def recording (demangle : Demangler) (name : String) : StateM (List String) (Option String) := do
  modify (· ++ [name])
  pure (demangle name)

/-- Classifies names in order, with the names that the demangler was asked for. -/
def classifyAll (demangle : Demangler) (names : List String) : List SymbolClass × List String :=
  (names.mapM (classifyWith (recording demangle))).run []

end Symbol

/-- An absent form is left out. -/
def SymbolClass.value (c : SymbolClass) : Json.Value :=
  .object ([("name", .text c.name), ("is_mangled", .boolean c.isMangled)] ++
    c.demangledName.toList.map fun d => ("demangled_name", .text d))

end MachineAtlas
