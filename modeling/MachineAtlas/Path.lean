-- SUMMARY: The parts of paths, and the stem and extension of the last part.
/-!
# Paths

Paths as texts: their parts, the stem and the extension of the last part.
-/
namespace MachineAtlas.Path

/-- A text cut at every separator. -/
def segments : List Char → List (List Char)
  | [] => [[]]
  | c :: cs =>
    if c = '/' then [] :: segments cs
    else match segments cs with
      | [] => [[c]]
      | s :: rest => (c :: s) :: rest

def isAbsolute (path : List Char) : Bool := path.head? == some '/'

/-- The parts of a path: a part that stands for its own directory counts only at the front of a
relative path. -/
def parts (path : List Char) : List (List Char) :=
  match segments path with
  | ['.'] :: rest => ['.'] :: rest.filter fun s => ! s.isEmpty && s != ['.']
  | all => all.filter fun s => ! s.isEmpty && s != ['.']

/-- The last part, if it is a name. -/
def fileName (path : List Char) : Option (List Char) :=
  match (parts path).getLast? with
  | none => none
  | some name => if name = ['.'] ∨ name = ['.', '.'] then none else some name

/-- A name cut at its last dot, unless that is its first character or missing. -/
def splitName (name : List Char) : List Char × Option (List Char) :=
  let after := name.reverse.takeWhile (· != '.')
  match name.reverse.dropWhile (· != '.') with
  | [] => (name, none)
  | [_] => (name, none)
  | _ :: before => (before.reverse, some after.reverse)

/-- The last part without its extension, and nothing for a path without last part. -/
def stem (path : String) : String :=
  match fileName path.toList with
  | none => ""
  | some name => String.ofList (splitName name).1

/-- The extension of the last part. -/
def extension? (path : String) : Option String := do
  let name ← fileName path.toList
  let e ← (splitName name).2
  pure (String.ofList e)

/-- A path in a directory, unless it is absolute. -/
def inDirectory (directory path : String) : String :=
  if isAbsolute path.toList then path else directory ++ "/" ++ path

end MachineAtlas.Path
