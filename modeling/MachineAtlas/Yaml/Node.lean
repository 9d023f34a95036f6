-- SUMMARY: The trees that tokens spell, with aliases put in.
import MachineAtlas.Yaml.Token
/-!
# Nodes

The tree that tokens spell. An alias stands for the node of its anchor; one inside that very node is
a loop.
-/
namespace MachineAtlas.Yaml

inductive Node where
  | scalar (tag : Option String) (style : Style) (text : String)
  | sequence (items : List Node)
  | mapping (members : List (Node × Node))
  | loop
  deriving Inhabited

namespace Node

/-- What an omitted node is. -/
def empty : Node := .scalar none .plain ""

/-! ## Reading -/

/-- What a document has named: the handles of tags and the anchors. An anchor without node is one
whose node is being read. -/
structure Names where
  handles : List (String × String)
  anchors : List (String × Option Node) := []
  deriving Inhabited

def standardHandles : List (String × String) := [("!", "!"), ("!!", "tag:yaml.org,2002:")]

/-- A node, the names after it, and the tokens after it. -/
abbrev Reading := Option (Node × Names × List Token)

/-- The full text of a tag. -/
def Names.resolve (names : Names) (handle suffix : String) : Option String :=
  if handle.isEmpty then some suffix
  else (names.handles.lookup handle).map (· ++ suffix)

/-- The properties in front of a node: a tag and an anchor, in either order. -/
structure Properties where
  tag : Option String := none
  anchor : Option String := none

def readProperties (names : Names) : List Token → Option (Properties × List Token)
  | .anchor a :: .tag h t :: rest => do
    pure ({ tag := some (← names.resolve h t), anchor := some a }, rest)
  | .tag h t :: .anchor a :: rest => do
    pure ({ tag := some (← names.resolve h t), anchor := some a }, rest)
  | .anchor a :: rest => some ({ anchor := some a }, rest)
  | .tag h t :: rest => do pure ({ tag := some (← names.resolve h t) }, rest)
  | rest => some ({}, rest)

/-- Names the node of an anchor. -/
def Names.bind (names : Names) (anchor : Option String) (node : Option Node) : Names :=
  match anchor with
  | none => names
  | some a => { names with anchors := (a, node) :: names.anchors }

/-- A token that ends the place of a node in a block. -/
def endsBlockPlace : List Token → Bool
  | .key :: _ | .value :: _ | .blockEnd :: _ => true
  | _ => false

def endsSequencePlace : List Token → Bool
  | .blockEntry :: _ => true
  | ts => endsBlockPlace ts

mutual

/-- Reads a node. `block` says that it may be a block collection, `indentless` that it may be a
sequence that is not deeper than the mapping around it. -/
def read (block indentless : Bool) (names : Names) (ts : List Token) : Nat → Reading
  | 0 => none
  | fuel + 1 =>
    match ts with
    | .alias name :: rest => do
      let node ← names.anchors.lookup name
      pure (node.getD .loop, names, rest)
    | ts => do
      let (properties, ts) ← readProperties names ts
      let names := names.bind properties.anchor none
      let scalar (style : Style) (text : String) (ts : List Token) : Reading :=
        let node := Node.scalar properties.tag style text
        some (node, names.bind properties.anchor (some node), ts)
      let close (r : Reading) : Reading := do
        let (node, names, ts) ← r
        pure (node, names.bind properties.anchor (some node), ts)
      match ts with
      | .scalar style text :: rest => scalar style text rest
      | .flowSequenceStart :: rest => close (readFlowSequence true [] names rest fuel)
      | .flowMappingStart :: rest => close (readFlowMapping true [] names rest fuel)
      | .blockEntry :: rest =>
        if indentless then close (readIndentless [] names (.blockEntry :: rest) fuel)
        else if properties.tag.isSome ∨ properties.anchor.isSome then
          scalar .plain "" (.blockEntry :: rest)
        else none
      | .blockSequenceStart :: rest =>
        if block then close (readBlockSequence [] names rest fuel)
        else none
      | .blockMappingStart :: rest =>
        if block then close (readBlockMapping [] names rest fuel)
        else none
      | rest =>
        if properties.tag.isSome ∨ properties.anchor.isSome then scalar .plain "" rest else none

/-- Reads a node, or nothing where there is none. -/
def readOr (omitted : Bool) (block indentless : Bool) (names : Names) (ts : List Token) :
    Nat → Reading
  | 0 => none
  | fuel + 1 => if omitted then some (empty, names, ts) else read block indentless names ts fuel

def readBlockSequence (items : List Node) (names : Names) (ts : List Token) : Nat → Reading
  | 0 => none
  | fuel + 1 =>
    match ts with
    | .blockEntry :: rest => do
      let omitted := match rest with
        | .blockEntry :: _ | .blockEnd :: _ => true
        | _ => false
      let (node, names, rest) ← readOr omitted true false names rest fuel
      readBlockSequence (items ++ [node]) names rest fuel
    | .blockEnd :: rest => some (.sequence items, names, rest)
    | _ => none

def readIndentless (items : List Node) (names : Names) (ts : List Token) : Nat → Reading
  | 0 => none
  | fuel + 1 =>
    match ts with
    | .blockEntry :: rest => do
      let (node, names, rest) ← readOr (endsSequencePlace rest) true false names rest fuel
      readIndentless (items ++ [node]) names rest fuel
    | rest => some (.sequence items, names, rest)

def readBlockMapping (members : List (Node × Node)) (names : Names) (ts : List Token) :
    Nat → Reading
  | 0 => none
  | fuel + 1 =>
    match ts with
    | .key :: rest => do
      let (k, names, rest) ← readOr (endsBlockPlace rest) true true names rest fuel
      match rest with
      | .value :: rest => do
        let (v, names, rest) ← readOr (endsBlockPlace rest) true true names rest fuel
        readBlockMapping (members ++ [(k, v)]) names rest fuel
      | rest => readBlockMapping (members ++ [(k, empty)]) names rest fuel
    | .blockEnd :: rest => some (.mapping members, names, rest)
    | _ => none

/-- Reads the rest of a flow sequence. An element after a key is a mapping of one member. -/
def readFlowSequence (first : Bool) (items : List Node) (names : Names) (ts : List Token) :
    Nat → Reading
  | 0 => none
  | fuel + 1 => do
    let ts ← match first, ts with
      | _, .flowSequenceEnd :: rest => some (.flowSequenceEnd :: rest)
      | true, ts => some ts
      | false, .flowEntry :: rest => some rest
      | false, _ => none
    match ts with
    | .flowSequenceEnd :: rest => some (.sequence items, names, rest)
    | .key :: rest => do
      let (k, names, rest) ← match rest with
        | .value :: rest | .flowEntry :: rest | .flowSequenceEnd :: rest =>
          some (empty, names, rest)
        | rest => read false false names rest fuel
      let (v, names, rest) ← match rest with
        | .value :: rest =>
          let omitted := match rest with
            | .flowEntry :: _ | .flowSequenceEnd :: _ => true
            | _ => false
          readOr omitted false false names rest fuel
        | rest => some (empty, names, rest)
      readFlowSequence false (items ++ [.mapping [(k, v)]]) names rest fuel
    | rest => do
      let (node, names, rest) ← read false false names rest fuel
      readFlowSequence false (items ++ [node]) names rest fuel

/-- Reads the rest of a flow mapping. A member without a key mark is a key without value. -/
def readFlowMapping (first : Bool) (members : List (Node × Node)) (names : Names)
    (ts : List Token) : Nat → Reading
  | 0 => none
  | fuel + 1 => do
    let ts ← match first, ts with
      | _, .flowMappingEnd :: rest => some (.flowMappingEnd :: rest)
      | true, ts => some ts
      | false, .flowEntry :: rest => some rest
      | false, _ => none
    match ts with
    | .flowMappingEnd :: rest => some (.mapping members, names, rest)
    | .key :: rest => do
      let omitted := match rest with
        | .value :: _ | .flowEntry :: _ | .flowMappingEnd :: _ => true
        | _ => false
      let (k, names, rest) ← readOr omitted false false names rest fuel
      let (v, names, rest) ← match rest with
        | .value :: rest =>
          let omitted := match rest with
            | .flowEntry :: _ | .flowMappingEnd :: _ => true
            | _ => false
          readOr omitted false false names rest fuel
        | rest => some (empty, names, rest)
      readFlowMapping false (members ++ [(k, v)]) names rest fuel
    | rest => do
      let (k, names, rest) ← read false false names rest fuel
      readFlowMapping false (members ++ [(k, empty)]) names rest fuel

end

/-! ## Documents -/

/-- Reads the directives in front of a document: one version at most, of two that there are, and
one tag of a handle at most. -/
def readDirectives (version : Bool) (handles : List (String × String)) :
    List Token → Option (List (String × String) × List Token)
  | .versionDirective major minor :: rest =>
    if version ∨ ¬ (major = 1 ∧ (minor = 1 ∨ minor = 2)) then none
    else readDirectives true handles rest
  | .tagDirective handle first :: rest =>
    if (handles.lookup handle).isSome then none
    else readDirectives version (handles ++ [(handle, first)]) rest
  | rest => some (handles ++ standardHandles, rest)

/-- A text without document, or the node of its only document. -/
inductive Stream where
  | blank
  | document (node : Node)

def isContent : List Token → Bool
  | .versionDirective .. :: _ | .tagDirective .. :: _ | .documentStart :: _ | .documentEnd :: _
  | .streamEnd :: _ => false
  | _ => true

/-- Nothing may follow the only document but marks of its end. -/
def readEnd (node : Node) : List Token → Option Stream
  | .documentEnd :: rest => readEnd node rest
  | [.streamEnd] => some (.document node)
  | _ => none

/-- The only document that tokens spell, if any. -/
def ofTokens? (ts : List Token) : Option Stream :=
  let fuel := 3 * ts.length + 3
  match ts with
  | [.streamEnd] => some .blank
  | ts =>
    match ts with
    | .versionDirective .. :: _ | .tagDirective .. :: _ | .documentStart :: _ => do
      let (handles, rest) ← readDirectives false [] ts
      match rest with
      | .documentStart :: rest =>
        if isContent rest then do
          let (node, _, rest) ← read true false { handles } rest fuel
          readEnd node rest
        else readEnd empty rest
      | _ => none
    | ts => do
      let (node, _, rest) ← read true false { handles := standardHandles } ts fuel
      readEnd node rest

def ofText? (s : String) : Option Stream := do ofTokens? (← Token.ofText? s)

end Node

end MachineAtlas.Yaml
