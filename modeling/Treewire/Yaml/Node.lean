import Treewire.Yaml.Token

/-!
# Nodes of a YAML document

A document is a graph: nodes refer to each other by number, so that an alias, even inside the node
it names, is just that node's number. An anchor stands for one node of a document only.
-/

namespace Treewire.Yaml

/-- The kinds of nodes that have a meaning of their own. -/
inductive Tag where
  | null | bool | int | float | binary | timestamp
  | orderedMap | pairs | set | text | sequence | mapping
  | merge | value
  | other (name : String)
  deriving DecidableEq, Inhabited

/-- What the names of the common tags start with. -/
def tagStem : String := "tag:yaml.org,2002:"

def commonTags : List (String × Tag) :=
  [("null", .null), ("bool", .bool), ("int", .int), ("float", .float), ("binary", .binary),
    ("timestamp", .timestamp), ("omap", .orderedMap), ("pairs", .pairs), ("set", .set),
    ("str", .text), ("seq", .sequence), ("map", .mapping), ("merge", .merge), ("value", .value)]

def Tag.ofString (name : String) : Tag :=
  match commonTags.find? fun entry => tagStem ++ entry.1 = name with
  | some entry => entry.2
  | none => .other name

inductive Content where
  | scalar (text : Text)
  | sequence (items : List Nat)
  | mapping (entries : List (Nat × Nat))
  deriving Inhabited

/-- A node. Without a tag, a plain scalar is told by its text. -/
structure Node where
  /-- The tag as given, if any. -/
  tag : Option Tag
  /-- Whether the text of a scalar tells what it is. -/
  plain : Bool
  content : Content
  deriving Inhabited

/-- A document in the making. -/
structure Composer where
  tokens : List Token
  /-- What follows the last token instead of the end. -/
  fault : Option Fault
  nodes : Array Node
  anchors : List (String × Nat)
  handles : List (String × String)

abbrev Compose := StateT Composer (Except Fault)

namespace Compose

def fail {α : Type} (fault : Fault) : Compose α := throw fault

def peek : Compose Token := do
  let s ← get
  match s.tokens with
  | t :: _ => return t
  | [] => fail (s.fault.getD .malformed)

def skip : Compose Unit := modify fun s => { s with tokens := s.tokens.tail }

/-- A new node's number. -/
def add (node : Node) : Compose Nat :=
  modifyGet fun s => (s.nodes.size, { s with nodes := s.nodes.push node })

def fill (id : Nat) (content : Content) : Compose Unit :=
  modify fun s => { s with nodes := s.nodes.modify id fun node => { node with content := content } }

/-- The node that stands for nothing. -/
def absent : Compose Nat := add ⟨none, true, .scalar []⟩

/-- What a node says about itself before its content. -/
structure Properties where
  anchor : Option String
  tag : Option String

def takeAnchor : Compose (Option String) := do
  match ← peek with
  | .anchor name =>
    skip
    return some name
  | _ => return none

/-- The next tag, with its handle expanded. -/
def takeTag : Compose (Option (Option String × String)) := do
  match ← peek with
  | .tag handle suffix =>
    skip
    return some (handle, suffix)
  | _ => return none

def expand : Option (Option String × String) → Compose (Option String)
  | none => return none
  | some (none, suffix) => return some suffix
  | some (some handle, suffix) => do
    match (← get).handles.lookup handle with
    | some expansion => return some (expansion ++ suffix)
    | none => fail .malformed

/-- An anchor and a tag, in either order. -/
def properties : Compose Properties := do
  match ← takeAnchor with
  | some anchor => return ⟨some anchor, ← expand (← takeTag)⟩
  | none =>
    let tag ← takeTag
    let anchor ← if tag.isSome then takeAnchor else pure none
    return ⟨anchor, ← expand tag⟩

/-- The tag that decides, if any: a lone exclamation mark leaves the decision to the content. -/
def Properties.decisive (p : Properties) : Option Tag :=
  match p.tag with
  | some "!" | none => none
  | some name => some (Tag.ofString name)

/-- A new node, known by its anchor from now on. -/
def addNamed (p : Properties) (plain : Bool) (content : Content) : Compose Nat := do
  match p.anchor with
  | none => add ⟨p.decisive, plain, content⟩
  | some name =>
    if ((← get).anchors.lookup name).isSome then fail .malformed
    else
      let id ← add ⟨p.decisive, plain, content⟩
      modify fun s => { s with anchors := (name, id) :: s.anchors }
      return id

/-- Whether the next token is one of those before which a value is absent. -/
def atAny (tokens : List Token) : Compose Bool := return tokens.contains (← peek)

/-- The next token, which has to be there. -/
def expect (t : Token) : Compose Unit := do
  if (← peek) = t then skip else fail .malformed

/-- Where a node stands: in a flow collection, in a block, or after a key in a block, where a
sequence needs no indentation. -/
inductive Place where
  | flow | block | member
  deriving DecidableEq

mutual
/-- The next node. -/
def node (place : Place) : Nat → Compose Nat
  | 0 => fail .malformed
  | fuel + 1 => do
    match ← peek with
    | .alias name =>
      skip
      match (← get).anchors.lookup name with
      | some id => return id
      | none => fail .malformed
    | _ =>
      let p ← properties
      match ← peek, place with
      | .scalar text plain, _ =>
        skip
        addNamed p (if p.tag = some "!" then true else plain) (.scalar text)
      | .blockEntry, .member => do
        let id ← addNamed p false (.sequence [])
        fill id (.sequence (← looseItems fuel))
        return id
      | .flowSequenceStart, _ => do
        skip
        let id ← addNamed p false (.sequence [])
        fill id (.sequence (← flowItems true fuel))
        return id
      | .flowMappingStart, _ => do
        skip
        let id ← addNamed p false (.mapping [])
        fill id (.mapping (← flowEntries true fuel))
        return id
      | .blockSequenceStart, .block | .blockSequenceStart, .member => do
        skip
        let id ← addNamed p false (.sequence [])
        fill id (.sequence (← blockItems fuel))
        return id
      | .blockMappingStart, .block | .blockMappingStart, .member => do
        skip
        let id ← addNamed p false (.mapping [])
        fill id (.mapping (← blockEntries fuel))
        return id
      | _, _ =>
        if p.anchor.isSome ∨ p.tag.isSome then addNamed p true (.scalar [])
        else fail .malformed
/-- The next node, absent before certain tokens. -/
def nodeUnless (tokens : List Token) (place : Place) : Nat → Compose Nat
  | 0 => fail .malformed
  | fuel + 1 => do if ← atAny tokens then absent else node place fuel
/-- The value after a key, absent without a colon. -/
def valueUnless (tokens : List Token) (place : Place) : Nat → Compose Nat
  | 0 => fail .malformed
  | fuel + 1 => do
    if (← peek) = .value then
      skip
      nodeUnless tokens place fuel
    else absent
/-- Items of a block sequence, up to its end. -/
def blockItems : Nat → Compose (List Nat)
  | 0 => fail .malformed
  | fuel + 1 => do
    if (← peek) = .blockEntry then
      skip
      let id ← nodeUnless [.blockEntry, .blockEnd] .block fuel
      return id :: (← blockItems fuel)
    else
      expect .blockEnd
      return []
/-- Items of a sequence without indentation, up to what is no item. -/
def looseItems : Nat → Compose (List Nat)
  | 0 => fail .malformed
  | fuel + 1 => do
    if (← peek) = .blockEntry then
      skip
      let id ← nodeUnless [.blockEntry, .key, .value, .blockEnd] .block fuel
      return id :: (← looseItems fuel)
    else return []
/-- Entries of a block mapping, up to its end. -/
def blockEntries : Nat → Compose (List (Nat × Nat))
  | 0 => fail .malformed
  | fuel + 1 => do
    if (← peek) = .key then
      skip
      let key ← nodeUnless [.key, .value, .blockEnd] .member fuel
      let value ← valueUnless [.key, .value, .blockEnd] .member fuel
      return (key, value) :: (← blockEntries fuel)
    else
      expect .blockEnd
      return []
/-- Items of a flow sequence, up to its end. A pair of key and value is a mapping of its own. -/
def flowItems (first : Bool) : Nat → Compose (List Nat)
  | 0 => fail .malformed
  | fuel + 1 => do
    if (← peek) = .flowSequenceEnd then
      skip
      return []
    if !first then expect .flowEntry
    match ← peek with
    | .flowSequenceEnd =>
      skip
      return []
    | .key =>
      skip
      let key ← nodeUnless [.value, .flowEntry, .flowSequenceEnd] .flow fuel
      let value ← valueUnless [.flowEntry, .flowSequenceEnd] .flow fuel
      let id ← add ⟨none, false, .mapping [(key, value)]⟩
      return id :: (← flowItems false fuel)
    | _ =>
      let id ← node .flow fuel
      return id :: (← flowItems false fuel)
/-- Entries of a flow mapping, up to its end. A node without a colon is a key without a value. -/
def flowEntries (first : Bool) : Nat → Compose (List (Nat × Nat))
  | 0 => fail .malformed
  | fuel + 1 => do
    if (← peek) = .flowMappingEnd then
      skip
      return []
    if !first then expect .flowEntry
    match ← peek with
    | .flowMappingEnd =>
      skip
      return []
    | .key =>
      skip
      let key ← nodeUnless [.value, .flowEntry, .flowMappingEnd] .flow fuel
      let value ← valueUnless [.flowEntry, .flowMappingEnd] .flow fuel
      return (key, value) :: (← flowEntries false fuel)
    | _ =>
      let key ← node .flow fuel
      let value ← absent
      return (key, value) :: (← flowEntries false fuel)
end

/-! ## Documents -/

/-- Handles that need no directive. -/
def defaultHandles : List (String × String) := [("!", "!"), ("!!", tagStem)]

/-- Takes the directives before a document. The version has to be 1, and is given once. -/
def directives (versionSeen : Bool) (handles : List (String × String)) : Nat → Compose Unit
  | 0 => fail .malformed
  | fuel + 1 => do
    match ← peek with
    | .directive (.version major _) =>
      if versionSeen ∨ major ≠ 1 then fail .malformed
      else
        skip
        directives true handles fuel
    | .directive (.handle name expansion) =>
      if (handles.lookup name).isSome then fail .malformed
      else
        skip
        directives versionSeen ((name, expansion) :: handles) fuel
    | .directive .reserved =>
      skip
      directives versionSeen handles fuel
    | _ => modify fun s => { s with handles := handles ++ defaultHandles }

/-- Passes over marks of the ends of documents. -/
def dropEnds : Nat → Compose Unit
  | 0 => return
  | fuel + 1 => do
    if (← peek) = .documentEnd then
      skip
      dropEnds fuel

/-- The root of the document that starts here. -/
def document (fuel : Nat) : Compose Nat := do
  match ← peek with
  | .directive _ | .documentStart =>
    directives false [] fuel
    expect .documentStart
    match ← peek with
    | .directive _ | .documentStart | .documentEnd | .streamEnd => absent
    | _ => node .block fuel
  | _ => node .block fuel

/-- The root of the only document, if there is one. -/
def stream (fuel : Nat) : Compose (Option Nat) := do
  if (← peek) = .streamEnd then return none
  let root ← document fuel
  dropEnds fuel
  expect .streamEnd
  return some root

end Compose

/-- The nodes of a stream's only document, and its root, if there is a document at all. -/
structure Graph where
  nodes : Array Node
  root : Option Nat

/-- Each step takes a token or leads to one that does. -/
def compose (t : Tokens) : Except Fault Graph := do
  let fuel := 4 * t.tokens.length + 8
  let (root, s) ← (Compose.stream fuel).run ⟨t.tokens, t.fault, #[], [], Compose.defaultHandles⟩
  return ⟨s.nodes, root⟩

end Treewire.Yaml
