import Treewire.Message.Dictionary
import Treewire.Yaml.Resolution
import Treewire.Yaml.Value

/-!
# Documents

A document is made from a graph of nodes: first the root, then the contents of the containers in the
order in which they were met, so of several faults the one nearest to the root is reported. Entries
of mappings named by a merge key come before a mapping's own entries, which take precedence.
-/

namespace Treewire.Yaml

/-- An atom, or the number of a container. -/
inductive Item where
  | atom (a : Atom)
  | container (id : Nat)
  deriving Inhabited

inductive Container where
  | list (items : List Item)
  | pairs (entries : List (Item × Item))
  | mapping (entries : List (Atom × Item))
  | set (keys : List Atom)
  deriving Inhabited

structure Document where
  containers : List (Nat × Container)
  root : Item

/-! ## Scalars -/

/-- Texts of the two truth values, whatever the case. -/
def truth? (t : Text) : Option Bool :=
  (Text.toString? t).bind fun s =>
    let s := String.ofList (s.toList.map Char.toLower)
    if s = "yes" ∨ s = "true" ∨ s = "on" then some true
    else if s = "no" ∨ s = "false" ∨ s = "off" then some false
    else none

/-- The sign in front of a number without underscores, and the rest, which is not empty. -/
def signed (t : Text) : Except Fault (Bool × Text) :=
  match t.filter (· != .scalar '_') with
  | [] => .error .emptyNumber
  | .scalar '-' :: rest => .ok (true, rest)
  | .scalar '+' :: rest => .ok (false, rest)
  | t => .ok (false, t)

def startsWith (s : String) (t : Text) : Bool := (Text.ofString s).isPrefixOf t

def numeral (base : Nat) (t : Text) : Except Fault Int :=
  match Numeral.integer? base t with
  | some i => .ok i
  | none => .error .badValue

def colon : Symbol := .scalar ':'

/-- An integer: binary, hexadecimal, octal after a zero, in groups of sixtieths, or decimal. -/
def integer (t : Text) : Except Fault Int := do
  let (negative, t) ← signed t
  let magnitude ←
    if t.isEmpty then .error .emptyNumber
    else if startsWith "0b" t then numeral 2 (t.drop 2)
    else if startsWith "0x" t then numeral 16 (t.drop 2)
    else if startsWith "0" t ∧ t.length > 1 then numeral 8 t
    else do
      let groups ← (pieces colon t).mapM (numeral 10)
      pure (groups.foldl (fun n group => n * 60 + group) 0)
  return if negative then -magnitude else magnitude

def realNumeral (t : Text) : Except Fault Binary64 :=
  match Numeral.real? t with
  | some x => .ok x
  | none => .error .badValue

/-- The sum of groups, the last first, each weighing sixty times the one before. -/
def sixtieths (sum : Binary64) (weight : Nat) : List Binary64 → Except Fault Binary64
  | [] => .ok sum
  | x :: rest =>
    let w := Binary64.ofInt weight
    if w = .infinity false then .error .tooLarge
    else sixtieths (sum.add (x.mul w)) (weight * 60) rest

def real (t : Text) : Except Fault Binary64 := do
  let (negative, t) ← signed t
  let lower := t.map fun
    | .scalar c => Symbol.scalar c.toLower
    | s => s
  if lower = Text.ofString ".nan" then return .nan
  else
    let magnitude ←
      if lower = Text.ofString ".inf" then .ok (.infinity false)
      else match pieces colon t with
        | [_] => realNumeral t
        | groups => do
          let groups ← groups.mapM realNumeral
          sixtieths ⟨0⟩ 1 groups.reverse
    return if negative then magnitude.neg else magnitude

/-- The value of a letter in the 64-letter alphabet. -/
def letterValue? (c : Char) : Option Nat := Message.base64Digits.idxOf? c

/-- The octets of binary data that comes in letters. Other characters are passed over; padding ends
the data where a group of four would be complete with it. -/
def octets? (position carry padding : Nat) : List Char → Option Bytes
  | [] => if position = 0 then some [] else none
  | c :: rest =>
    if c = '=' then
      if 2 ≤ position ∧ 4 ≤ position + padding + 1 then some []
      else octets? position carry (if 2 ≤ position then padding + 1 else padding) rest
    else match letterValue? c with
      | none => octets? position carry padding rest
      | some n =>
        match position with
        | 0 => octets? 1 n 0 rest
        | 1 => (octets? 2 (n % 16) 0 rest).map (UInt8.ofNat (carry * 4 + n / 16) :: ·)
        | 2 => (octets? 3 (n % 4) 0 rest).map (UInt8.ofNat (carry * 16 + n / 4) :: ·)
        | _ => (octets? 0 0 0 rest).map (UInt8.ofNat (carry * 64 + n) :: ·)

def binary (t : Text) : Except Fault Bytes :=
  match Text.toChars? t with
  | none => .error .malformed
  | some cs =>
    if cs.any fun c => 0x80 ≤ c.toNat then .error .malformed
    else match octets? 0 0 0 cs with
      | some bytes => .ok bytes
      | none => .error .malformed

/-- A date with one or two digits for month and day, alone or as part of a point of time. -/
def timestampForm : Pattern :=
  .either momentForm
    (Pattern.sequence [yearForm, .word "-", oneOrTwoDigits, .word "-", oneOrTwoDigits])

/-- The runs of digits in a text. -/
def numbersIn (cs : List Char) : List (List Char) :=
  (pieces ' ' (cs.map fun c => if c.isDigit then c else ' ')).filter (!·.isEmpty)

def naturalOf (digits : List Char) : Nat :=
  digits.foldl (fun n c => n * 10 + (c.toNat - 0x30)) 0

/-- The first six digits of a fraction, filled up with zeros. -/
def microseconds (digits : List Char) : Nat :=
  naturalOf ((digits ++ List.replicate 6 '0').take 6)

/-- The zone at the end of a point of time, given what follows the seconds. -/
def zone (cs : List Char) : Option Int :=
  let minutes (digits : List Char) : Int :=
    match numbersIn digits with
    | [hours] => naturalOf hours * 60
    | hours :: rest :: _ => naturalOf hours * 60 + naturalOf rest
    | [] => 0
  match cs.dropWhile isGap with
  | 'Z' :: _ => some 0
  | '-' :: rest => some (-minutes rest)
  | '+' :: rest => some (minutes rest)
  | _ => none

/-- What follows the seconds in the text of a point of time: the colons before it are two. -/
def afterSeconds (cs : List Char) : List Char :=
  let tail := (cs.dropWhile (· != ':')).drop 1
  ((tail.dropWhile (· != ':')).drop 1).drop 2

/-- A point of time from a text that has the form of one. -/
def momentOf (cs : List Char) : Except Fault Atom :=
  match (numbersIn cs).map naturalOf with
  | year :: month :: day :: hour :: minute :: second :: _ =>
    let tail := afterSeconds cs
    let (fraction, tail) := match tail with
      | '.' :: rest => (rest.takeWhile Char.isDigit, rest.dropWhile Char.isDigit)
      | _ => ([], tail)
    let date : Date := ⟨year, month, day⟩
    let clock : Clock := ⟨hour, minute, second, microseconds fraction⟩
    let zone := zone tail
    if date.isValid ∧ clock.isValid ∧ zone.all fun minutes => minutes.natAbs < 1440 then
      .ok (.moment date clock zone)
    else .error .badValue
  | [year, month, day] =>
    let date : Date := ⟨year, month, day⟩
    if date.isValid then .ok (.date date) else .error .badValue
  | _ => .error .notTimestamp

def timestamp (t : Text) : Except Fault Atom :=
  match Text.toChars? t with
  | none => .error .notTimestamp
  | some cs => if hasForm timestampForm cs then momentOf cs else .error .notTimestamp

/-! ## Containers -/

structure Builder where
  nodes : Array Node
  /-- Containers met so far, whose contents are still to come, in that order. -/
  waiting : List Nat
  met : List Nat
  done : List (Nat × Container)

abbrev Build := StateT Builder (Except Fault)

namespace Build

def fail {α : Type} (fault : Fault) : Build α := throw fault

def nodeAt (id : Nat) : Build Node := return ((← get).nodes[id]?).getD default

def setNode (id : Nat) (node : Node) : Build Unit :=
  modify fun s => { s with nodes := s.nodes.setIfInBounds id node }

/-- The node under the `=` key. -/
def valueUnder : List (Nat × Nat) → Build Nat
  | [] => fail .malformed
  | (key, value) :: rest => do
    if (← nodeAt key).resolved = .value then return value else valueUnder rest

/-- The text of a scalar. A mapping stands for the scalar under its `=` key. -/
def scalarText : Nat → Nat → Build Text
  | 0, _ => fail .endless
  | fuel + 1, id => do
    match (← nodeAt id).content with
    | .scalar text => return text
    | .sequence _ => fail .malformed
    | .mapping entries => scalarText fuel (← valueUnder entries)

/-- The text of the scalar that a node stands for. -/
def textAt (id : Nat) : Build Text := do scalarText ((← get).nodes.size + 1) id

/-- A container to be filled later, once. -/
def meet (id : Nat) : Build Item := do
  modify fun s =>
    if s.met.contains id then s
    else { s with met := id :: s.met, waiting := s.waiting ++ [id] }
  return .container id

/-- What a node stands for. -/
def item (id : Nat) : Build Item := do
  let node ← nodeAt id
  match node.resolved with
  | .null =>
    let _ ← textAt id
    return .atom .null
  | .bool =>
    match truth? (← textAt id) with
    | some b => return .atom (.bool b)
    | none => fail .unknownTruth
  | .int => return .atom (.int (← integer (← textAt id)))
  | .float => return .atom (.float (← real (← textAt id)))
  | .binary => return .atom (.bytes (← binary (← textAt id)))
  | .timestamp =>
    let text ← textAt id
    match node.content with
    | .scalar _ => return .atom (← timestamp text)
    | _ => fail .mappedTimestamp
  | .text => return .atom (.text (← textAt id))
  | .orderedMap | .pairs | .set | .sequence | .mapping => meet id
  | .merge | .value | .other _ => fail .malformed

def entriesAt (id : Nat) : Build (List (Nat × Nat)) := do
  match (← nodeAt id).content with
  | .mapping entries => return entries
  | _ => fail .malformed

def setEntries (id : Nat) (entries : List (Nat × Nat)) : Build Unit := do
  setNode id { ← nodeAt id with content := .mapping entries }

mutual
/-- Takes the merge keys out of a mapping and puts the entries that they name in front. An `=` key
becomes a text. -/
def flatten : Nat → Nat → Build Unit
  | 0, _ => fail .endless
  | fuel + 1, id => do
    let merged ← takeMerges fuel id 0
    if !merged.isEmpty then setEntries id (merged ++ (← entriesAt id))
/-- The entries that merge keys from a position on name. -/
def takeMerges : Nat → Nat → Nat → Build (List (Nat × Nat))
  | 0, _, _ => fail .endless
  | fuel + 1, id, position => do
    match (← entriesAt id)[position]? with
    | none => return []
    | some (key, value) =>
      match (← nodeAt key).resolved with
      | .merge =>
        setEntries id ((← entriesAt id).eraseIdx position)
        let merged ← mergedEntries fuel value
        return merged ++ (← takeMerges fuel id position)
      | .value =>
        setNode key { ← nodeAt key with tag := some .text }
        takeMerges fuel id (position + 1)
      | _ => takeMerges fuel id (position + 1)
/-- The entries of a mapping, or of the mappings in a sequence, the last one first. -/
def mergedEntries : Nat → Nat → Build (List (Nat × Nat))
  | 0, _ => fail .endless
  | fuel + 1, id => do
    match (← nodeAt id).content with
    | .mapping _ =>
      flatten fuel id
      entriesAt id
    | .sequence items => return (← mergedItems fuel items).reverse.flatten
    | .scalar _ => fail .malformed
def mergedItems : Nat → List Nat → Build (List (List (Nat × Nat)))
  | 0, _ => fail .endless
  | _, [] => return []
  | fuel + 1, id :: rest => do
    match (← nodeAt id).content with
    | .mapping _ =>
      flatten fuel id
      let entries ← entriesAt id
      return entries :: (← mergedItems fuel rest)
    | _ => fail .malformed
end

/-- A key, which cannot be a container. -/
def keyItem (id : Nat) : Build Atom := do
  match ← item id with
  | .atom a => return a
  | .container _ => fail .malformed

/-- With the entry at the place of its key, or at the end. -/
def putEntry (key : Atom) (value : Item) : List (Atom × Item) → List (Atom × Item)
  | [] => [(key, value)]
  | (k, v) :: rest =>
    if k.sameKey key then (k, value) :: rest else (k, v) :: putEntry key value rest

/-- The number of steps that all merges of a document can take. -/
def mergeBound : Build Nat := do
  let nodes := (← get).nodes
  let size (node : Node) : Nat := match node.content with
    | .mapping entries => entries.length
    | .sequence items => items.length
    | .scalar _ => 0
  return 4 * nodes.foldl (fun n node => n + size node + 4) 8

def mappingEntries (id : Nat) : Build (List (Atom × Item)) := do
  let _ ← entriesAt id
  flatten (← mergeBound) id
  (← entriesAt id).foldlM (fun entries (key, value) => do
    let key ← keyItem key
    let value ← item value
    return putEntry key value entries) []

def sequenceAt (id : Nat) : Build (List Nat) := do
  match (← nodeAt id).content with
  | .sequence items => return items
  | _ => fail .malformed

/-- The only entry of a mapping. -/
def singleEntry (id : Nat) : Build (Item × Item) := do
  match ← entriesAt id with
  | [(key, value)] =>
    let key ← item key
    let value ← item value
    return (key, value)
  | _ => fail .malformed

def contents (id : Nat) : Build Container := do
  match (← nodeAt id).resolved with
  | .orderedMap | .pairs => return .pairs (← (← sequenceAt id).mapM singleEntry)
  | .set => return .set ((← mappingEntries id).map (·.1))
  | .mapping => return .mapping (← mappingEntries id)
  | _ => return .list (← (← sequenceAt id).mapM item)

/-- Fills the containers that wait; each waits once. -/
def fillAll : Nat → Build Unit
  | 0 => return
  | fuel + 1 => do
    match (← get).waiting with
    | [] => return
    | id :: rest =>
      modify fun s => { s with waiting := rest }
      let container ← contents id
      modify fun s => { s with done := (id, container) :: s.done }
      fillAll fuel

end Build

/-- The document that a graph describes; an empty stream is a document of nothing. -/
def Document.ofGraph (g : Graph) : Except Fault Document :=
  match g.root with
  | none => .ok ⟨[], .atom .null⟩
  | some root => do
    let build : Build Item := do
      let item ← Build.item root
      Build.fillAll (g.nodes.size + 1)
      return item
    let (item, s) ← build.run ⟨g.nodes, [], [], []⟩
    return ⟨s.done, item⟩

/-- The document in a stream of characters. -/
def Document.read (cs : List Char) : Except Fault Document := do
  Document.ofGraph (← compose (scan cs))

namespace Document

def container (d : Document) (id : Nat) : Container := (d.containers.lookup id).getD (.list [])

/-- The value of an item, cut where a container turns up inside itself. -/
def unfold (d : Document) : Nat → List Nat → Item → Value
  | _, _, .atom a => .atom a
  | 0, _, .container _ => .again .list
  | fuel + 1, path, .container id =>
    let inner := d.unfold fuel (id :: path)
    match d.container id with
    | .list items => if path.contains id then .again .list else .list (items.map inner)
    | .pairs entries =>
      if path.contains id then .again .list
      else .list (entries.map fun (k, v) => .pair (inner k) (inner v))
    | .mapping entries =>
      if path.contains id then .again .mapping
      else .mapping (entries.map fun (k, v) => (.atom k, inner v))
    | .set keys => .set (keys.map .atom)

/-- The value of an item. No path without repetition is longer than the number of containers. -/
def value (d : Document) (item : Item) : Value := d.unfold (d.containers.length + 1) [] item

/-- The entries of the root, if it is a mapping. -/
def entries? (d : Document) : Option (List (Atom × Value)) :=
  match d.root with
  | .atom _ => none
  | .container id =>
    match d.container id with
    | .mapping entries => some (entries.map fun (k, v) => (k, d.value v))
    | _ => none

/-- Whether the root counts as nothing. -/
def isEmpty (d : Document) : Bool :=
  match d.root with
  | .atom a => a.isEmpty
  | .container id =>
    match d.container id with
    | .list items => items.isEmpty
    | .pairs entries => entries.isEmpty
    | .mapping entries => entries.isEmpty
    | .set keys => keys.isEmpty

end Document

end Treewire.Yaml
