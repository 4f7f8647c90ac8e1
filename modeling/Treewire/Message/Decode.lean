import Treewire.Message
import Treewire.Wire
import Treewire.Text.Utf8

/-!
# Decoding messages

The records of a body are absorbed into a message one after another: elements are appended,
singular values replaced, sub-messages merged, and a member of a oneof puts out the others. A
record that its type does not know is passed over, and so is a map entry with such a record in it. Sub-messages and groups nest as deep as a limit
allows.
-/

namespace Treewire.Message

open Wire

/-- What a record's content says for a field type: a value, nothing that concerns the type, or
something that no value of the type looks like. -/
inductive Reading where
  | value (v : Value)
  | foreign
  | malformed

/-- The low 32 bits as a signed number. -/
def signed32 (v : UInt64) : Int := v.toUInt32.toInt32.toInt

/-- All 64 bits as a signed number. -/
def signed64 (v : UInt64) : Int := v.toInt64.toInt

/-- Numbers that alternate in sign: 0, -1, 1, -2, … -/
def alternating (n : Nat) : Int := if n % 2 = 0 then (n / 2 : Nat) else -((n / 2 : Nat) : Int) - 1

def readScalar (kind : ScalarKind) (content : Content) : Reading :=
  match kind, content with
  | .int32, .varint v => .value (.int (signed32 v))
  | .int64, .varint v => .value (.int (signed64 v))
  | .uint32, .varint v => .value (.int v.toUInt32.toNat)
  | .uint64, .varint v => .value (.int v.toNat)
  | .sint32, .varint v => .value (.int (alternating v.toUInt32.toNat))
  | .sint64, .varint v => .value (.int (alternating v.toNat))
  | .bool, .varint v => .value (.bool (v != 0))
  | .fixed32, .fixed32 v => .value (.int v.toNat)
  | .sfixed32, .fixed32 v => .value (.int v.toInt32.toInt)
  | .float, .fixed32 v => .value (.float ⟨v⟩)
  | .fixed64, .fixed64 v => .value (.int v.toNat)
  | .sfixed64, .fixed64 v => .value (.int v.toInt64.toInt)
  | .double, .fixed64 v => .value (.double ⟨v⟩)
  | .string, .block bytes =>
    match Utf8.decodeString? bytes with
    | some s => .value (.string s)
    | none => .malformed
  | .looseString, .block bytes =>
    match Utf8.decodeString? bytes with
    | some s => .value (.string s)
    | none => .value (.bytes bytes)
  | .bytes, .block bytes => .value (.bytes bytes)
  | _, _ => .foreign

/-- The wire type under which values of a kind are packed; strings and octets are not. -/
def packedWireType? : ScalarKind → Option Nat
  | .string | .looseString | .bytes => none
  | .fixed32 | .sfixed32 | .float => some 5
  | .fixed64 | .sfixed64 | .double => some 1
  | _ => some 0

/-- A mark as content, unless it belongs to a group. -/
def Content.ofMark? : Mark → Option Content
  | .varint v => some (.varint v)
  | .fixed64 v => some (.fixed64 v)
  | .fixed32 v => some (.fixed32 v)
  | .block bytes => some (.block bytes)
  | .openGroup | .closeGroup => none

/-- Contents of one wire type without tags between them. -/
def unpack? (wireType : Nat) (bytes : Bytes) : Option (List Content) :=
  if bytes = [] then some []
  else match mark? wireType bytes with
    | none => none
    | some (mark, rest) =>
      if rest.length < bytes.length then do
        let content ← Content.ofMark? mark
        let more ← unpack? wireType rest
        return content :: more
      else none
  termination_by bytes.length

/-- A closed enumeration has only the numbers it lists; an unknown type counts as open. -/
def enumHolds (s : Schema) (name : String) (number : Int) : Bool :=
  match s.enum? name with
  | some e => !e.closed || (e.nameOf? number).isSome
  | none => true

/-- A content for a field type without parts. -/
def readLeaf (s : Schema) (kind : FieldKind) (content : Content) : Reading :=
  match kind with
  | .scalar kind => readScalar kind content
  | .enum name =>
    match content with
    | .varint v =>
      if enumHolds s name (signed32 v) then .value (.int (signed32 v)) else .foreign
    | _ => .foreign
  | _ => .foreign

/-- How the values of a repeated field are packed. -/
def packing? : FieldKind → Option Nat
  | .scalar kind => packedWireType? kind
  | .enum _ => some 0
  | _ => none

/-- Sets a field of a message, as its cardinality and its oneof ask. -/
def put (t : MessageType) (f : Field) (value : Value) (m : Message) : Message :=
  match f.cardinality with
  | .repeated => m.append f.number value
  | .implicit => if value.isDefault then m.erase f.number else m.set f.number value
  | .explicit =>
    let others := t.fields.filter (MessageType.excludes f)
    (others.foldl (fun m g => m.erase g.number) m).set f.number value

/-- The value of a field that was never set. -/
def defaultOf (s : Schema) : FieldKind → Value
  | .scalar .double => .double ⟨0⟩
  | .scalar .float => .float ⟨0⟩
  | .scalar .bool => .bool false
  | .scalar .string | .scalar .looseString => .string ""
  | .scalar .bytes => .bytes []
  | .scalar _ => .int 0
  | .enum name =>
    match s.enum? name with
    | some e => .int (if e.closed then (e.values.head?.map (·.2)).getD 0 else 0)
    | none => .int 0
  | .message _ | .group _ => .message .empty

/-- Keys of maps in order: numbers by size, texts by code points. -/
def keyOrder : Value → Value → Ordering
  | .int i, .int j => compare i j
  | .bool a, .bool b => compare a.toNat b.toNat
  | .string s, .string t => compare s t
  | _, _ => .eq

def keyOf : Value → Value
  | .message m => (m.get? 1).getD (.int 0)
  | _ => .int 0

/-- An entry among the entries of a map, in place of one with its key. -/
def insertEntry (new : Value) : List Value → List Value
  | [] => [new]
  | old :: rest =>
    match keyOrder (keyOf new) (keyOf old) with
    | .lt => new :: old :: rest
    | .eq => new :: rest
    | .gt => old :: insertEntry new rest

/-- A map entry with both parts. -/
def completeEntry (s : Schema) (t : MessageType) (m : Message) : Message :=
  ofList (t.fields.map fun f => (f.number, (m.get? f.number).getD (defaultOf s f.kind)))

/-- Puts a sub-message in place, merged already with the one it extends. -/
def putMessage (s : Schema) (t : MessageType) (f : Field) (type : MessageType) (value : Message)
    (m : Message) : Message :=
  if type.isMapEntry ∧ f.cardinality = .repeated then
    let entries := insertEntry (.message (completeEntry s type value)) (m.values f.number)
    entries.foldl (fun m v => m.append f.number v) (m.erase f.number)
  else put t f (.message value) m

/-- The message that a record of a singular field extends. -/
def current (f : Field) (m : Message) : Message :=
  match f.cardinality, m.get? f.number with
  | .repeated, _ => .empty
  | _, some (.message value) => value
  | _, _ => .empty

/-- Whether a type has a place for a record. -/
def knows (s : Schema) (t : MessageType) (record : Record) : Bool :=
  match t.field? record.1 with
  | none => false
  | some f =>
    match f.kind, record.2 with
    | .message _, .block _ | .group _, .group _ => true
    | .message _, _ | .group _, _ => false
    | kind, content =>
      match readLeaf s kind content with
      | .foreign => false
      | _ => true

/-- How a body is absorbed into a message of a type. -/
abbrev Absorb := MessageType → Message → List Record → Option Message

/-- Absorbs one record. `nested` reads sub-messages, while there is room for them. -/
def absorbRecord (s : Schema) (nested : Option Absorb) (room : Nat) (t : MessageType)
    (m : Message) (record : Record) : Option Message :=
  let (number, content) := record
  let skip : Option Message := if content.depth ≤ room then some m else none
  let within (f : Field) (name : String) (body : Option (List Record)) : Option Message := do
    let type ← s.message? name
    let records ← body
    let value ← (← nested) type (current f m) records
    return if type.isMapEntry && !records.all (knows s type) then m
      else putMessage s t f type value m
  match t.field? number with
  | none => skip
  | some f =>
    match f.kind, content with
    | .message name, .block bytes => within f name (records? bytes)
    | .group name, .group body => within f name (some body)
    | .message _, _ | .group _, _ => skip
    | kind, content =>
      match readLeaf s kind content with
      | .value v => some (put t f v m)
      | .malformed => none
      | .foreign =>
        match content, packing? kind, f.cardinality with
        | .block bytes, some wireType, .repeated => do
          let contents ← unpack? wireType bytes
          let values := contents.filterMap fun content =>
            match readLeaf s kind content with
            | .value v => some v
            | _ => none
          return values.foldl (fun m v => put t f v m) m
        | _, _, _ => skip

/-- Absorbs records, with sub-messages at most `depth` deep. -/
def absorb (s : Schema) : Nat → Absorb
  | 0, t, m, records => records.foldlM (absorbRecord s none 0 t) m
  | depth + 1, t, m, records =>
    records.foldlM (absorbRecord s (some (absorb s depth)) (depth + 1) t) m

/-- How deep sub-messages may nest. -/
def depthLimit : Nat := 100

/-- The message of a type that octets encode. -/
def decode? (s : Schema) (t : MessageType) (bytes : Bytes) : Option Message := do
  absorb s depthLimit t .empty (← records? bytes)

end Treewire.Message
