import Treewire.Message
import Treewire.Text.Quoted

/-!
# Messages as JSON values

Members are named as in the schema and stand in number order; a repeated field becomes one array, a
map one object. Integers of 64 bits become decimal texts, since readers keep only 53 bits of a
number; so do the values that JSON numbers cannot hold.
-/

namespace Treewire.Message

/-- Digits of the 64-letter alphabet for binary data. -/
def base64Digits : List Char :=
  "ABCDEFGHIJKLMNOPQRSTUVWXYZabcdefghijklmnopqrstuvwxyz0123456789+/".toList

/-- Three octets become four letters; a shorter end is filled with `=`. -/
def base64 : Bytes → List Char
  | [] => []
  | [a] =>
    let n := a.toNat * 65536
    [letter (n / 262144), letter (n / 4096), '=', '=']
  | [a, b] =>
    let n := a.toNat * 65536 + b.toNat * 256
    [letter (n / 262144), letter (n / 4096), letter (n / 64), '=']
  | a :: b :: c :: rest =>
    let n := a.toNat * 65536 + b.toNat * 256 + c.toNat
    letter (n / 262144) :: letter (n / 4096) :: letter (n / 64) :: letter n :: base64 rest
where
  letter (n : Nat) : Char := base64Digits.getD (n % 64) 'A'

/-- Finite numbers as such, the others by name. -/
def doubleJson (x : Binary64) : Json :=
  match x.value with
  | .finite .. => .float x
  | _ => .ofString (Json.floatText x)

def isWide : ScalarKind → Bool
  | .int64 | .uint64 | .sint64 | .fixed64 | .sfixed64 => true
  | _ => false

/-- A value without parts. -/
def leafJson (s : Schema) (kind : FieldKind) : Value → Json
  | .int i =>
    match kind with
    | .enum name =>
      match (s.enum? name).bind (·.nameOf? i) with
      | some name => .ofString name
      | none => .int i
    | .scalar kind => if isWide kind then .ofString (toString i) else .int i
    | _ => .int i
  | .bool b => .bool b
  | .double x => doubleJson x
  | .float x => doubleJson x.leastSix
  | .string t => .ofString t
  | .bytes b =>
    match kind with
    | .scalar .looseString => .text (Text.quotedBytes b)
    | _ => .ofString (String.ofList (base64 b))
  | .message _ => .null

/-- The name under which a map entry stands. -/
def keyText : Json → String
  | .bool b => if b then "true" else "false"
  | .int i => toString i
  | .text t => t.toStringLossy
  | _ => ""

/-- The name under which a field stands. An extension that is not repeated goes by its full name. -/
def memberName (f : Field) : String :=
  match f.extensionName, f.cardinality with
  | none, _ | some _, .repeated => f.name
  | some name, _ => "[" ++ name ++ "]"

/-- The fields' values in order, gathered under their names. -/
def gather (isMap : Field → Bool) : List (Field × Json) → List (String × Json)
  | [] => []
  | (f, v) :: rest =>
    let more := gather isMap rest
    if isMap f then
      let pair := (keyText ((v.get? "key").getD .null), (v.get? "value").getD .null)
      match more with
      | (name, .object members) :: others =>
        if name = f.name then (name, .object (pair :: members)) :: others
        else (f.name, .object [pair]) :: more
      | _ => (f.name, .object [pair]) :: more
    else if f.cardinality = .repeated then
      match more with
      | (name, .array items) :: others =>
        if name = f.name then (name, .array (v :: items)) :: others
        else (f.name, .array [v]) :: more
      | _ => (f.name, .array [v]) :: more
    else (memberName f, v) :: more

/-- The type of a field's messages. -/
def typeOf? (s : Schema) (f : Field) : Option MessageType :=
  match f.kind with
  | .message name | .group name => s.message? name
  | _ => none

/-- Whether a field is a map. -/
def isMap (s : Schema) (f : Field) : Bool :=
  f.cardinality == .repeated && ((typeOf? s f).map (·.isMapEntry)).getD false

mutual
def fieldJson (s : Schema) (f : Field) : Value → Json
  | .message m =>
    match typeOf? s f with
    | some t => .object (gather (isMap s) (fieldsJson s t m))
    | none => .object []
  | leaf => leafJson s f.kind leaf
def fieldsJson (s : Schema) (t : MessageType) : Message → List (Field × Json)
  | .empty => []
  | .entry number value rest =>
    match t.field? number with
    | some f => (f, fieldJson s f value) :: fieldsJson s t rest
    | none => fieldsJson s t rest
end

/-- The members of a message. -/
def toJson (s : Schema) (t : MessageType) (m : Message) : Json :=
  .object (gather (isMap s) (fieldsJson s t m))

/-- The JSON document of a message, in ASCII, with the given indent. -/
def document (s : Schema) (t : MessageType) (indent : Nat) (m : Message) : String :=
  (toJson s t m).render ⟨some indent, true⟩

end Treewire.Message
