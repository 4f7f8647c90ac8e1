import Treewire.Text

/-!
# Message schemas

A schema lists message and enumeration types by full name. Types refer to each other by name, so
recursive messages need no recursive data.
-/

namespace Treewire

/-- Scalar field types. -/
inductive ScalarKind where
  | double | float
  | int64 | uint64 | int32 | uint32 | sint32 | sint64
  | fixed64 | fixed32 | sfixed32 | sfixed64
  | bool | string | bytes
  /-- A string whose octets need not be UTF-8. -/
  | looseString
  deriving DecidableEq, Inhabited

/-- The type's name in schema files. -/
def ScalarKind.name : ScalarKind → String
  | .double => "double"
  | .float => "float"
  | .int64 => "int64"
  | .uint64 => "uint64"
  | .int32 => "int32"
  | .uint32 => "uint32"
  | .sint32 => "sint32"
  | .sint64 => "sint64"
  | .fixed64 => "fixed64"
  | .fixed32 => "fixed32"
  | .sfixed32 => "sfixed32"
  | .sfixed64 => "sfixed64"
  | .bool => "bool"
  | .string | .looseString => "string"
  | .bytes => "bytes"

/-- What a field holds; messages, groups and enumerations are given by full name. -/
inductive FieldKind where
  | scalar (kind : ScalarKind)
  | message (name : String)
  | group (name : String)
  | enum (name : String)
  deriving DecidableEq, Inhabited

/-- The kind of type, scalar types by name. -/
def FieldKind.typeName : FieldKind → String
  | .scalar kind => kind.name
  | .message _ => "message"
  | .group _ => "group"
  | .enum _ => "enum"

/-- The full name of the type that a field refers to. -/
def FieldKind.target? : FieldKind → Option String
  | .scalar _ => none
  | .message name | .group name | .enum name => some name

/-- How often a field may be set. An implicit field counts as set when it is not the default. -/
inductive Cardinality where
  | implicit
  | explicit
  | repeated
  deriving DecidableEq, Inhabited

structure Field where
  number : Nat
  name : String
  kind : FieldKind
  cardinality : Cardinality
  oneof : Option String
  /-- The full name, for a field that was added from outside the message. -/
  extensionName : Option String := none
  deriving DecidableEq, Inhabited

structure MessageType where
  name : String
  /-- In number order. -/
  fields : List Field
  /-- Fields that were added from outside. -/
  extensions : List Field := []
  /-- Entries of a map, with the key in field 1 and the value in field 2. -/
  isMapEntry : Bool := false
  deriving DecidableEq, Inhabited

structure EnumType where
  name : String
  values : List (String × Int)
  /-- Whether only the listed numbers are values. -/
  closed : Bool
  deriving DecidableEq, Inhabited

structure Schema where
  messages : List MessageType
  enums : List EnumType
  deriving DecidableEq, Inhabited

namespace Schema

def message? (s : Schema) (name : String) : Option MessageType :=
  s.messages.find? (·.name == name)

def enum? (s : Schema) (name : String) : Option EnumType :=
  s.enums.find? (·.name == name)

end Schema

namespace MessageType

def field? (t : MessageType) (number : Nat) : Option Field :=
  (t.fields.find? (·.number == number)).or (t.extensions.find? (·.number == number))

/-- Whether two fields are members of one oneof, and thus exclude each other. -/
def excludes (f g : Field) : Bool :=
  f.oneof.isSome && f.oneof == g.oneof && f.number != g.number

end MessageType

namespace EnumType

/-- The first name of a number. -/
def nameOf? (t : EnumType) (number : Int) : Option String :=
  (t.values.find? (·.2 == number)).map (·.1)

end EnumType

/-- The part of a full name after its last dot. -/
def lastComponent (name : String) : String :=
  String.ofList (name.toList.reverse.takeWhile (· != '.')).reverse

end Treewire
