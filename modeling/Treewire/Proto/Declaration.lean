import Treewire.Proto.Token
import Treewire.Schema

/-!
# Declarations of schema files

What a schema file declares, before any name is resolved. Types that are declared inside others are
listed beside them under their path, so nothing nests.
-/

namespace Treewire.Proto

/-- The edition of the language that a file is written in. -/
inductive Edition where
  | proto2 | proto3 | edition2023 | edition2024
  deriving DecidableEq, Inhabited

/-- Whether features can be set. -/
def Edition.hasFeatures : Edition → Bool
  | .proto2 | .proto3 => false
  | .edition2023 | .edition2024 => true

inductive OptionValue where
  | word (s : String)
  | natural (n : Nat)
  | negative (n : Nat)
  | real
  | string (octets : Bytes)
  | block (tokens : List Token)
  deriving DecidableEq, Inhabited

/-- A part of an option's name; parts in parentheses name extensions. -/
structure OptionPart where
  name : String
  isExtension : Bool
  deriving DecidableEq, Inhabited

structure OptionSetting where
  parts : List OptionPart
  value : OptionValue
  deriving DecidableEq, Inhabited

/-- The first and the last number of a range. -/
structure NumberRange where
  first : Int
  last : Int
  deriving DecidableEq, Inhabited

inductive Label where
  | optional | required | repeated
  deriving DecidableEq, Inhabited

inductive TypeName where
  | scalar (kind : ScalarKind)
  | group
  /-- A name to be resolved; a dot in front makes it a full name. -/
  | named (name : String)
  deriving DecidableEq, Inhabited

/-- A default value, as far as the field's type can be told before names are resolved. -/
inductive DefaultValue where
  | fitting
  | word (s : String)
  deriving DecidableEq, Inhabited

structure FieldDeclaration where
  label : Option Label
  type : TypeName
  name : String
  number : Nat
  settings : List OptionSetting
  default : Option DefaultValue
  jsonName : Option Bytes
  /-- The oneof that the field is a member of. -/
  oneof : Option String
  /-- The message that the field is added to from outside. -/
  extendee : Option String
  deriving DecidableEq, Inhabited

structure OneofDeclaration where
  name : String
  settings : List OptionSetting
  deriving DecidableEq, Inhabited

structure MessageDeclaration where
  /-- The names of the messages around it and its own. -/
  path : List String
  fields : List FieldDeclaration
  oneofs : List OneofDeclaration
  extensionRanges : List NumberRange
  reservedRanges : List NumberRange
  reservedNames : List String
  settings : List OptionSetting
  rangeSettings : List OptionSetting
  isMapEntry : Bool
  deriving DecidableEq, Inhabited

structure EnumValueDeclaration where
  name : String
  number : Int
  settings : List OptionSetting
  deriving DecidableEq, Inhabited

structure EnumDeclaration where
  path : List String
  values : List EnumValueDeclaration
  reservedRanges : List NumberRange
  reservedNames : List String
  settings : List OptionSetting
  deriving DecidableEq, Inhabited

structure MethodDeclaration where
  name : String
  input : String
  output : String
  settings : List OptionSetting
  deriving DecidableEq, Inhabited

structure ServiceDeclaration where
  name : String
  methods : List MethodDeclaration
  settings : List OptionSetting
  deriving DecidableEq, Inhabited

structure ImportDeclaration where
  isPublic : Bool
  path : Bytes
  deriving DecidableEq, Inhabited

structure FileDeclaration where
  edition : Edition
  package : List String
  imports : List ImportDeclaration
  messages : List MessageDeclaration
  enums : List EnumDeclaration
  services : List ServiceDeclaration
  /-- Fields added to messages from outside, each with the path of the message it is declared in. -/
  extensions : List (List String × FieldDeclaration)
  settings : List OptionSetting
  deriving DecidableEq, Inhabited

/-- The greatest number of a field. -/
def greatestNumber : Nat := 536870911

/-- The greatest number of an enumeration value. -/
def greatestValue : Nat := 2147483647

/-- Names of scalar types. -/
def scalarNames : List (String × ScalarKind) :=
  [("double", .double), ("float", .float), ("int64", .int64), ("uint64", .uint64),
    ("int32", .int32), ("uint32", .uint32), ("sint32", .sint32), ("sint64", .sint64),
    ("fixed64", .fixed64), ("fixed32", .fixed32), ("sfixed32", .sfixed32),
    ("sfixed64", .sfixed64), ("bool", .bool), ("string", .string), ("bytes", .bytes)]

/-- The name of the type of a map's entries: the field's name in camel case with a capital, and
`Entry`. -/
def entryName (field : String) : String :=
  String.ofList (go true field.toList) ++ "Entry"
where
  go (capital : Bool) : List Char → List Char
    | [] => []
    | '_' :: rest => go true rest
    | c :: rest => (if capital then c.toUpper else c) :: go false rest

end Treewire.Proto
