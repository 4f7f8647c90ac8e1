import Treewire.Proto.Declaration

/-!
# The grammar of schema files

Statements are read one after another; any violation makes the whole file worthless, so a reader is
a function that may fail, without a report. Keywords are reserved only where a statement may start.
-/

namespace Treewire.Proto

/-- A file in the making. -/
structure Draft where
  tokens : List Token
  edition : Edition
  package : Option (List String)
  imports : List ImportDeclaration
  messages : List MessageDeclaration
  enums : List EnumDeclaration
  services : List ServiceDeclaration
  extensions : List (List String × FieldDeclaration)
  settings : List OptionSetting

abbrev Reader := StateT Draft Option

namespace Reader

def refuse {α : Type} : Reader α := failure

def require (condition : Bool) : Reader Unit := if condition then pure () else refuse

def peek : Reader (Option Token) := return (← get).tokens.head?

def skip : Reader Unit := modify fun s => { s with tokens := s.tokens.tail }

def next : Reader Token := do
  match ← peek with
  | some t =>
    skip
    return t
  | none => refuse

def isAt (t : Token) : Reader Bool := return (← peek) == some t

def atMark (c : Char) : Reader Bool := isAt (.mark c)

def atWord (s : String) : Reader Bool := isAt (.word s)

/-- Takes the token if it comes next. -/
def take? (t : Token) : Reader Bool := do
  if ← isAt t then
    skip
    return true
  else return false

def mark (c : Char) : Reader Unit := do require (← take? (.mark c))

def keyword (s : String) : Reader Unit := do require (← take? (.word s))

def identifier : Reader String := do
  match ← next with
  | .word s => return s
  | _ => refuse

/-- An integer up to a bound. -/
def integer (bound : Nat) : Reader Nat := do
  match ← next with
  | .integer n => if n ≤ bound then return n else refuse
  | _ => refuse

/-- A number of at most 31 bits, or one more below zero. -/
def signedInteger : Reader Int := do
  if ← take? (.mark '-') then return -((← integer (greatestValue + 1) : Nat) : Int)
  else return (← integer greatestValue : Nat)

/-- Strings side by side are one. -/
def moreStrings : Nat → Reader Bytes
  | 0 => return []
  | fuel + 1 => do
    match ← peek with
    | some (.string octets) =>
      skip
      return octets ++ (← moreStrings fuel)
    | _ => return []

def string : Reader Bytes := do
  match ← next with
  | .string octets => return octets ++ (← moreStrings (← get).tokens.length)
  | _ => refuse

/-- One more than what is left; no reading of statements takes more steps. -/
def bound : Reader Nat := return (← get).tokens.length + 1

/-- Names with dots between them. -/
def dottedNames : Nat → Reader (List String)
  | 0 => refuse
  | fuel + 1 => do
    let name ← identifier
    if ← take? (.mark '.') then return name :: (← dottedNames fuel) else return [name]

/-- A type that is declared somewhere. The name of a scalar type is none. -/
def declaredType : Reader String := do
  let leading ← take? (.mark '.')
  let names ← dottedNames (← bound)
  let isBuiltin := !leading && (names.head?.any fun n => n == "group" || (scalarNames.lookup n).isSome)
  require !isBuiltin
  return (if leading then "." else "") ++ ".".intercalate names

def typeName : Reader TypeName := do
  match ← peek with
  | some (.word name) =>
    if name = "group" then
      skip
      return .group
    else match scalarNames.lookup name with
      | some kind =>
        skip
        return .scalar kind
      | none => return .named (← declaredType)
  | _ => return .named (← declaredType)

/-! ## Options -/

/-- The tokens up to the brace that closes an open one. -/
def blockTokens (depth : Nat) : Nat → Reader (List Token)
  | 0 => refuse
  | fuel + 1 => do
    let t ← next
    match t, depth with
    | .mark '\x7d', 0 => return []
    | .mark '\x7d', depth + 1 => return t :: (← blockTokens depth fuel)
    | .mark '\x7b', depth => return t :: (← blockTokens (depth + 1) fuel)
    | _, _ => return t :: (← blockTokens depth fuel)

def optionPart : Reader OptionPart := do
  if ← take? (.mark '(') then
    let leading ← take? (.mark '.')
    let names ← dottedNames (← bound)
    mark ')'
    return ⟨(if leading then "." else "") ++ ".".intercalate names, true⟩
  else return ⟨← identifier, false⟩

def optionParts : Nat → Reader (List OptionPart)
  | 0 => refuse
  | fuel + 1 => do
    let part ← optionPart
    if ← take? (.mark '.') then return part :: (← optionParts fuel) else return [part]

def optionValue : Reader OptionValue := do
  let negative ← take? (.mark '-')
  match ← peek with
  | some (.word s) =>
    skip
    if negative then
      require (s == "inf" || s == "nan")
      return .real
    else return .word s
  | some (.integer n) =>
    skip
    if negative then return if n ≤ 0x8000000000000000 then .negative n else .real
    else return if n < 0x10000000000000000 then .natural n else .real
  | some .real =>
    skip
    return .real
  | some (.string _) =>
    require !negative
    return .string (← string)
  | some (.mark '\x7b') =>
    skip
    return .block (← blockTokens 0 (← bound))
  | _ => refuse

/-- An option with its value, without the keyword in front. -/
def optionSetting : Reader OptionSetting := do
  let parts ← optionParts (← bound)
  mark '='
  return ⟨parts, ← optionValue⟩

/-- An option as a statement. -/
def optionStatement : Reader OptionSetting := do
  keyword "option"
  let setting ← optionSetting
  mark ';'
  return setting

/-- Options up to the closing bracket. -/
def bracketedSettings : Nat → Reader (List OptionSetting)
  | 0 => refuse
  | fuel + 1 => do
    let setting ← optionSetting
    if ← take? (.mark ',') then return setting :: (← bracketedSettings fuel)
    else
      mark ']'
      return [setting]

/-- Options in brackets, if there are any. -/
def settings? : Reader (List OptionSetting) := do
  if ← take? (.mark '[') then bracketedSettings (← bound) else return []

/-! ## Ranges -/

def rangeEnd (greatest : Int) (number : Reader Int) (first : Int) : Reader NumberRange := do
  if ← take? (.word "to") then
    if ← take? (.word "max") then return ⟨first, greatest⟩
    else return ⟨first, ← number⟩
  else return ⟨first, first⟩

/-- Ranges with commas between them. -/
def ranges (greatest : Int) (number : Reader Int) : Nat → Reader (List NumberRange)
  | 0 => refuse
  | fuel + 1 => do
    let range ← rangeEnd greatest number (← number)
    if ← take? (.mark ',') then return range :: (← ranges greatest number fuel)
    else return [range]

def fieldNumber : Reader Int := return (← integer greatestValue : Nat)

/-- Reserved names: strings, or identifiers in the newer editions. -/
def reservedNames (edition : Edition) : Nat → Reader (List String)
  | 0 => refuse
  | fuel + 1 => do
    let name ←
      if edition.hasFeatures then identifier
      else do pure (Utf8.decodeStringLossy (← string))
    if ← take? (.mark ',') then return name :: (← reservedNames edition fuel) else return [name]

inductive Reserved where
  | names (names : List String)
  | ranges (ranges : List NumberRange)

def reserved (greatest : Int) (number : Reader Int) : Reader Reserved := do
  keyword "reserved"
  let edition := (← get).edition
  let reserved ← match ← peek with
    | some (.string _) | some (.word _) => do
      pure (Reserved.names (← reservedNames edition (← bound)))
    | _ => do pure (Reserved.ranges (← ranges greatest number (← bound)))
  mark ';'
  return reserved

/-! ## Enumerations -/

def enumValue : Reader EnumValueDeclaration := do
  let name ← identifier
  mark '='
  let number ← signedInteger
  let settings ← settings?
  mark ';'
  return ⟨name, number, settings⟩

def enumBody (e : EnumDeclaration) : Nat → Reader EnumDeclaration
  | 0 => refuse
  | fuel + 1 => do
    if ← take? (.mark '\x7d') then return e
    else if ← take? (.mark ';') then enumBody e fuel
    else if ← atWord "option" then
      let setting ← optionStatement
      enumBody { e with settings := e.settings ++ [setting] } fuel
    else if ← atWord "reserved" then
      match ← reserved greatestValue signedInteger with
      | .names names => enumBody { e with reservedNames := e.reservedNames ++ names } fuel
      | .ranges ranges => enumBody { e with reservedRanges := e.reservedRanges ++ ranges } fuel
    else
      let value ← enumValue
      enumBody { e with values := e.values ++ [value] } fuel

def enum (scope : List String) : Reader Unit := do
  keyword "enum"
  let name ← identifier
  mark '\x7b'
  let e ← enumBody ⟨scope ++ [name], [], [], [], []⟩ (← bound)
  modify fun s => { s with enums := s.enums ++ [e] }

/-! ## Fields -/

def label? : Reader (Option Label) := do
  let edition := (← get).edition
  match ← peek with
  | some (.word "optional") =>
    require !edition.hasFeatures
    skip
    return some .optional
  | some (.word "required") =>
    require !edition.hasFeatures
    skip
    return some .required
  | some (.word "repeated") =>
    skip
    return some .repeated
  | _ => return none

/-- A default number below zero or above, within the bounds of a type. -/
def defaultInteger (signed : Bool) (greatest : Nat) : Reader DefaultValue := do
  let negative ← take? (.mark '-')
  require (signed || !negative)
  let _ ← integer (if negative then greatest + 1 else greatest)
  return .fitting

def defaultReal : Reader DefaultValue := do
  let _ ← take? (.mark '-')
  match ← next with
  | .real | .integer _ | .word "inf" | .word "nan" => return .fitting
  | _ => refuse

/-- A default value for a field of a type. A declared type may be an enumeration. -/
def defaultValue : TypeName → Reader DefaultValue
  | .scalar .int32 | .scalar .sint32 | .scalar .sfixed32 => defaultInteger true 0x7FFFFFFF
  | .scalar .int64 | .scalar .sint64 | .scalar .sfixed64 => defaultInteger true 0x7FFFFFFFFFFFFFFF
  | .scalar .uint32 | .scalar .fixed32 => defaultInteger false 0xFFFFFFFF
  | .scalar .uint64 | .scalar .fixed64 => defaultInteger false 0xFFFFFFFFFFFFFFFF
  | .scalar .double | .scalar .float => defaultReal
  | .scalar .bool => do
    match ← next with
    | .word "true" | .word "false" => return .fitting
    | _ => refuse
  | .scalar .string | .scalar .looseString | .scalar .bytes => do
    let _ ← string
    return .fitting
  | .group => refuse
  | .named _ => do
    match ← next with
    | .word s => return .word s
    | _ => return .word ""

/-- What stands in brackets after a field's number. -/
structure FieldExtras where
  settings : List OptionSetting
  default : Option DefaultValue
  jsonName : Option Bytes

def fieldExtras (type : TypeName) (extras : FieldExtras) : Nat → Reader FieldExtras
  | 0 => refuse
  | fuel + 1 => do
    let extras ←
      if ← atWord "default" then do
        skip
        mark '='
        require extras.default.isNone
        pure { extras with default := some (← defaultValue type) }
      else if ← atWord "json_name" then do
        skip
        mark '='
        require extras.jsonName.isNone
        pure { extras with jsonName := some (← string) }
      else do pure { extras with settings := extras.settings ++ [← optionSetting] }
    if ← take? (.mark ',') then fieldExtras type extras fuel
    else
      mark ']'
      return extras

def fieldExtras? (type : TypeName) : Reader FieldExtras := do
  if ← take? (.mark '[') then fieldExtras type ⟨[], none, none⟩ (← bound)
  else return ⟨[], none, none⟩

/-- Where a field stands. -/
structure FieldPlace where
  /-- The path of the message around it. -/
  scope : List String
  oneof : Option String
  extendee : Option String

/-- The declaration of a map's entries. -/
def entryDeclaration (scope : List String) (name : String) (key value : TypeName)
    (settings : List OptionSetting) : MessageDeclaration :=
  let part (name : String) (number : Nat) (type : TypeName) : FieldDeclaration :=
    ⟨some .optional, type, name, number, settings, none, none, none, none⟩
  { path := scope ++ [entryName name]
    fields := [part "key" 1 key, part "value" 2 value]
    oneofs := []
    extensionRanges := []
    reservedRanges := []
    reservedNames := []
    settings := []
    rangeSettings := []
    isMapEntry := true }

/-- Only the features of a map concern its entries. -/
def entrySettings (settings : List OptionSetting) : List OptionSetting :=
  settings.filter fun s => s.parts.head?.any fun part => !part.isExtension && part.name == "features"

/-- A map after the keyword. It is neither labelled nor a member of a oneof nor added from
outside. -/
def mapField (place : FieldPlace) (label : Option Label) : Reader FieldDeclaration := do
  require (label.isNone && place.oneof.isNone && place.extendee.isNone)
  mark '<'
  let key ← typeName
  mark ','
  let value ← typeName
  mark '>'
  require (key != .group && value != .group)
  let name ← identifier
  mark '='
  let number ← integer greatestValue
  let extras ← fieldExtras? (.named "")
  mark ';'
  let entry := entryDeclaration place.scope name key value (entrySettings extras.settings)
  modify fun s => { s with messages := s.messages ++ [entry] }
  return ⟨some .repeated, .named (entryName name), name, number, extras.settings, extras.default,
    extras.jsonName, none, none⟩

/-! ## Messages -/

/-- How deep messages may nest. -/
def nestingLimit : Nat := 31

def emptyMessage (path : List String) : MessageDeclaration :=
  ⟨path, [], [], [], [], [], [], [], false⟩

/-- Whether a field needs no label. -/
def labelIsOptional (edition : Edition) (place : FieldPlace) : Bool :=
  edition != .proto2 || place.oneof.isSome

mutual
/-- A field that is no map, from its type on. -/
def plainField (depth : Nat) (place : FieldPlace) (label : Option Label) (type : TypeName) :
    Nat → Reader FieldDeclaration
  | 0 => refuse
  | fuel + 1 => do
    let edition := (← get).edition
    require (label.isSome || labelIsOptional edition place)
    let name ← identifier
    mark '='
    let number ← integer greatestValue
    let extras ← fieldExtras? type
    if type = .group then
      require (edition == .proto2)
      require (name.toList.head?.any fun c => 'A' ≤ c && c ≤ 'Z')
      let m ← messageBody depth (place.scope ++ [name]) fuel
      modify fun s => { s with messages := s.messages ++ [m] }
      return ⟨label, .group, name, number, extras.settings, extras.default, extras.jsonName,
        place.oneof, place.extendee⟩
    else
      mark ';'
      return ⟨label, type, name, number, extras.settings, extras.default, extras.jsonName,
        place.oneof, place.extendee⟩
termination_by structural fuel => fuel
/-- A field after its label. -/
def fieldFrom (depth : Nat) (place : FieldPlace) (label : Option Label) :
    Nat → Reader FieldDeclaration
  | 0 => refuse
  | fuel + 1 => do
    if ← take? (.word "map") then
      if ← atMark '<' then mapField place label
      else plainField depth place label (.named "map") fuel
    else plainField depth place label (← typeName) fuel
termination_by structural fuel => fuel
/-- A field with its label. -/
def field (depth : Nat) (place : FieldPlace) : Nat → Reader FieldDeclaration
  | 0 => refuse
  | fuel + 1 => do fieldFrom depth place (← label?) fuel
termination_by structural fuel => fuel
/-- Members of a oneof up to the closing brace; there is one at least. -/
def oneofBody (depth : Nat) (scope : List String) (oneof : OneofDeclaration) :
    Nat → Reader (OneofDeclaration × List FieldDeclaration)
  | 0 => refuse
  | fuel + 1 => do
    let (oneof, fields) ←
      if ← atWord "option" then do
        let setting ← optionStatement
        pure ({ oneof with settings := oneof.settings ++ [setting] }, [])
      else do
        require !((← atWord "optional") || (← atWord "required") || (← atWord "repeated"))
        let f ← fieldFrom depth ⟨scope, some oneof.name, none⟩ none fuel
        pure (oneof, [f])
    if ← take? (.mark '\x7d') then return (oneof, fields)
    else
      let (oneof, more) ← oneofBody depth scope oneof fuel
      return (oneof, fields ++ more)
termination_by structural fuel => fuel
/-- Fields that are added to a message, up to the closing brace; there is one at least. -/
def extendBody (depth : Nat) (scope : List String) (extendee : String) : Nat → Reader Unit
  | 0 => refuse
  | fuel + 1 => do
    let f ← field depth ⟨scope, none, some extendee⟩ fuel
    modify fun s => { s with extensions := s.extensions ++ [(scope, f)] }
    if ← take? (.mark '\x7d') then return ()
    else extendBody depth scope extendee fuel
termination_by structural fuel => fuel
/-- Statements of a message up to the closing brace. -/
def messageStatements (depth : Nat) (m : MessageDeclaration) : Nat → Reader MessageDeclaration
  | 0 => refuse
  | fuel + 1 => do
    if ← take? (.mark '\x7d') then return m
    else if ← take? (.mark ';') then messageStatements depth m fuel
    else if ← atWord "message" then
      message depth m.path fuel
      messageStatements depth m fuel
    else if ← atWord "enum" then
      enum m.path
      messageStatements depth m fuel
    else if ← take? (.word "extensions") then
      let ranges ← ranges greatestNumber fieldNumber fuel
      let settings ← settings?
      mark ';'
      messageStatements depth { m with
        extensionRanges := m.extensionRanges ++ ranges
        rangeSettings := m.rangeSettings ++ settings } fuel
    else if ← atWord "reserved" then
      match ← reserved greatestNumber fieldNumber with
      | .names names =>
        messageStatements depth { m with reservedNames := m.reservedNames ++ names } fuel
      | .ranges ranges =>
        messageStatements depth { m with reservedRanges := m.reservedRanges ++ ranges } fuel
    else if ← take? (.word "extend") then
      let extendee ← declaredType
      mark '\x7b'
      extendBody depth m.path extendee fuel
      messageStatements depth m fuel
    else if ← atWord "option" then
      let setting ← optionStatement
      messageStatements depth { m with settings := m.settings ++ [setting] } fuel
    else if ← take? (.word "oneof") then
      let name ← identifier
      mark '\x7b'
      let (oneof, fields) ← oneofBody depth m.path ⟨name, []⟩ fuel
      messageStatements depth { m with
        oneofs := m.oneofs ++ [oneof]
        fields := m.fields ++ fields } fuel
    else
      let f ← field depth ⟨m.path, none, none⟩ fuel
      messageStatements depth { m with fields := m.fields ++ [f] } fuel
termination_by structural fuel => fuel
/-- The body of a message or group. -/
def messageBody (depth : Nat) (path : List String) : Nat → Reader MessageDeclaration
  | 0 => refuse
  | fuel + 1 => do
    mark '\x7b'
    messageStatements depth (emptyMessage path) fuel
termination_by structural fuel => fuel
/-- A message inside a scope. -/
def message (depth : Nat) (scope : List String) : Nat → Reader Unit
  | 0 => refuse
  | fuel + 1 => do
    keyword "message"
    match depth with
    | 0 => refuse
    | depth + 1 =>
      let name ← identifier
      let m ← messageBody depth (scope ++ [name]) fuel
      modify fun s => { s with messages := s.messages ++ [m] }
termination_by structural fuel => fuel
end

/-! ## Services -/

def methodType : Reader String := do
  mark '('
  let _ ← take? (.word "stream")
  let type ← declaredType
  mark ')'
  return type

/-- Options of a method up to the closing brace. -/
def methodSettings : Nat → Reader (List OptionSetting)
  | 0 => refuse
  | fuel + 1 => do
    if ← take? (.mark '\x7d') then return []
    else if ← take? (.mark ';') then methodSettings fuel
    else return (← optionStatement) :: (← methodSettings fuel)

def method : Reader MethodDeclaration := do
  keyword "rpc"
  let name ← identifier
  let input ← methodType
  keyword "returns"
  let output ← methodType
  if ← take? (.mark '\x7b') then
    return ⟨name, input, output, ← methodSettings (← bound)⟩
  else
    mark ';'
    return ⟨name, input, output, []⟩

def serviceBody (service : ServiceDeclaration) : Nat → Reader ServiceDeclaration
  | 0 => refuse
  | fuel + 1 => do
    if ← take? (.mark '\x7d') then return service
    else if ← take? (.mark ';') then serviceBody service fuel
    else if ← atWord "option" then
      let setting ← optionStatement
      serviceBody { service with settings := service.settings ++ [setting] } fuel
    else
      let m ← method
      serviceBody { service with methods := service.methods ++ [m] } fuel

/-! ## Files -/

def importStatement : Reader ImportDeclaration := do
  let isPublic ← take? (.word "public")
  if !isPublic then
    let _ ← take? (.word "weak")
  let path ← string
  mark ';'
  return ⟨isPublic, path⟩

def statement : Reader Unit := do
  if ← take? (.mark ';') then return ()
  else if ← atWord "message" then message nestingLimit [] (← bound)
  else if ← atWord "enum" then enum []
  else if ← take? (.word "service") then
    let name ← identifier
    mark '\x7b'
    let service ← serviceBody ⟨name, [], []⟩ (← bound)
    modify fun s => { s with services := s.services ++ [service] }
  else if ← take? (.word "extend") then
    let extendee ← declaredType
    mark '\x7b'
    extendBody nestingLimit [] extendee (← bound)
  else if ← take? (.word "import") then
    let i ← importStatement
    modify fun s => { s with imports := s.imports ++ [i] }
  else if ← take? (.word "package") then
    require (← get).package.isNone
    let names ← dottedNames (← bound)
    mark ';'
    modify fun s => { s with package := some names }
  else if ← atWord "option" then
    let setting ← optionStatement
    modify fun s => { s with settings := s.settings ++ [setting] }
  else refuse

def statements : Nat → Reader Unit
  | 0 => refuse
  | fuel + 1 => do
    if (← peek).isSome then
      statement
      statements fuel

def editionOf? (keyword : String) (name : Bytes) : Option Edition :=
  match keyword, Utf8.decodeString? name with
  | "syntax", some "proto2" => some .proto2
  | "syntax", some "proto3" => some .proto3
  | "edition", some "2023" => some .edition2023
  | "edition", some "2024" => some .edition2024
  | _, _ => none

/-- The edition that a file names in its first statement; the oldest if it names none. -/
def edition : Reader Edition := do
  match ← peek with
  | some (.word keyword) =>
    if keyword = "syntax" ∨ keyword = "edition" then
      skip
      mark '='
      let name ← string
      mark ';'
      match editionOf? keyword name with
      | some edition => return edition
      | none => refuse
    else return .proto2
  | _ => return .proto2

def file : Reader Unit := do
  let edition ← edition
  modify fun s => { s with edition := edition }
  statements (← bound)

end Reader

/-- The declarations of a file, if it follows the grammar. A step of reading takes a token or leads
to one that does, so the bound on the steps is never reached. -/
def declarations? (octets : Bytes) : Option FileDeclaration := do
  let tokens ← tokens? octets
  let (_, s) ← Reader.file.run ⟨tokens, .proto2, none, [], [], [], [], [], []⟩
  return ⟨s.edition, s.package.getD [], s.imports, s.messages, s.enums, s.services, s.extensions,
    s.settings⟩

end Treewire.Proto
