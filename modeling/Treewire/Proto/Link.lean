import Treewire.Proto.Rule

/-!
# Linking

The names in a file's declarations are resolved among what the file sees: its own definitions, those
of its imports, and those that an import passes on. With the types known, the remaining rules can
be told, and the declarations become types of a schema.
-/

namespace Treewire.Proto

/-! ## Visible files -/

def file? (files : List SourceFile) (name : Bytes) : Option SourceFile :=
  files.find? (·.name == name)

/-- Names of the files that a file passes on to those that import it, itself first. -/
def passedOn (files : List SourceFile) : Nat → Bytes → List Bytes
  | 0, name => [name]
  | fuel + 1, name =>
    match file? files name with
    | none => []
    | some f =>
      name :: (f.declaration.imports.filter (·.isPublic)).flatMap fun i =>
        passedOn files fuel i.path

def visibleFiles (files : List SourceFile) (file : SourceFile) : List Bytes :=
  file.name :: file.declaration.imports.flatMap fun i => passedOn files files.length i.path

/-- A file, what it sees, and the files that this is defined in. -/
structure View where
  files : List SourceFile
  file : SourceFile
  definitions : List Definition

def viewOf (files : List SourceFile) (file : SourceFile) : View :=
  let visible := visibleFiles files file
  ⟨files, file, (files.filter fun f => visible.contains f.name).flatMap (·.definitions)⟩

/-! ## Features -/

namespace SourceFile

def features (file : SourceFile) : Features :=
  file.declaration.edition.features.within file.declaration.settings

def messageAt? (file : SourceFile) (path : List String) : Option MessageDeclaration :=
  file.declaration.messages.find? (·.path == path)

/-- The features of a message, or of what stands directly in it. -/
def featuresAt (file : SourceFile) (path : List String) : Features :=
  (List.range path.length).foldl (fun features n =>
    match file.messageAt? (path.take (n + 1)) with
    | some m => features.within m.settings
    | none => features) file.features

def enumFeatures (file : SourceFile) (e : EnumDeclaration) : Features :=
  (file.featuresAt e.path.dropLast).within e.settings

end SourceFile

/-- The features that a field's label and options set in the older editions. -/
def labelFeatures (edition : Edition) (f : FieldDeclaration) (features : Features) : Features :=
  match edition with
  | .proto2 | .proto3 =>
    let features := match f.label with
      | some .required => { features with presence := .required }
      | some .optional =>
        if hasOwnOneof edition f then { features with presence := .explicit } else features
      | _ => features
    match wordOf? "packed" f.settings with
    | some word => { features with packed := word == "true" }
    | none => features
  | .edition2023 | .edition2024 => features

/-! ## Types -/

/-- What a field can be of. -/
inductive TypeTarget where
  | scalar (kind : ScalarKind)
  | message (name : FullName) (m : MessageDeclaration)
  | group (name : FullName)
  | enum (name : FullName) (e : EnumDeclaration) (features : Features)

namespace View

/-- The full name of a path in the file. -/
def fullName (v : View) (path : List String) : FullName := v.file.declaration.package ++ path

def typeTarget? (v : View) (scope : List String) (type : TypeName) : Option TypeTarget :=
  match type with
  | .scalar kind => some (.scalar kind)
  | .group => none
  | .named name => do
    let d ← resolve? v.definitions true (v.fullName scope) name
    let file ← file? v.files d.file
    let path := d.name.drop file.declaration.package.length
    match d.meaning with
    | .message => return .message d.name (← file.messageAt? path)
    | .enum =>
      let e ← file.declaration.enums.find? (·.path == path)
      return .enum d.name e (file.enumFeatures e)
    | _ => none

/-- The type of a field declared in a scope. -/
def targetOf? (v : View) (scope : List String) (f : FieldDeclaration) : Option TypeTarget :=
  match f.type with
  | .group => some (.group (v.fullName (scope ++ [f.name])))
  | type => v.typeTarget? scope type

end View

/-- A field with all that its names refer to. -/
structure LinkedField where
  declaration : FieldDeclaration
  /-- The path of the message it is declared in. -/
  scope : List String
  features : Features
  target : TypeTarget
  /-- Whether it stands in the entries of a map. -/
  inEntry : Bool

namespace LinkedField

def isRepeated (f : LinkedField) : Bool := f.declaration.label == some .repeated

/-- Whether the values of the field can be packed. -/
def isPackable (f : LinkedField) : Bool :=
  f.isRepeated && match f.target with
  | .scalar .string | .scalar .looseString | .scalar .bytes => false
  | .scalar _ | .enum .. => true
  | .message .. | .group _ => false

def isMessage (f : LinkedField) : Bool :=
  match f.target with
  | .message .. | .group _ => true
  | .scalar _ | .enum .. => false

def isMap (f : LinkedField) : Bool :=
  match f.target with
  | .message _ m => m.isMapEntry
  | _ => false

def isExtension (f : LinkedField) : Bool := f.declaration.extendee.isSome

/-- Whether the field counts as set only when it was set. -/
def tracksPresence (f : LinkedField) : Bool :=
  f.isMessage || f.isExtension || f.declaration.oneof.isSome || f.features.presence != .implicit

def cardinality (f : LinkedField) : Cardinality :=
  if f.isRepeated then .repeated else if f.tracksPresence then .explicit else .implicit

def kind (f : LinkedField) : FieldKind :=
  match f.target with
  | .scalar .string => .scalar (if f.features.checksStrings then .string else .looseString)
  | .scalar kind => .scalar kind
  | .group name => .group name.toString
  | .enum name _ _ => .enum name.toString
  | .message name m =>
    if f.features.delimited && !m.isMapEntry && !f.inEntry then .group name.toString
    else .message name.toString

end LinkedField

/-! ## Rules for fields -/

namespace LinkedField

/-- Integers of 64 bits, which scripts may want as texts. -/
def isWide (f : LinkedField) : Bool :=
  match f.target with
  | .scalar .int64 | .scalar .uint64 | .scalar .sint64 | .scalar .fixed64 | .scalar .sfixed64 =>
    true
  | _ => false

def hasProperDefault (f : LinkedField) : Bool :=
  match f.declaration.default with
  | none => true
  | some d =>
    !f.isRepeated && match f.target, d with
    | .scalar _, _ => true
    | .enum _ e _, .word w => e.values.any (·.name == w)
    | _, _ => false

def hasProperOptions (edition : Edition) (f : LinkedField) : Bool :=
  let settings := f.declaration.settings
  (f.inEntry || areProperSettings edition .field settings) &&
  (!isSet "packed" settings || f.isPackable) &&
  (!edition.hasFeatures || (wordOf? "packed" settings).isNone) &&
  (edition != .edition2024 || (wordOf? "ctype" settings).isNone) &&
  (!(isSet "lazy" settings || isSet "unverified_lazy" settings) || f.isMessage) &&
  ((wordOf? "jstype" settings).all (· == "JS_NORMAL") || f.isWide)

/-- Whether a feature may be set on the field itself. -/
def allows (f : LinkedField) : Change → Bool
  | .presence p =>
    f.declaration.oneof.isNone && !f.isRepeated && !(f.isExtension && p != .required) &&
      !(f.isMessage && p == .implicit)
  | .packed on => f.isRepeated && (!on || f.isPackable)
  | .checksStrings _ =>
    match f.target with
    | .scalar .string => true
    | .message _ m => m.isMapEntry && m.fields.any (·.type == .scalar .string)
    | _ => false
  | .delimited _ => f.isMessage && !f.isMap
  | _ => true

def hasClosedEnum (f : LinkedField) : Bool :=
  match f.target with
  | .enum _ _ features => features.closedEnums
  | _ => false

def hasProperFeatures (edition : Edition) (f : LinkedField) : Bool :=
  match edition with
  | .proto2 => true
  | .proto3 =>
    f.declaration.label != some .required && f.declaration.default.isNone && !f.isExtension &&
      !f.hasClosedEnum
  | .edition2023 | .edition2024 =>
    (f.inEntry || (changes f.declaration.settings).all f.allows) &&
    !(f.features.presence == .implicit && f.declaration.default.isSome) &&
    !(f.features.presence == .implicit && f.hasClosedEnum && !f.isRepeated &&
      f.declaration.oneof.isNone && !f.isExtension) &&
    !(f.isExtension && f.features.presence == .required)

/-- Whether types of map entries are used by the maps alone. -/
def hasProperTarget (v : View) (f : LinkedField) : Bool :=
  match f.target with
  | .message name m =>
    !m.isMapEntry ||
      (f.isRepeated && name == v.fullName (f.scope ++ [entryName f.declaration.name]))
  | _ => true

def isProper (v : View) (f : LinkedField) : Bool :=
  let edition := v.file.declaration.edition
  f.hasProperDefault && f.hasProperOptions edition && f.hasProperFeatures edition &&
    f.hasProperTarget v

/-- Whether a field can be the key of a map. -/
def isProperKey (f : LinkedField) : Bool :=
  match f.target with
  | .scalar .double | .scalar .float | .scalar .bytes => false
  | .scalar _ => true
  | _ => false

/-- Whether a field can be the value of a map: an enumeration has to start at zero. -/
def isProperMapValue (f : LinkedField) : Bool :=
  match f.target with
  | .enum _ e _ => (e.values.head?.map (·.number)) == some 0
  | _ => true

end LinkedField

/-! ## Linking -/

/-- The features of a message's fields are its own, and for map entries those of the map too. -/
def linkField? (v : View) (scope : List String) (features : Features) (inEntry : Bool)
    (f : FieldDeclaration) : Option LinkedField := do
  let edition := v.file.declaration.edition
  let features := (if inEntry then features else labelFeatures edition f features).within f.settings
  let linked : LinkedField := ⟨f, scope, features, ← v.targetOf? scope f, inEntry⟩
  if linked.isProper v then some linked else none

/-- The schema's field. -/
def LinkedField.toField (own : List (String × String)) (extensionName : Option String)
    (f : LinkedField) : Field :=
  { number := f.declaration.number
    name := f.declaration.fieldName
    kind := f.kind
    cardinality := f.cardinality
    oneof := f.declaration.oneof.or (own.lookup f.declaration.name)
    extensionName := extensionName }

def sortedFields (fields : List Field) : List Field :=
  fields.mergeSort fun f g => f.number ≤ g.number

/-- The fields of a message, if it keeps all rules. -/
def linkFields? (v : View) (m : MessageDeclaration) : Option (List LinkedField) := do
  let features := v.file.featuresAt m.path
  let fields ← m.fields.mapM (linkField? v m.path features m.isMapEntry)
  let isProper := isProperMessage v.file.declaration.edition features m &&
    (!m.isMapEntry || ((fields.take 1).all (·.isProperKey) &&
      (fields.drop 1).all (·.isProperMapValue)))
  if isProper then some fields else none

/-- An extension with the full name of the message it extends. -/
def linkExtension? (v : View) (scope : List String) (f : FieldDeclaration) :
    Option (FullName × NumberRange × Field) := do
  let extendee ← v.typeTarget? scope (.named (← f.extendee))
  match extendee with
  | .message name m =>
    let linked ← linkField? v scope (v.file.featuresAt scope) false f
    let range ← m.extensionRanges.find? (·.contains f.number)
    let isProper := f.label != some .required && f.jsonName.isNone && isFieldNumber f.number
    if isProper then
      let fullName := v.fullName (scope ++ [f.fieldName])
      some (name, range, linked.toField [] (some fullName.toString))
    else none
  | _ => none

def isMessageName (v : View) (scope : FullName) (name : String) : Bool :=
  (resolve? v.definitions true scope name).any (·.meaning == .message)

def isProperService (v : View) (s : ServiceDeclaration) : Bool :=
  let edition := v.file.declaration.edition
  let scope := v.fullName [s.name]
  areProperSettings edition .service s.settings &&
  s.methods.all (fun m => areProperSettings edition .method m.settings &&
    isMessageName v scope m.input && isMessageName v scope m.output) &&
  (!v.file.features.styledNames ||
    (isTitleCase s.name && s.methods.all fun m => isTitleCase m.name))

/-- Whether a file is made for small runtimes. -/
def isLite (f : FileDeclaration) : Bool := wordOf? "optimize_for" f.settings == some "LITE_RUNTIME"

/-- Whether the settings and imports of a file keep the rules. -/
def isProperFile (v : View) : Bool :=
  let d := v.file.declaration
  areProperSettings d.edition .file d.settings &&
  isDistinct (d.imports.map (·.path)) &&
  (isLite d || d.imports.all fun i => !((file? v.files i.path).any fun f => isLite f.declaration)) &&
  (!d.edition.hasFeatures || !d.settings.any fun s => s.parts == [⟨"java_string_check_utf8", false⟩]) &&
  !(d.edition.hasFeatures && v.file.features.presence == .required) &&
  d.enums.all (fun e => isProperEnum d.edition (v.file.enumFeatures e) e) &&
  d.services.all (isProperService v) &&
  (!v.file.features.styledNames || d.package.all isLowerSnakeCase)

/-- What a file contributes to a schema. -/
structure Linked where
  messages : List MessageType
  enums : List EnumType
  /-- Extensions with the full names of the messages they extend. -/
  extensions : List (FullName × Field)

def linkMessage? (v : View) (m : MessageDeclaration) : Option MessageType := do
  let fields ← linkFields? v m
  let own := m.ownOneofs v.file.declaration.edition
  return {
    name := (v.fullName m.path).toString
    fields := sortedFields (fields.map (·.toField own none))
    isMapEntry := m.isMapEntry }

def linkEnum (v : View) (e : EnumDeclaration) : EnumType :=
  { name := (v.fullName e.path).toString
    values := e.values.map fun value => (value.name, value.number)
    closed := (v.file.enumFeatures e).closedEnums }

def linkFile? (v : View) : Option Linked := do
  let d := v.file.declaration
  let messages ← d.messages.mapM (linkMessage? v)
  let extensions ← d.extensions.mapM fun (scope, f) => linkExtension? v scope f
  if isProperFile v then
    some ⟨messages, d.enums.map (linkEnum v), extensions.map fun e => (e.1, e.2.2)⟩
  else none

/-- The schema that files make up together, if all of them keep the rules. -/
def link? (files : List SourceFile) : Option Schema := do
  let linked ← files.mapM fun f => linkFile? (viewOf files f)
  let extensions := linked.flatMap (·.extensions)
  if areDistinct (files.flatMap (·.definitions)) &&
      isDistinct (extensions.map fun e => (e.1, e.2.number)) then
    some {
      messages := (linked.flatMap (·.messages)).map fun m =>
        let own := extensions.filter fun e => e.1.toString == m.name
        { m with extensions := own.map (·.2) }
      enums := linked.flatMap (·.enums) }
  else none

end Treewire.Proto
