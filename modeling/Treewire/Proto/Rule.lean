import Treewire.Proto.Name

/-!
# Rules for declarations

Rules that a declaration keeps or breaks by itself, whatever the names in it mean: numbers and their
ranges, reserved names, names in JSON, the style of names.
-/

namespace Treewire.Proto

/-! ## Numbers -/

/-- Whether a number can be a field's. Some are kept back. -/
def isFieldNumber (n : Nat) : Bool :=
  1 ≤ n && n ≤ greatestNumber && !(19000 ≤ n && n ≤ 19999)

namespace NumberRange

def contains (r : NumberRange) (n : Int) : Bool := r.first ≤ n && n ≤ r.last

def meets (r q : NumberRange) : Bool := r.first ≤ q.last && q.first ≤ r.last

theorem meets_of_contains {r q : NumberRange} {n : Int} (hr : r.contains n = true)
    (hq : q.contains n = true) : r.meets q = true := by
  simp only [contains, meets, Bool.and_eq_true, decide_eq_true_eq] at *
  omega

end NumberRange

def areDisjoint : List NumberRange → Bool
  | [] => true
  | r :: rest => rest.all (fun q => !r.meets q) && areDisjoint rest

/-- Whether ranges are in order and above zero, up to a bound. -/
def arePositiveRanges (greatest : Int) (ranges : List NumberRange) : Bool :=
  ranges.all fun r => 1 ≤ r.first && r.first ≤ r.last && r.last ≤ greatest

/-! ## Names in JSON -/

/-- A name in camel case: the letter after an underscore is a capital. -/
def camelCase (name : String) : List Char := go false name.toList
where
  go (capital : Bool) : List Char → List Char
    | [] => []
    | '_' :: rest => go true rest
    | c :: rest => (if capital then c.toUpper else c) :: go false rest

/-- A field's name in JSON, and whether the field sets a name of its own. -/
def jsonName (custom : Bool) (f : FieldDeclaration) : Bytes × Bool :=
  let usual := Utf8.encodeString (String.ofList (camelCase f.fieldName))
  match f.jsonName with
  | some own => if custom ∧ own ≠ usual then (own, true) else (usual, false)
  | none => (usual, false)

/-- Whether two fields may not have these names together. Without strict names, only two names that
were both set are in conflict. -/
def namesConflict (strict custom : Bool) (a b : Bytes × Bool) : Bool :=
  a.1 == b.1 && !(custom && !a.2 && !b.2) && (strict || (a.2 && b.2))

/-- Whether names are without conflict, each with the first that is like it. -/
def areFreeOfConflict (strict custom : Bool) (seen : List (Bytes × Bool)) :
    List (Bytes × Bool) → Bool
  | [] => true
  | a :: rest =>
    match seen.find? (·.1 == a.1) with
    | some b => !namesConflict strict custom b a && areFreeOfConflict strict custom seen rest
    | none => areFreeOfConflict strict custom (a :: seen) rest

/-- Whether a name in JSON could be taken for that of an extension. -/
def looksLikeExtension (name : Bytes) : Bool :=
  name.head? == some (UInt8.ofNat '['.toNat) && name.getLast? == some (UInt8.ofNat ']'.toNat)

def legacyConflictsOption : String := "deprecated_legacy_json_field_conflicts"

/-- Whether the fields of a message have distinct names in JSON, whether or not fields may set
names of their own. -/
def haveDistinctJsonNames (features : Features) (m : MessageDeclaration) : Bool :=
  isSet legacyConflictsOption m.settings ||
    [false, true].all fun custom =>
      let names := m.fields.map (jsonName custom)
      names.all (fun n => !(n.2 && looksLikeExtension n.1)) &&
        areFreeOfConflict features.strictJson custom [] names

/-! ## The style of names -/

def hasLooseUnderscores : List Char → Bool
  | [] => false
  | ['_'] => true
  | '_' :: c :: rest => !c.isAlpha || hasLooseUnderscores (c :: rest)
  | _ :: rest => hasLooseUnderscores rest

def isTitleCase (name : String) : Bool :=
  name.toList.head?.any Char.isUpper && name.toList.all Char.isAlphanum

def isSnakeCase (isLetter : Char → Bool) (name : String) : Bool :=
  name.toList.head?.any isLetter && !hasLooseUnderscores name.toList &&
    name.toList.all fun c => isLetter c || c.isDigit || c = '_'

def isLowerSnakeCase : String → Bool := isSnakeCase Char.isLower

def isUpperSnakeCase : String → Bool := isSnakeCase Char.isUpper

/-! ## Messages -/

/-- Whether the numbers and names of a message are in order. -/
def isProperMessage (edition : Edition) (features : Features) (m : MessageDeclaration) : Bool :=
  let numbers := m.fields.map (·.number)
  let names := m.fields.map (·.fieldName)
  let ranges := m.reservedRanges ++ m.extensionRanges
  numbers.all isFieldNumber && isDistinct numbers &&
  numbers.all (fun n => !ranges.any (·.contains n)) &&
  arePositiveRanges 0x80000000 m.reservedRanges &&
  arePositiveRanges greatestNumber m.extensionRanges &&
  areDisjoint ranges &&
  isDistinct m.reservedNames && names.all (!m.reservedNames.contains ·) &&
  haveDistinctJsonNames features m &&
  (m.isMapEntry || areProperSettings edition .message m.settings) &&
  areProperSettings edition .range m.rangeSettings &&
  m.oneofs.all (fun o => areProperSettings edition .oneof o.settings) &&
  (edition != .proto3 || (m.extensionRanges.isEmpty && !isSet "message_set_wire_format" m.settings)) &&
  !(isSet "message_set_wire_format" m.settings && !m.fields.isEmpty) &&
  (!features.styledNames || m.isMapEntry ||
    (m.path.getLast?.any isTitleCase && m.fields.all (fun f => isLowerSnakeCase f.fieldName) &&
      m.oneofs.all (fun o => isLowerSnakeCase o.name)))

/-! ## Enumerations -/

/-- What is left of a name when another is taken from its front, whatever the underscores and the
case of letters; the name itself if nothing would be left. -/
def withoutFront (front name : List Char) : List Char :=
  match go (front.filter (· != '_')) name with
  | some rest => if rest = [] then name else rest
  | none => name
where
  go : List Char → List Char → Option (List Char)
    | [], rest => some (rest.dropWhile (· == '_'))
    | _ :: _, [] => none
    | p :: front, c :: rest =>
      if c = '_' then go (p :: front) rest
      else if c.toLower = p.toLower then go front rest
      else none

/-- A name in camel case with a capital in front and small letters inside. -/
def pascalCase (name : List Char) : List Char := go true name
where
  go (capital : Bool) : List Char → List Char
    | [] => []
    | '_' :: rest => go true rest
    | c :: rest => (if capital then c.toUpper else c.toLower) :: go false rest

/-- Whether values stay distinct without the enumeration's name in front. Values of one number need
not. -/
def areDistinctWithout (front : String) (seen : List (List Char × EnumValueDeclaration)) :
    List EnumValueDeclaration → Bool
  | [] => true
  | v :: rest =>
    let short := pascalCase (withoutFront front.toList v.name.toList)
    match seen.lookup short with
    | some u => (u.name == v.name || u.number == v.number) && areDistinctWithout front seen rest
    | none => areDistinctWithout front ((short, v) :: seen) rest

/-- Whether some values share a number exactly when the enumeration says so. -/
def haveDeclaredAliases (e : EnumDeclaration) : Bool :=
  let numbers := e.values.map (·.number)
  match wordOf? "allow_alias" e.settings with
  | none => isDistinct numbers
  | some word => word == "true" && !isDistinct numbers

def isProperEnum (edition : Edition) (features : Features) (e : EnumDeclaration) : Bool :=
  let numbers := e.values.map (·.number)
  let names := e.values.map (·.name)
  let name := e.path.getLast?.getD ""
  !e.values.isEmpty &&
  (features.closedEnums || numbers.head? == some 0) &&
  haveDeclaredAliases e &&
  (areDistinctWithout name [] e.values ||
    (isSet legacyConflictsOption e.settings && !features.strictJson)) &&
  e.reservedRanges.all (fun r => r.first ≤ r.last) && areDisjoint e.reservedRanges &&
  numbers.all (fun n => !e.reservedRanges.any (·.contains n)) &&
  isDistinct e.reservedNames && names.all (!e.reservedNames.contains ·) &&
  areProperSettings edition .enum e.settings &&
  e.values.all (fun v => areProperSettings edition .enumValue v.settings) &&
  (!features.styledNames || (isTitleCase name && names.all isUpperSnakeCase))

end Treewire.Proto
