import Treewire.Proto.Setting
import Treewire.Text.Split

/-!
# Names

Everything that is declared has a full name, a path of names from the package down. A name in a
declaration is looked up from the inside out: the scope in which its first part means something
settles what the whole means.
-/

namespace Treewire.Proto

/-- A file with the name under which others import it. -/
structure SourceFile where
  name : Bytes
  declaration : FileDeclaration
  deriving DecidableEq, Inhabited

/-- Names from the package down. -/
abbrev FullName := List String

def FullName.toString (n : FullName) : String := ".".intercalate n

inductive Meaning where
  | package | message | enum | enumValue | field | oneof | service | method
  deriving DecidableEq, Inhabited

/-- Whether a field can be of that kind. -/
def Meaning.isType : Meaning → Bool
  | .message | .enum => true
  | _ => false

/-- Whether other names can stand inside. -/
def Meaning.isScope : Meaning → Bool
  | .message | .enum | .package | .service => true
  | _ => false

structure Definition where
  name : FullName
  meaning : Meaning
  /-- The name of the file. -/
  file : Bytes
  deriving DecidableEq, Inhabited

/-! ## What a file defines -/

/-- The name of the oneof that an optional field has for itself. -/
def ownOneof (taken : List String) : Nat → String → String
  | 0, name => name
  | fuel + 1, name => if taken.contains name then ownOneof taken fuel ("X" ++ name) else name

/-- Whether a field has a oneof for itself, so that it can tell whether it is set. -/
def hasOwnOneof (edition : Edition) (f : FieldDeclaration) : Bool :=
  edition == .proto3 && f.label == some .optional && f.oneof.isNone

/-- The fields that have a oneof for themselves, each with the name of that. -/
def ownOneofs (taken : List String) : List FieldDeclaration → List (String × String)
  | [] => []
  | f :: rest =>
    let start := if f.name.toList.head? = some '_' then f.name else "_" ++ f.name
    let name := ownOneof taken (taken.length + 1) start
    (f.name, name) :: ownOneofs (name :: taken) rest

namespace MessageDeclaration

def ownOneofs (edition : Edition) (m : MessageDeclaration) : List (String × String) :=
  if m.isMapEntry then []
  else Proto.ownOneofs (m.fields.map (·.name) ++ m.oneofs.map (·.name))
    (m.fields.filter (hasOwnOneof edition))

end MessageDeclaration

/-- The name of a group's field is its type's name in small letters. -/
def FieldDeclaration.fieldName (f : FieldDeclaration) : String :=
  match f.type with
  | .group => f.name.toLower
  | _ => f.name

namespace SourceFile

def definitions (file : SourceFile) : List Definition :=
  let d := file.declaration
  let define (name : FullName) (meaning : Meaning) : Definition := ⟨name, meaning, file.name⟩
  let packages := (List.range d.package.length).map fun n =>
    define (d.package.take (n + 1)) .package
  let messages := d.messages.flatMap fun m =>
    let name := d.package ++ m.path
    define name .message ::
      (m.fields.map fun f => define (name ++ [f.fieldName]) .field) ++
      (m.oneofs.map fun o => define (name ++ [o.name]) .oneof) ++
      ((m.ownOneofs d.edition).map fun o => define (name ++ [o.2]) .oneof)
  let enums := d.enums.flatMap fun e =>
    define (d.package ++ e.path) .enum ::
      e.values.map fun v => define (d.package ++ e.path.dropLast ++ [v.name]) .enumValue
  let services := d.services.flatMap fun s =>
    let name := d.package ++ [s.name]
    define name .service :: s.methods.map fun m => define (name ++ [m.name]) .method
  let extensions := d.extensions.map fun (scope, f) =>
    define (d.package ++ scope ++ [f.fieldName]) .field
  packages ++ messages ++ enums ++ services ++ extensions

end SourceFile

/-- Whether no name means two things; many files may share a package. -/
def areDistinct (ds : List Definition) : Bool :=
  let own := (ds.filter (·.meaning != .package)).map (·.name)
  let packages := (ds.filter (·.meaning == .package)).map (·.name)
  isDistinct own && own.all (!packages.contains ·)

/-! ## Look-up -/

/-- What a full name stands for. -/
def define? (ds : List Definition) (name : FullName) : Option Definition :=
  ds.find? (·.name == name)

/-- What a name means in the scopes given, innermost first. The outermost of all has no name and is
not among them. -/
def resolveIn? (ds : List Definition) (onlyTypes : Bool) (name : FullName) :
    List FullName → Option Definition
  | [] => define? ds name
  | scope :: scopes =>
    match define? ds (scope ++ name.take 1) with
    | none => resolveIn? ds onlyTypes name scopes
    | some found =>
      if 1 < name.length then
        if found.meaning.isScope then define? ds (scope ++ name)
        else resolveIn? ds onlyTypes name scopes
      else if onlyTypes && !found.meaning.isType then resolveIn? ds onlyTypes name scopes
      else some found

/-- A scope and those around it, innermost first. -/
def scopesFrom (scope : FullName) : List FullName :=
  (List.range scope.length).reverse.map fun n => scope.take (n + 1)

/-- What a name means inside a scope. A dot in front makes it a full name. -/
def resolve? (ds : List Definition) (onlyTypes : Bool) (scope : FullName) (name : String) :
    Option Definition :=
  match splitString '.' name with
  | "" :: full => define? ds full
  | parts => resolveIn? ds onlyTypes parts (scopesFrom scope)

end Treewire.Proto
