import Treewire.Files.Report
import Treewire.Yaml.Document

/-!
# Configurations

A configuration says where the tools are and how long they may run. It is read from a YAML mapping
whose keys are all optional; relative paths in it are seen from the directory of its file, and a
tilde at the start of a path stands for a home directory.
-/

namespace Treewire

/-! ## Home directories -/

/-- Where the home directories are. -/
structure Homes where
  /-- The value of `HOME`, if it is set. -/
  preferred : Option String
  /-- The home of the account that runs the program. -/
  own : String
  accounts : List (String × String)
  deriving Inhabited

/-- A home directory that cannot be told. -/
inductive HomeFault where
  | unknown
  /-- The account's name holds a character that no name can hold. -/
  | badName
  deriving DecidableEq, Inhabited

namespace Homes

/-- The home of an account, of the own one if no name is given. -/
def directory (h : Homes) (account : Text) : Except HomeFault Text :=
  if account = [] then .ok (Text.ofString (h.preferred.getD h.own))
  else if account.contains (.scalar '\x00') then .error .badName
  else match h.accounts.find? fun entry => Text.ofString entry.1 = account with
    | some entry => .ok (Text.ofString entry.2)
    | none => .error .unknown

def withoutLastSlashes (t : Text) : Text := (t.reverse.dropWhile (· == slash)).reverse

/-- The path with the home directory for a tilde in front. -/
def expand (h : Homes) (p : Path) : Except HomeFault Path :=
  match p.root, p.parts with
  | .relative, (.scalar '~' :: account) :: rest => do
    let home := withoutLastSlashes (← h.directory account)
    let home := if home = [] then [slash] else home
    if home.head? = some (.scalar '~') then .error .unknown
    else
      let base := Path.ofText home
      return ⟨base.root, base.parts ++ rest⟩
  | _, _ => .ok p

end Homes

/-! ## Configurations -/

/-- A number of seconds. -/
inductive Duration where
  | whole (n : Int)
  | real (x : Binary64)
  deriving DecidableEq, Inhabited

namespace Duration

def toBinary64 : Duration → Binary64
  | .whole n => .ofInt n
  | .real x => x

def toAtom : Duration → Yaml.Atom
  | .whole n => .int n
  | .real x => .float x

/-- Whether a duration is zero or less; false of what is no number. -/
def isNotPositive : Duration → Bool
  | .whole n => n ≤ 0
  | .real x =>
    match x.value with
    | .nan => false
    | _ => !x.isPositive

end Duration

/-- The paths that a configuration can set. -/
structure ToolPaths where
  node : Option Path := none
  temporary : Option Path := none
  script : Option Path := none
  schema : Option Path := none
  deriving DecidableEq, Inhabited

structure Configuration where
  /-- The name under which the runtime is searched. -/
  nodeBinary : Text
  /-- Directories that are searched after those of the search path. -/
  fallbackDirs : List Text
  /-- How long a run may take, if there is a limit. -/
  timeout : Option Duration
  paths : ToolPaths
  deriving DecidableEq, Inhabited

namespace Configuration

def defaultBinary : Text := Text.ofString "node"

def defaultFallbacks : List Text := [Text.ofString "/opt/homebrew/bin"]

/-- Two minutes. -/
def defaultTimeout : Duration := .real (.ofInt 120)

end Configuration

/-- What is used where nothing is configured. -/
def Configuration.default : Configuration :=
  ⟨defaultBinary, defaultFallbacks, some defaultTimeout, {}⟩

/-- Why there is no configuration. -/
inductive ConfigurationFault where
  | unreadable (file : Path) (error : FileError)
  | notYaml (file : Path)
  | notMapping (file : Path)
  | unknownKeys (file : Path) (keys : List Text)
  | binaryNotText
  | fallbacksNotTexts
  | badTimeout (found : Yaml.Value)
  | pathNotText (key : String)
  /-- The octets of the file are not UTF-8. -/
  | notUtf8
  /-- A node of the file does not make a value. -/
  | badNode (fault : Yaml.Fault)
  /-- An unknown key that is not even a text. -/
  | keyNotText
  | noHome (fault : HomeFault)
  /-- A value of the wrong type where types were not checked before. -/
  | badType
  /-- A rejected timeout with too long an integer in it. -/
  | unwritable
  deriving Inhabited

namespace ConfigurationFault

/-- A remark on the whole file. -/
def onFile (file : Path) (remark : Text) : Text := file.toText ++ Text.ofString ": " ++ remark

/-- The explanation of a fault that the configuration is to blame for. -/
def message? : ConfigurationFault → Option Text
  | .unreadable file error =>
    some (Text.ofString "Cannot read configuration " ++ onFile file (error.report file.toText))
  | .notYaml file => some (Text.ofString "Invalid YAML in " ++ file.toText)
  | .notMapping file => some (onFile file (Text.ofString "top level must be a mapping"))
  | .unknownKeys file keys =>
    some (onFile file (Text.ofString "unknown keys: " ++ joinWith (Text.ofString ", ") keys))
  | .binaryNotText => some (Text.ofString "node_binary must be a string")
  | .fallbacksNotTexts => some (Text.ofString "fallback_dirs must be a list of strings")
  | .badTimeout found =>
    some (Text.ofString "timeout must be a positive number or null, got " ++ found.shown)
  | .pathNotText key => some (Text.ofString s!"{key} must be a path string")
  | .notUtf8 | .badNode _ | .keyNotText | .noHome _ | .badType | .unwritable => none

end ConfigurationFault

namespace Configuration

/-- The entries of a mapping. -/
abbrev Entries := List (Yaml.Atom × Yaml.Value)

def setting? (entries : Entries) (key : String) : Option Yaml.Value :=
  entries.lookup (.text (Text.ofString key))

def nodePathKey : String := "node_path"
def temporaryKey : String := "temp_dir"
def scriptKey : String := "parser_script"
def schemaKey : String := "ast_schema"

def pathKeys : List String := [nodePathKey, temporaryKey, scriptKey, schemaKey]

def knownKeys : List String := ["node_binary", "fallback_dirs", "timeout"] ++ pathKeys

/-! ## Checking -/

/-- What a valid mapping asks for. -/
structure Choices where
  nodeBinary : Text
  fallbackDirs : List Text
  timeout : Option Duration
  node : Option Text
  temporary : Option Text
  script : Option Text
  schema : Option Text

/-- Texts in the order of their code points. -/
def sorted (ts : List Text) : List Text :=
  ts.mergeSort fun a b => decide (¬ b.map Symbol.codePoint < a.map Symbol.codePoint)

/-- Refuses keys that are not known. -/
def checkKeys (file : Path) (entries : Entries) : Except ConfigurationFault Unit :=
  let isKnown (key : Yaml.Atom) : Bool := knownKeys.any fun k => key = .text (Text.ofString k)
  match (entries.map (·.1)).filter (!isKnown ·) with
  | [] => .ok ()
  | unknown =>
    let texts := unknown.filterMap fun
      | .text t => some t
      | _ => none
    if texts.length < unknown.length then .error .keyNotText
    else .error (.unknownKeys file (sorted texts))

def binary (entries : Entries) : Except ConfigurationFault Text :=
  match setting? entries "node_binary" with
  | none => .ok defaultBinary
  | some (.atom (.text t)) => .ok t
  | some _ => .error .binaryNotText

def textOf? : Yaml.Value → Option Text
  | .atom (.text t) => some t
  | _ => none

def fallbacks (entries : Entries) : Except ConfigurationFault (List Text) :=
  match setting? entries "fallback_dirs" with
  | none => .ok defaultFallbacks
  | some (.list items) =>
    match items.mapM textOf? with
    | some dirs => .ok dirs
    | none => .error .fallbacksNotTexts
  | some _ => .error .fallbacksNotTexts

/-- The number of seconds that a value is, unless it is a truth value. -/
def durationOf? : Yaml.Value → Option Duration
  | .atom (.int n) => some (.whole n)
  | .atom (.float x) => some (.real x)
  | _ => none

def timeLimit (entries : Entries) : Except ConfigurationFault (Option Duration) :=
  match setting? entries "timeout" with
  | none => .ok (some defaultTimeout)
  | some (.atom .null) => .ok none
  | some v =>
    match durationOf? v with
    | some d => if d.isNotPositive then refuse v else .ok (some d)
    | none => refuse v
where
  refuse (v : Yaml.Value) : Except ConfigurationFault (Option Duration) :=
    .error (if v.isWritable then .badTimeout v else .unwritable)

def pathText (entries : Entries) (key : String) : Except ConfigurationFault (Option Text) :=
  match setting? entries key with
  | none | some (.atom .null) => .ok none
  | some (.atom (.text t)) => .ok (some t)
  | some _ => .error (.pathNotText key)

/-- The choices of a mapping, or the first rule that it breaks. -/
def check (file : Path) (entries : Entries) : Except ConfigurationFault Choices := do
  checkKeys file entries
  let nodeBinary ← binary entries
  let fallbackDirs ← fallbacks entries
  let timeout ← timeLimit entries
  let node ← pathText entries nodePathKey
  let temporary ← pathText entries temporaryKey
  let script ← pathText entries scriptKey
  let schema ← pathText entries schemaKey
  return ⟨nodeBinary, fallbackDirs, timeout, node, temporary, script, schema⟩

/-! ## Paths -/

/-- A path as the configuration means it: home directories filled in, and seen from a base. -/
def resolvePath (homes : Homes) (base : Option Path) (t : Text) :
    Except ConfigurationFault Path :=
  match homes.expand (Path.ofText t) with
  | .error fault => .error (.noHome fault)
  | .ok p =>
    match base with
    | some base => .ok (base.join p)
    | none => .ok p

def resolvePath? (homes : Homes) (base : Option Path) :
    Option Text → Except ConfigurationFault (Option Path)
  | none => .ok none
  | some t => (resolvePath homes base t).map some

def Choices.resolve (homes : Homes) (base : Option Path) (c : Choices) :
    Except ConfigurationFault Configuration := do
  let node ← resolvePath? homes base c.node
  let temporary ← resolvePath? homes base c.temporary
  let script ← resolvePath? homes base c.script
  let schema ← resolvePath? homes base c.schema
  return ⟨c.nodeBinary, c.fallbackDirs, c.timeout, ⟨node, temporary, script, schema⟩⟩

/-! ## Loading -/

/-- The document in the octets of a file. -/
def document (file : Path) (octets : Bytes) : Except ConfigurationFault Yaml.Document :=
  match Utf8.decode? octets with
  | none => .error .notUtf8
  | some cs =>
    match Yaml.Document.read (unifyBreaks cs) with
    | .ok d => .ok d
    | .error .malformed => .error (.notYaml file)
    | .error fault => .error (.badNode fault)

/-- The configuration that a document asks for. A document of nothing asks for nothing. -/
def ofDocument (homes : Homes) (file : Path) (d : Yaml.Document) :
    Except ConfigurationFault Configuration :=
  if d.isEmpty then .ok .default
  else match d.entries? with
    | none => .error (.notMapping file)
    | some entries => do (← check file entries).resolve homes (some file.parent)

/-- The configuration in a file. -/
def load (fs : Files) (here : Location) (homes : Homes) (file : Path) :
    Except ConfigurationFault Configuration :=
  match fs.read here file.toString with
  | .error error => .error (.unreadable file error)
  | .ok octets => do ofDocument homes file (← document file octets)

/-- Environment variables. -/
abbrev Variables := List (String × String)

def fileVariable : String := "JSAST_CONFIG"

def nodeVariable : String := "JSAST_NODE"

/-- The value of a variable, unless it is empty. -/
def value? (vars : Variables) (name : String) : Option String :=
  (vars.lookup name).filter (· != "")

/-- The configuration with the runtime that a variable asks for. -/
def withNode (homes : Homes) (vars : Variables) (c : Configuration) :
    Except ConfigurationFault Configuration :=
  match value? vars nodeVariable with
  | none => .ok c
  | some node =>
    match homes.expand (Path.ofString node) with
    | .error fault => .error (.noHome fault)
    | .ok p => .ok { c with paths := { c.paths with node := some p } }

/-- The configuration that environment variables ask for. -/
def ofVariables (fs : Files) (here : Location) (homes : Homes) (vars : Variables) :
    Except ConfigurationFault Configuration := do
  let c ← match value? vars fileVariable with
    | some file => load fs here homes (Path.ofString file)
    | none => .ok .default
  withNode homes vars c

end Configuration

/-! ## Settings that were not checked -/

/-- Values as a mapping gives them; only the paths are resolved. -/
structure Settings where
  nodeBinary : Yaml.Value
  fallbackDirs : List Yaml.Value
  timeout : Yaml.Value
  paths : ToolPaths
  deriving Inhabited

namespace Settings

open Treewire.Configuration

def pathOf (homes : Homes) (base : Option Path) (entries : Entries) (key : String) :
    Except ConfigurationFault (Option Path) :=
  match pathText entries key with
  | .ok t => resolvePath? homes base t
  | .error _ => .error .badType

/-- The items of a value that has items: those of a list, the keys of a mapping, the symbols of a
text. -/
def itemsOf : Yaml.Value → Except ConfigurationFault (List Yaml.Value)
  | .list items | .set items => .ok items
  | .mapping entries => .ok (entries.map (·.1))
  | .atom (.text t) => .ok (t.map fun s => .atom (.text [s]))
  | _ => .error .badType

def ofEntries (homes : Homes) (base : Option Path) (entries : Entries) :
    Except ConfigurationFault Settings := do
  let node ← pathOf homes base entries nodePathKey
  let temporary ← pathOf homes base entries temporaryKey
  let script ← pathOf homes base entries scriptKey
  let schema ← pathOf homes base entries schemaKey
  let fallbackDirs ← match setting? entries "fallback_dirs" with
    | none => .ok (defaultFallbacks.map fun t => .atom (.text t))
    | some v => itemsOf v
  return {
    nodeBinary := (setting? entries "node_binary").getD (.atom (.text defaultBinary))
    fallbackDirs := fallbackDirs
    timeout := (setting? entries "timeout").getD (.atom defaultTimeout.toAtom)
    paths := ⟨node, temporary, script, schema⟩ }

end Settings

end Treewire
