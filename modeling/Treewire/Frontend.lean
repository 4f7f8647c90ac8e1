import Treewire.Invocation
import Treewire.Search
import Treewire.Session.Schemas
import Treewire.Text.Trim

/-!
# The parser frontend

A frontend knows the runtime, the parser script and the schema. To parse a file it has the script
write the tree to a temporary file, reads that file, removes it, and decodes what it read. Whatever
happens, it tries to remove the file.
-/

namespace Treewire

structure Frontend where
  configuration : Configuration
  /-- The runtime. -/
  node : Path
  script : Path
  deriving Inhabited

namespace Frontend

def source : String := "jsast.core.parser"

/-- A frontend for a runtime. Nothing is checked. -/
def make (configuration : Configuration) (node : Path) (script : Option Path) : Act Frontend := do
  let s ← get
  return {
    configuration
    node := s.machine.absolute node
    script := (script.or configuration.paths.script).getD s.bundledScript }

/-- The schema of the trees. -/
def schema (f : Frontend) : Act Path := do
  return f.configuration.paths.schema.getD (← get).bundledSchema

/-- A frontend as it is shown to programmers. -/
def shown (f : Frontend) : Text :=
  Text.ofString "JavaScriptParser(node_path=" ++ f.node.toText.quoted ++
    Text.ofString ", script_path=" ++ f.script.toText.quoted ++ Text.ofString ")"

/-- Where the tools of a frontend are, all seen from the root. -/
structure Info where
  node : Path
  script : Path
  schema : Path
  deriving DecidableEq, Inhabited

def info (f : Frontend) : Act Info := do
  let m := (← get).machine
  return ⟨m.absolute f.node, m.absolute f.script, m.absolute (← f.schema)⟩

/-! ## Parsing -/

def runScript (launcher : Launcher) (f : Frontend) (arguments : List Text) : Act Text :=
  Invocation.run launcher (f.node.toText :: f.script.toText :: arguments) f.configuration.timeout

/-- A path for a temporary file whose name ends in a text. Nothing is created. -/
def temporaryPath (f : Frontend) (ending : Text) : Act Path := do
  let directory ← match f.configuration.paths.temporary with
    | some directory => pure directory
    | none => Act.temporaryDirectory
  let name ← Act.freshName
  return directory.join (Path.ofText (name ++ ending))

def outputEnding : Text := Text.ofString ".ast.proto"

/-- What the script left in its output file. -/
def readOutput (output : Path) : Act Bytes := do
  let m := (← get).machine
  Act.ofExcept (.unreadableOutput output) (m.files.read m.here output.toString)

/-- Removes the output file, which must be there. -/
def removeOutput (output : Path) : Act Unit := do
  let s ← get
  match s.machine.files.unlink s.machine.here output.toString with
  | .ok files => set (s.withFiles files)
  | .error e => throw (.lastingOutput output e)

/-- Removes the output file if it is there. That it stays is only worth a warning. -/
def discardOutput (output : Path) : Act Unit := do
  let s ← get
  match s.machine.files.unlink s.machine.here output.toString with
  | .ok files => set (s.withFiles files)
  | .error .noEntry => return
  | .error e =>
    Act.tell source .warning (Text.ofString "Leaving temporary AST file " ++ output.toText ++
      Text.ofString " behind: " ++ e.report output.toText)

/-- Has the script parse a file, and gives what it wrote. -/
def produce (launcher : Launcher) (f : Frontend) (schema output : Path) (file : Text) :
    Act Bytes := do
  let _ ← f.runScript launcher [schema.toText, file, output.toText]
  readOutput output

/-- The tree of a file. -/
def parse (launcher : Launcher) (f : Frontend) (file : Text) : Act Decoded := do
  let schema ← f.schema
  let output ← f.temporaryPath outputEnding
  match ← (f.produce launcher schema output file).attempt with
  | .error failure =>
    discardOutput output
    throw failure
  | .ok data =>
    removeOutput output
    Act.decodeTree data schema.toText

/-- Writes a text to a file. What cannot be encoded leaves the file empty. -/
def writeSource (file : Path) (code : Text) : Act Unit := do
  Act.passable file.toText
  Act.change fun m => m.files.write m.here file.toString []
  match Utf8.encodeText? code with
  | none => throw (.badText .notEncodable)
  | some octets => Act.change fun m => m.files.write m.here file.toString octets

/-- Removes a source file, unless it is gone already. -/
def removeSource (file : Path) : Act Unit := do
  let s ← get
  match s.machine.files.unlink s.machine.here file.toString with
  | .ok files => set (s.withFiles files)
  | .error .noEntry => return
  | .error e => throw (.system e)

/-- The tree of a text. The text is parsed from a temporary file whose name ends in that of a given
path. -/
def parseSource (launcher : Launcher) (f : Frontend) (code name : Text) : Act Decoded := do
  let file ← f.temporaryPath (.scalar '-' :: (Path.ofText name).name)
  writeSource file code
  let outcome ← (f.parse launcher file.toText).attempt
  removeSource file
  Act.ofExcept id outcome

/-! ## Setting up -/

def configurationSource : String := "jsast.core.configuration"

/-- The configuration in a file. -/
def loadConfiguration (file : Path) : Act Configuration := do
  Act.tell configurationSource .info (Text.ofString "Loading configuration from " ++ file.toText)
  Act.passable file.toText
  let m := (← get).machine
  Act.ofExcept .configuration (Configuration.load m.files m.here m.homes file)

/-- The configuration that variables ask for. -/
def defaultConfiguration (vars : Configuration.Variables) : Act Configuration := do
  let c ← match Configuration.value? vars Configuration.fileVariable with
    | some file => loadConfiguration (Path.ofString file)
    | none => pure .default
  Act.ofExcept .configuration (Configuration.withNode (← get).machine.homes vars c)

/-- The runtime that a configuration asks for: the file it names, or what the search finds. -/
def findNode (c : Configuration) : Act (Option Path) := do
  let m := (← get).machine
  match c.paths.node with
  | some node =>
    let node := m.absolute node
    let isUsable ← Act.ask (Search.isExecutable · node)
    return if isUsable then some node else none
  | none => Search.locate m.vars c.nodeBinary c.fallbackDirs

/-- What was searched in vain. -/
def wanted (c : Configuration) : Text :=
  Text.ofString "no executable " ++
    match c.paths.node with
    | some node => node.toText
    | none => .scalar '\'' :: c.nodeBinary ++ Text.ofString "' on PATH"

/-- Runs the script without any arguments, which it must survive. -/
def selfCheck (launcher : Launcher) (f : Frontend) : Act Unit := do
  match ← (f.runScript launcher []).attempt with
  | .ok _ => return
  | .error failure =>
    match failure.message? with
    | some message => throw (.unavailable .selfCheckFailed (Text.trim message))
    | none => throw failure

/-- A frontend whose runtime was found and whose script runs. -/
def establish (launcher : Launcher) (configuration : Option Configuration) : Act Frontend := do
  let c ← match configuration with
    | some c => pure c
    | none => defaultConfiguration (← get).machine.vars
  match ← findNode c with
  | none => throw (.unavailable .runtimeNotFound (wanted c))
  | some node =>
    let f ← make c node none
    f.selfCheck launcher
    Act.tell source .info (Text.ofString "JavaScript parser ready: node=" ++ node.toText ++
      Text.ofString " script=" ++ f.script.toText)
    return f

/-- A frontend, or a warning that says why there is none. -/
def establish? (launcher : Launcher) (configuration : Option Configuration) :
    Act (Option Frontend) := do
  match ← (establish launcher configuration).attempt with
  | .ok f => return some f
  | .error failure =>
    let explained := match failure with
      | .unavailable .. | .configuration _ => failure.message?
      | _ => none
    match explained with
    | some message =>
      Act.tell source .warning message
      return none
    | none => throw failure

end Frontend

end Treewire
