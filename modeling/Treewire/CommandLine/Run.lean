import Treewire.CommandLine.Arguments
import Treewire.Frontend

/-!
# Running the command line

The command `check` reports where the tools are; `parse` prints the tree of each file and of the code
given. A file that cannot be parsed is reported, and the others are parsed all the same.
-/

namespace Treewire.CommandLine

/-- Rows of an item and its value, under a title. -/
structure Table where
  title : String
  rows : List (String × Text)
  deriving DecidableEq, Inhabited

/-- What a program prints. -/
inductive Output where
  | text (t : Text)
  | table (t : Table)
  deriving DecidableEq, Inhabited

inductive Answer where
  /-- How the program is used, and the status with which it ends. -/
  | usage (status : Nat)
  /-- Help, because no command was given. -/
  | help
  | done (status : Nat) (output : Output)
  deriving DecidableEq, Inhabited

def source : String := "jsast"

/-- Writes a line to the console, after the program's name. -/
def report (message : Text) : Act Unit :=
  Act.print (Text.ofString "jsast: " ++ message ++ [.scalar '\n'])

/-! ## Setting up -/

/-- The failure that an obstacle to the log comes to. -/
def logFailure : Log.Obstacle → Failure
  | .fault fault => .badLog fault
  | .badText fault => .badText fault

/-- Sets up the log as a request asks for it. -/
def setUpLog (request : Log.Request) : Act Unit := do
  let s ← get
  let (outcome, log, files) := Log.setup s.machine request s.log
  set { s.withFiles files with log := log }
  Act.ofExcept logFailure outcome

/-- The time limit that an option asks for: none at all unless it is positive. -/
def limitOf (x : Binary64) : Option Duration := if x.isPositive then some (.real x) else none

def configurationOf (settings : Settings) : Act Configuration := do
  let c ← match settings.configuration with
    | some (s :: rest) => Frontend.loadConfiguration (Path.ofText (s :: rest))
    | _ => Frontend.defaultConfiguration (← get).machine.vars
  match settings.timeout with
  | some x => return { c with timeout := limitOf x }
  | none => return c

/-- What to do about a missing parser. -/
def hint (bundle : Path) : Unavailability → Text
  | .runtimeNotFound => Text.ofString "install node.js or set JSAST_NODE to its path"
  | .selfCheckFailed =>
    Text.ofString "the parser dependencies may be missing; run 'npm install' in " ++ bundle.toText

/-- A frontend, or a report that says why there is none. -/
def frontend? (launcher : Launcher) (settings : Settings) : Act (Option Frontend) := do
  let attempted ← Act.attempt do
    Frontend.establish launcher (some (← configurationOf settings))
  match attempted with
  | .ok f => return some f
  | .error failure =>
    match failure, failure.message? with
    | .configuration _, some message =>
      report (Text.ofString "configuration error: " ++ message)
      return none
    | .unavailable reason _, some message =>
      report message
      report (hint (← get).bundle reason)
      return none
    | _, _ => throw failure

/-! ## Commands -/

def limitRow : Option Duration → String
  | none => "none"
  | some limit => limit.brief ++ "s"

def check (launcher : Launcher) (settings : Settings) : Act Answer := do
  setUpLog ⟨settings.level.name, none, none, none⟩
  match ← frontend? launcher settings with
  | none => return .done 1 (.text [])
  | some f =>
    let info ← f.info
    return .done 0 (.table ⟨"jsast parser",
      [("node", info.node.toText), ("script", info.script.toText),
        ("schema", info.schema.toText),
        ("timeout", Text.ofString (limitRow f.configuration.timeout))]⟩)

/-- How many statements a tree has at its top. -/
def topLevelCount (d : Decoded) : Except Failure Nat :=
  match d.type.fields.find? (·.name == "statements") with
  | none => .error (.noStatements true)
  | some f =>
    let values := d.message.values f.number
    if f.cardinality == .repeated then .ok values.length
    else match f.kind, values with
      | .scalar .string, [.string s] => .ok s.length
      | .scalar .bytes, [.bytes b] => .ok b.length
      | .scalar .string, _ | .scalar .bytes, _ => .ok 0
      | _, _ => .error (.noStatements false)

/-- A tree as it is printed. -/
def printed (format : Format) (d : Decoded) : Text :=
  match format with
  | .text => Text.ofString d.listing
  | .json => Text.ofString (d.toJson.render ⟨some 2, false⟩) ++ [.scalar '\n']

/-- The failure of an input, as it is reported. -/
def diagnostic (input message : Text) : Text :=
  input ++ Text.ofString ": " ++ message ++ [.scalar '\n']

/-- What becomes of an input: what is printed for it, or nothing after its failure was reported. -/
def attemptInput (input : Text) (act : Act Text) : Act (Option Text) := do
  match ← act.attempt with
  | .ok text => return some text
  | .error failure =>
    match failure.message? with
    | none => throw failure
    | some message =>
      Act.print (diagnostic input message)
      return none

/-- Parses a file, and logs how many statements it has. -/
def parseFile (launcher : Launcher) (f : Frontend) (format : Format) (file : Text) :
    Act Text := do
  let tree ← f.parse launcher file
  let count ← Act.ofExcept id (topLevelCount tree)
  Act.tell source .info (Text.ofString "parsed " ++ file ++
    Text.ofString s!": {count} top-level statements")
  return printed format tree

def parseCode (launcher : Launcher) (f : Frontend) (format : Format) (code : Text) : Act Text := do
  return printed format (← f.parseSource launcher code (Text.ofString "input.js"))

/-- What becomes of all inputs: the files in order, then the code. -/
def parseInputs (launcher : Launcher) (f : Frontend) (settings : Settings) (files : List Text) :
    Act (List (Option Text)) := do
  let outcomes ← files.mapM fun file =>
    attemptInput file (parseFile launcher f settings.format file)
  match settings.code with
  | none => return outcomes
  | some code =>
    let last ← attemptInput (Text.ofString "<eval>") (parseCode launcher f settings.format code)
    return outcomes ++ [last]

def parse (launcher : Launcher) (settings : Settings) (files : List Text) : Act Answer := do
  setUpLog ⟨settings.level.name, none, none, none⟩
  if files.isEmpty && settings.code.isNone then
    report (Text.ofString "nothing to parse (give FILE arguments or -e CODE)")
    return .done 2 (.text [])
  else
    match ← frontend? launcher settings with
    | none => return .done 1 (.text [])
    | some f =>
      let outcomes ← parseInputs launcher f settings files
      return .done (if outcomes.all Option.isSome then 0 else 1)
        (.text (outcomes.filterMap id).flatten)

/-- The answer to the arguments of a command line. -/
def run (launcher : Launcher) (arguments : List Text) : Act Answer := do
  match Request.ofArguments arguments with
  | .error .help => return .usage 0
  | .error .misuse => return .usage 2
  | .ok none => return .help
  | .ok (some (.check settings)) => check launcher settings
  | .ok (some (.parse settings files)) => parse launcher settings files

end Treewire.CommandLine
