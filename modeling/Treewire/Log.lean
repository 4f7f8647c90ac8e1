import Treewire.Log.Layout
import Treewire.Machine

/-!
# Logging

Records have a level, and reach every handler whose level they reach, if they reach that of the log
first. A handler writes lines to a file or to the console.
-/

namespace Treewire

namespace Log

inductive Level where
  | unset | debug | info | warning | error | critical
  deriving DecidableEq, Inhabited

namespace Level

def number : Level → Nat
  | .unset => 0
  | .debug => 10
  | .info => 20
  | .warning => 30
  | .error => 40
  | .critical => 50

def name : Level → String
  | .unset => "NOTSET"
  | .debug => "DEBUG"
  | .info => "INFO"
  | .warning => "WARNING"
  | .error => "ERROR"
  | .critical => "CRITICAL"

/-- The level of a name in capitals; two have a second name. -/
def ofCapitals? : String → Option Level
  | "NOTSET" => some .unset
  | "DEBUG" => some .debug
  | "INFO" => some .info
  | "WARNING" | "WARN" => some .warning
  | "ERROR" => some .error
  | "CRITICAL" | "FATAL" => some .critical
  | _ => none

/-- The capital of a letter that names of levels are made of. Two letters beyond ASCII have such
capitals too. -/
def capital (c : Char) : Char := if c = 'ı' then 'I' else if c = 'ſ' then 'S' else c.toUpper

/-- The level of a name in any case. -/
def ofName? (name : String) : Option Level := ofCapitals? (name.map capital)

theorem ofCapitals?_name (l : Level) : ofCapitals? l.name = some l := by cases l <;> rfl

theorem ofName?_name (l : Level) : ofName? l.name = some l := by
  have hcapital : l.name.map capital = l.name := by
    rw [← String.toList_inj, String.toList_map]
    cases l <;> rfl
  rw [ofName?, hcapital, ofCapitals?_name]

def reaches (l least : Level) : Bool := least.number ≤ l.number

end Level

structure Record where
  /-- The part of the program that speaks. -/
  source : String
  level : Level
  message : Text
  deriving DecidableEq, Inhabited

inductive Sink where
  | file (loc : Location)
  | console
  deriving DecidableEq, Inhabited

structure Handler where
  sink : Sink
  level : Level
  layout : String
  deriving DecidableEq, Inhabited

/-- The moment that every record is stamped with; a run takes no time. -/
def moment : String := "1970-01-01 00:00:00,000"

def usualLayout : String := "%(asctime)s - %(name)s - %(levelname)s - %(message)s"

/-- The attributes of a record by name. -/
def Record.valueOf (r : Record) : String → Option Attribute
  | "asctime" => some (.text (Text.ofString moment))
  | "name" => some (.text (Text.ofString r.source))
  | "levelname" => some (.text (Text.ofString r.level.name))
  | "levelno" => some (.number r.level.number)
  | "message" => some (.text r.message)
  | "threadName" => some (.text (Text.ofString "MainThread"))
  | "processName" => some (.text (Text.ofString "MainProcess"))
  | _ => none

/-- The line that a handler writes for a record, if its layout can be filled. -/
def Handler.line? (h : Handler) (r : Record) : Option Text :=
  let cs := h.layout.toList
  (format? r.valueOf (cs.length + 1) cs).map (· ++ [.scalar '\n'])

end Log

open Log in
structure Log where
  level : Level
  handlers : List Handler
  deriving DecidableEq, Inhabited

namespace Log

/-- The log before anything is set up. -/
def initial : Log := ⟨.warning, []⟩

/-- Whether records of a level are passed on. Records without a level never are. -/
def admits (log : Log) (level : Level) : Bool := level ≠ .unset && level.reaches log.level

/-- What a handler adds to a file and to the console. -/
def Handler.deliver (r : Record) (h : Handler) (fs : Files) (console : Text) : Files × Text :=
  if !r.level.reaches h.level then (fs, console)
  else match h.line? r with
    | none => (fs, console)
    | some line =>
      match h.sink with
      | .console => (fs, console ++ line)
      | .file loc =>
        match fs.get? loc, Utf8.encodeText? line with
        | some (.file content mode), some octets =>
          (fs.put loc (.file (content ++ octets) mode), console)
        | _, _ => (fs, console)

/-- What all handlers add for an admitted record. -/
def deliver (log : Log) (r : Record) (fs : Files) (console : Text) : Files × Text :=
  log.handlers.foldl (fun (fs, console) h => h.deliver r fs console) (fs, console)

/-! ## Setting up -/

structure Request where
  level : String
  file : Option Path
  layout : Option String
  consoleLevel : Option String
  deriving Inhabited

/-- Why a log cannot be set up as asked for. -/
inductive Fault where
  | unknownLevel
  /-- A layout without any place. -/
  | badLayout
  | file (error : FileError)
  deriving DecidableEq, Inhabited

def fileVariable : String := "JSAST_LOG_FILE"

/-- The layout that a handler ends up with. Without any text, only the message is written. -/
def layoutOf (request : Request) : Except Fault String :=
  match request.layout with
  | none => .ok usualLayout
  | some "" => .ok "%(message)s"
  | some layout => if hasPlace layout.toList then .ok layout else .error .badLayout

/-- What stands in the way of setting a log up: its own fault, or a path that the system cannot be
told. -/
inductive Obstacle where
  | fault (fault : Fault)
  | badText (fault : TextFault)
  deriving DecidableEq, Inhabited

/-- Refuses a path that the system cannot take. -/
def passable (p : Path) : Except Obstacle Unit :=
  if !p.toText.all Symbol.isTellable then .error (.badText .notEncodable)
  else if p.toText.contains (.scalar '\x00') then .error (.badText .endsEarly)
  else .ok ()

/-- The directory that a file is to be in, made if it is not there. -/
def makeRoom (m : Machine) (p : Path) : Except Obstacle Files := do
  passable p.parent
  (m.makeDirectories p.parent m.files).mapError (.fault <| .file ·)

/-- The file that a log goes to, opened for more, and its location. -/
def openFile (m : Machine) (p : Path) (fs : Files) : Except Obstacle (Location × Files) := do
  passable p
  let path := (m.plain p).toString
  let loc ← (fs.writable m.here path).mapError (.fault <| .file ·)
  match fs.get? loc with
  | some _ => return (loc, fs)
  | none => return (loc, fs.put loc (.file [] Files.usualMode))

/-- The log that a request asks for, step by step: a failure keeps what was done before it. The new
level comes first, then the old handlers go, then a file is opened, and the console comes last. -/
def setup (m : Machine) (request : Request) (log : Log) : Except Obstacle Unit × Log × Files :=
  match Level.ofName? request.level with
  | none => (.error (.fault .unknownLevel), log, m.files)
  | some level =>
    let bare : Log := ⟨level, []⟩
    let file := request.file.or
      ((Configuration.value? m.vars fileVariable).map Path.ofString)
    match opened bare file with
    | (.error obstacle, files) => (.error obstacle, bare, files)
    | (.ok handlers, files) =>
      let log : Log := ⟨level, handlers⟩
      let name := match request.consoleLevel with
        | some "" | none => "WARNING"
        | some name => name
      match Level.ofName? name, layoutOf request with
      | none, _ => (.error (.fault .unknownLevel), log, files)
      | some _, .error fault => (.error (.fault fault), log, files)
      | some consoleLevel, .ok layout =>
        (.ok (), ⟨level, handlers ++ [⟨.console, consoleLevel, layout⟩]⟩, files)
where
  opened (log : Log) : Option Path → Except Obstacle (List Handler) × Files
    | none => (.ok [], m.files)
    | some p =>
      match makeRoom m p with
      | .error obstacle => (.error obstacle, m.files)
      | .ok files =>
        match openFile m p files with
        | .error obstacle => (.error obstacle, files)
        | .ok (loc, files) =>
          match layoutOf request with
          | .error fault => (.error (.fault fault), files)
          | .ok layout => (.ok [⟨.file loc, log.level, layout⟩], files)

end Log

end Treewire
