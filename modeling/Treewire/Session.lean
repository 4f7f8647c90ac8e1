import Treewire.Session.Failure

/-!
# Sessions

A session is a program at work: the machine it runs on, its log, what was written to the console,
the schemas that it compiled, and the directory for temporary files that it settled on. An `Act`
changes the session and gives a value or fails; what it changed before it failed stays changed.
-/

namespace Treewire

structure Session where
  machine : Machine
  /-- The directory of the files that come with the program. -/
  bundle : Path
  log : Log
  /-- Records that the log admitted, first one first. -/
  records : List Log.Record
  console : Text
  schemas : SchemaStore
  temporary : Option Path
  deriving Inhabited

/-- A session at its start. -/
def Session.start (machine : Machine) (bundle : Path) : Session :=
  ⟨machine, bundle, .initial, [], [], [], none⟩

abbrev Act := ExceptT Failure (StateM Session)

namespace Session

def withFiles (s : Session) (files : Files) : Session :=
  { s with machine := { s.machine with files := files } }

/-- The log given a record, which reaches its handlers if it is admitted. -/
def record (s : Session) (r : Log.Record) : Session :=
  if s.log.admits r.level then
    let (files, console) := s.log.deliver r s.machine.files s.console
    { s.withFiles files with console := console, records := s.records ++ [r] }
  else s

/-- The script and the schema that are used where none is configured. -/
def bundledScript (s : Session) : Path := s.bundle.join (Path.ofString "parser.js")

def bundledSchema (s : Session) : Path := s.bundle.join (Path.ofString "ast.proto")

end Session

namespace Act

/-- An act with its outcome as the value. -/
def attempt {α : Type} (act : Act α) : Act (Except Failure α) := fun s =>
  let (outcome, s) := act s
  (.ok outcome, s)

def ofExcept {ε α : Type} (cause : ε → Failure) : Except ε α → Act α
  | .ok a => pure a
  | .error e => throw (cause e)

/-- Logs a message. -/
def tell (source : String) (level : Log.Level) (message : Text) : Act Unit :=
  modify (·.record ⟨source, level, message⟩)

/-- Asks the system. -/
def ask {α : Type} (question : Machine → Except FileError α) : Act α := do
  ofExcept .system (question (← get).machine)

/-- Changes files. -/
def change (operation : Machine → Except FileError Files) : Act Unit := do
  let files ← ask operation
  modify (·.withFiles files)

/-- Writes to the console. -/
def print (text : Text) : Act Unit := modify fun s => { s with console := s.console ++ text }

def freshName : Act Text := do
  let s ← get
  let (name, machine) := s.machine.freshName
  set { s with machine := machine }
  return Text.ofString name

/-- The directory for temporary files. The first one found is kept. -/
def temporaryDirectory : Act Path := do
  let s ← get
  match s.temporary with
  | some directory => return directory
  | none =>
    match s.machine.temporaryDirectory? with
    | none => throw (.system .noEntry)
    | some directory =>
      set { s with temporary := some directory }
      return directory

/-- Refuses a text that the system cannot take. -/
def passable (t : Text) : Act Unit :=
  if !t.all Symbol.isTellable then throw (.badText .notEncodable)
  else if t.contains (.scalar '\x00') then throw (.badText .endsEarly)
  else return

end Act

end Treewire
