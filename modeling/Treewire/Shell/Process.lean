import Treewire.Launcher
import Treewire.Shell.Syntax
import Treewire.Shell.Test
import Treewire.Text.Octet

/-!
# Processes

A process has variables, open descriptors and a working directory of its own. The files, what was
written, and the clock it shares with all processes of its launch.
-/

namespace Treewire.Shell

/-- The characters of a string's octets. -/
def octets (s : String) : List Char := octetChars (Utf8.encodeString s)

/-- The path, or any text, that octets spell. -/
def spelled (cs : List Char) : String := Utf8.decodeStringLossy (charOctets cs)

/-- What an open descriptor leads to. -/
inductive Channel where
  | console
  | nowhere
  | file (loc : Location)
  /-- Text to be read or collected. -/
  | buffer (index : Nat)
  deriving DecidableEq, Inhabited

structure World where
  files : Files
  /-- What was written to the console, last piece first. -/
  written : List (List Char)
  buffers : List (List Char)
  /-- Milliseconds since the start. -/
  clock : Nat
  /-- When the launch is over at the latest. -/
  limit : Option Nat
  deriving Inhabited

structure Process where
  world : World
  here : Location
  vars : List (List Char × List Char)
  exported : List (List Char)
  functions : List (List Char × Command)
  descriptors : List (Nat × Channel)
  /-- The name that the script goes by. -/
  name : List Char
  arguments : List (List Char)
  number : Nat
  status : Nat
  /-- The line of the present command. -/
  line : Nat
  exitsOnFailure : Bool
  /-- The command that complaints are made in the name of, if there is one. -/
  speaker : List Char
  /-- How many loops the present command is in. -/
  loops : Nat
  deriving Inhabited

/-- Why a process does not go on with the next command. -/
inductive Stop where
  /-- It ends with its status. -/
  | ended
  | killed (signal : Signal)
  /-- Its time is over, or it waits for what never comes. -/
  | late
  | returned
  | broken (levels : Nat)
  | continued (levels : Nat)
  deriving DecidableEq, Inhabited

abbrev Run := ExceptT Stop (StateM Process)

namespace World

/-- Puts text at the end of what a channel leads to. -/
def write (w : World) (channel : Channel) (text : List Char) : World :=
  match channel with
  | .console => { w with written := text :: w.written }
  | .nowhere => w
  | .buffer n => { w with buffers := w.buffers.set n ((w.buffers[n]?).getD [] ++ text) }
  | .file loc =>
    match w.files.get? loc with
    | some (.file content mode) =>
      { w with files := w.files.put loc (.file (content ++ charOctets text) mode) }
    | _ => w

/-- A new buffer, and its index. -/
def addBuffer (w : World) (text : List Char) : Nat × World :=
  (w.buffers.length, { w with buffers := w.buffers ++ [text] })

/-- All that was written to the console. -/
def output (w : World) : Bytes := charOctets w.written.reverse.flatten

end World

namespace Process

def channel (p : Process) (descriptor : Nat) : Channel :=
  (p.descriptors.lookup descriptor).getD .nowhere

def setVariable (p : Process) (name value : List Char) : Process :=
  { p with vars := (name, value) :: p.vars.filter (·.1 != name) }

def unsetVariable (p : Process) (name : List Char) : Process :=
  { p with
    vars := p.vars.filter (·.1 != name)
    exported := p.exported.filter (· != name) }

def setDescriptor (p : Process) (descriptor : Nat) (channel : Channel) : Process :=
  { p with descriptors := (descriptor, channel) :: p.descriptors.filter (·.1 != descriptor) }

/-- The variables that a process hands on. -/
def environment (p : Process) : List (List Char × List Char) :=
  p.vars.filter fun v => p.exported.contains v.1

/-- The machine as a program launched from a process finds it. -/
def path? (p : Process) : Option (List Char) := p.vars.lookup "PATH".toList

end Process

namespace Run

def setStatus (status : Nat) : Run Unit := modify fun p => { p with status := status }

def write (descriptor : Nat) (text : List Char) : Run Unit :=
  modify fun p => { p with world := p.world.write (p.channel descriptor) text }

/-- A message on the second output stream, with the script, its line and the speaker in front. -/
def complain (message : List Char) : Run Unit := do
  let p ← get
  let speaker := if p.speaker.isEmpty then [] else p.speaker ++ ": ".toList
  write 2 (p.name ++ ": ".toList ++ (toString p.line).toList ++ ": ".toList ++ speaker ++ message ++
    ['\n'])

/-- An act after which the process is mended, however the act ends. -/
def afterwards {α : Type} (mend : Process → Process) (act : Run α) : Run α := fun p =>
  let (outcome, p) := act p
  (outcome, mend p)

/-- An act whose complaints are made in the name of a command. -/
def speaking {α : Type} (speaker : List Char) (act : Run α) : Run α := do
  let before := (← get).speaker
  modify fun p => { p with speaker := speaker }
  afterwards (fun p => { p with speaker := before }) act

/-- Ends the process with a status. -/
def exit {α : Type} (status : Nat) : Run α := do
  setStatus (status % 256)
  throw .ended

/-- What is left to read on the first descriptor, all of which is read. -/
def readAll : Run (List Char) := do
  let p ← get
  match p.channel 0 with
  | .buffer n =>
    let text := (p.world.buffers[n]?).getD []
    set { p with world := { p.world with buffers := p.world.buffers.set n [] } }
    return text
  | _ => return []

/-- The next line to read, without its end, and whether it has one. -/
def readLine : Run (List Char × Bool) := do
  let p ← get
  match p.channel 0 with
  | .buffer n =>
    let text := (p.world.buffers[n]?).getD []
    let line := text.takeWhile (· != '\n')
    let rest := text.drop (line.length + 1)
    set { p with world := { p.world with buffers := p.world.buffers.set n rest } }
    return (line, line.length < text.length)
  | _ => return ([], false)

/-- Lets time pass. -/
def wait (milliseconds : Nat) : Run Unit := do
  let p ← get
  let now := p.world.clock + milliseconds
  match p.world.limit with
  | some limit =>
    if limit ≤ now then throw .late
    else set { p with world := { p.world with clock := now } }
  | none => set { p with world := { p.world with clock := now } }

/-- Asks the system about files. -/
def ask {α : Type} (question : Files → Location → Except FileError α) :
    Run (Except FileError α) := do
  let p ← get
  return question p.world.files p.here

/-- Changes files. -/
def change (operation : Files → Location → Except FileError Files) :
    Run (Except FileError Unit) := do
  let p ← get
  match operation p.world.files p.here with
  | .ok files =>
    set { p with world := { p.world with files := files } }
    return .ok ()
  | .error e => return .error e

/-- The content of a file. A pipe is waited for in vain. -/
def content (path : List Char) : Run (Except FileError (List Char)) := do
  match ← ask fun fs here => fs.stat here (spelled path) with
  | .ok (_, .pipe) => throw .late
  | _ =>
    match ← ask fun fs here => fs.read here (spelled path) with
    | .ok bytes => return .ok (octetChars bytes)
    | .error e => return .error e

/-! ## Opening files -/

def nullDevice : List Char := "/dev/null".toList

/-- Opens a file for reading or writing. Opening for writing empties the file or creates it. -/
def openFile (mode : OpenMode) (path : List Char) : Run (Except FileError Channel) := do
  if path = nullDevice then return .ok .nowhere
  else match mode with
    | .read =>
      match ← content path with
      | .ok text =>
        let p ← get
        let (n, world) := p.world.addBuffer text
        set { p with world := world }
        return .ok (.buffer n)
      | .error .isDirectory => return .ok .nowhere
      | .error e => return .error e
    | _ =>
      match ← ask fun fs here => fs.writable here (spelled path) with
      | .error e => return .error e
      | .ok loc =>
        match (← get).world.files.get? loc with
        | some .pipe => throw .late
        | some (.file old fileMode) =>
          let kept := if mode = .write then [] else old
          let _ ← change fun fs _ => .ok (fs.put loc (.file kept fileMode))
          return .ok (.file loc)
        | some _ => return .ok .nowhere
        | none =>
          let _ ← change fun fs _ => .ok (fs.put loc (.file [] Files.usualMode))
          return .ok (.file loc)

/-- Why a file cannot be opened, as the shell tells it. -/
def openComplaint (mode : OpenMode) (path : List Char) (e : FileError) : List Char :=
  let isAbsent := e = .noEntry || e = .notDirectory
  let (verb, absent) := match mode with
    | .read => ("open", "No such file")
    | _ => ("create", "Directory nonexistent")
  s!"cannot {verb} ".toList ++ path ++ ": ".toList ++ (if isAbsent then absent else e.text).toList

/-! ## Properties of files -/

def has (p : Process) (property : FileProperty) (path : List Char) : Bool :=
  let fs := p.world.files
  let isLink := match fs.resolve p.here false (spelled path) with
    | .ok loc => match fs.get? loc with
      | some (.link _) => true
      | _ => false
    | .error _ => false
  match fs.stat p.here (spelled path), property with
  | _, .link => isLink
  | .error _, _ => path = nullDevice && (property = .present || property = .accessible)
  | .ok _, .present | .ok _, .accessible => true
  | .ok (_, .file ..), .regular | .ok (_, .tool _), .regular => true
  | .ok (_, .directory), .directory | .ok (_, .directory), .executable => true
  | .ok (_, .directory), .notEmpty | .ok (_, .tool _), .notEmpty => true
  | .ok (_, .tool _), .executable => true
  | .ok (_, .file _ mode), .executable => Files.isExecutableMode mode
  | .ok (_, .file content _), .notEmpty => !content.isEmpty
  | .ok (_, .pipe), .pipe => true
  | _, _ => false

end Run

end Treewire.Shell
