import Treewire.CommandLine.Display
import Treewire.CommandLine.Surroundings
import Treewire.Shell.Launch

/-!
# The program

Runs the command line on a machine that holds what the run looks at. The shell and a few tools are
part of the machine, so that parsers which are scripts for the shell run on it; what they write stays
within it, and a program of another kind is refused for its format.
-/

namespace Treewire.Main

/-- How much of a file is looked at. -/
def sizeLimit : USize := 1048576

/-- What is at a path. Permissions do not show, so that a file counts as executable. -/
def look (path : String) : IO (Option Entry) := do
  match ← (IO.FS.Handle.mk path .read).toBaseIO with
  | .error _ => return none
  | .ok handle =>
    match ← (handle.read sizeLimit).toBaseIO with
    | .error _ => return some .directory
    | .ok content => return some (.file content.toList 0o755)

/-- The files with what is at some paths. -/
def gather (m : Machine) (files : Files) (paths : List Path) : IO Files := do
  let mut files := files
  for p in paths do
    match files.resolve m.here true (m.absolute p).toString with
    | .error .notDirectory => pure ()
    | _ =>
      match files.canonical? m.here (m.absolute p).toString with
      | none => pure ()
      | some loc =>
        if (files.get? loc).isNone then
          if let some entry ← look loc.path then
            files := (files.ensureDirectories loc.dropLast).put loc entry
  return files

/-- The tools that every machine has. -/
def tools : List (String × Tool) :=
  [("sh", .shell), ("cat", .cat), ("sleep", .sleep), ("mkdir", .mkdir), ("rm", .rm),
    ("mkfifo", .mkfifo)]

def toolFiles : Files :=
  ["/bin", "/usr/bin"].foldl (fun fs directory =>
    tools.foldl (fun fs (name, tool) =>
      let loc := Files.steps directory ++ [name]
      (fs.ensureDirectories loc.dropLast).put loc (.tool tool)) fs) ⟨[]⟩

/-- The variables that a run may ask for. -/
def variableNames : List String :=
  ["PATH", "HOME", "TMPDIR", "TEMP", "TMP", Configuration.fileVariable, Configuration.nodeVariable]

/-- A machine with tools only. -/
def bareMachine : IO Machine := do
  let here := Files.steps (← IO.currentDir).toString
  let vars ← variableNames.filterMapM fun name => do
    return (← IO.getEnv name).map fun value => (name, value)
  return {
    files := toolFiles.ensureDirectories here
    here
    vars
    ownHome := "/"
    accounts := []
    serial := 0 }

/-- The session in which the arguments are carried out. The schema of trees is built in, so that its
file only has to be there. The second look finds what the configuration names. -/
def session (arguments : List Text) : IO Session := do
  let bundle := Path.ofString (← IO.appDir).toString
  let mut s := Session.start (← bareMachine) (bundle.join (Path.ofString "parser"))
  let schema := Files.steps s.bundledSchema.toString
  s := s.withFiles ((s.machine.files.ensureDirectories schema.dropLast).put schema (.file [] 0o644))
  for _ in [0, 1] do
    s := s.withFiles (← gather s.machine s.machine.files (CommandLine.surroundings s arguments))
  return s

end Treewire.Main

open Treewire

/-- Carries out the arguments: the answer goes to the output, reports to the console. -/
def main (arguments : List String) : IO UInt32 := do
  let arguments := arguments.map Text.ofString
  let s ← Main.session arguments
  let (outcome, s) := (CommandLine.run Shell.launcher arguments).run s
  IO.eprint s.console.toStringLossy
  match outcome with
  | .ok answer =>
    IO.print answer.display.toStringLossy
    return UInt32.ofNat answer.status
  | .error failure =>
    let reason := failure.message?.map Text.toStringLossy
    IO.eprintln (reason.getD "jsast: the system refused an operation")
    return 1
