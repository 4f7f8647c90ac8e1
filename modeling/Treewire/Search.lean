import Treewire.Session

/-!
# Searching for a program

A program is searched in the directories of the search path and then in further ones. The first
executable file of its name is it. Without a search path nothing is searched.
-/

namespace Treewire.Search

/-- The directories to search, if there is a search path. Empty ones on the path do not count. -/
def directories? (vars : Configuration.Variables) (fallbacks : List Text) :
    Option (List Text) :=
  (vars.lookup "PATH").map fun path =>
    (pieces (.scalar ':') (Text.ofString path)).filter (· != []) ++ fallbacks

/-- Whether the system can be told a path. -/
def isTellable (p : Path) : Bool :=
  p.toText.all Symbol.isTellable && !p.toText.contains (.scalar '\x00')

/-- Whether a file may be executed. There is none at a path that the system cannot be told. -/
def isExecutable (m : Machine) (p : Path) : Except FileError Bool := do
  if !isTellable p then return false
  else if ← m.files.isFile m.here p.toString then
    match m.files.stat m.here p.toString with
    | .ok (_, .file _ mode) => return Files.isExecutableMode mode
    | .ok (_, .tool _) => return true
    | _ => return false
  else return false

/-- The first executable file of a name in some directories, as it is seen from the root. -/
def find (m : Machine) (binary : Text) : List Text → Except FileError (Option Path)
  | [] => .ok none
  | directory :: rest => do
    let candidate := (Path.ofText directory).join (Path.ofText binary)
    if ← isExecutable m candidate then return some (m.absolute candidate)
    else find m binary rest

def source : String := "jsast.core.locator"

/-- Searches as variables and fallback directories ask for, and logs what comes of it. -/
def locate (vars : Configuration.Variables) (binary : Text) (fallbacks : List Text) :
    Act (Option Path) := do
  let say (parts : List Text) : Act Unit := Act.tell source .debug parts.flatten
  match directories? vars fallbacks with
  | none =>
    say [Text.ofString "PATH is not set; not looking for ", binary]
    return none
  | some directories =>
    match ← Act.ask (find · binary directories) with
    | some p =>
      say [Text.ofString "Found ", binary, Text.ofString " at ", p.toText]
      return some p
    | none =>
      say [Text.ofString "No executable ", binary,
        Text.ofString s!" in {directories.length} candidate directories"]
      return none

end Treewire.Search
