import Treewire.Machine

/-!
# Changing a machine by hand

What somebody at the machine does between the runs of programs: writing and removing files, following
directories, setting links, and looking around.
-/

namespace Treewire.Machine

/-- A file with a content, in a directory made for it if there is none, with a mode if one is
given. -/
def writeFile (m : Machine) (p : Path) (content : Bytes) (mode : Option Nat) :
    Except FileError Machine := do
  let files ← m.makeDirectories p.parent m.files
  let files ← files.write m.here p.toString content
  let loc ← files.resolve m.here true p.toString
  match mode, files.get? loc with
  | some mode, some (.file content _) =>
    return { m with files := files.put loc (.file content mode) }
  | _, _ => return { m with files := files }

def makeDirectory (m : Machine) (p : Path) : Except FileError Machine := do
  return { m with files := ← m.makeDirectories p m.files }

/-- Without a file, or a directory and all in it. -/
def remove (m : Machine) (p : Path) : Except FileError Machine := do
  let loc ← m.files.resolve m.here false p.toString
  if (m.files.get? loc).isSome then return { m with files := m.files.eraseTree loc }
  else throw .noEntry

def link (m : Machine) (p : Path) (target : String) : Except FileError Machine := do
  return { m with files := ← m.files.add m.here p.toString (.link target) }

/-- With another working directory. -/
def enter (m : Machine) (p : Path) : Except FileError Machine := do
  match ← m.files.stat m.here p.toString with
  | (loc, .directory) => return { m with here := loc }
  | _ => throw .notDirectory

/-- The characters of a file, which has to be UTF-8; line breaks of all kinds are unified. -/
def readText (m : Machine) (p : Path) : Except FileError (Option String) := do
  let octets ← m.files.read m.here p.toString
  return (Utf8.decode? octets).map fun cs => String.ofList (unifyBreaks cs)

/-- The paths of everything below a location, as they are seen from there, in order. A slash follows
those of directories. -/
def listing (m : Machine) (loc : Location) : List String :=
  let below := m.files.entries.filterMap fun (at_, entry) =>
    if loc.isPrefixOf at_ && at_ ≠ loc then
      let name := "/".intercalate (at_.drop loc.length)
      let isDirectory := match entry with
        | .directory => true
        | .link _ => match m.files.stat [] at_.path with
          | .ok (_, .directory) => true
          | _ => false
        | _ => false
      some (if isDirectory then name ++ "/" else name)
    else none
  below.mergeSort fun a b => decide (a ≤ b)

end Treewire.Machine
