import Treewire.Path
import Treewire.Text.Utf8

/-!
# Files

A file system is a list of entries by location, the names on the way from the root. Paths are
resolved as a system does it: a component at a time, following links at most forty times. Every
operation either answers or fails with the reason that the system gives.
-/

namespace Treewire

/-- Names from the root down. The root itself is the empty location. -/
abbrev Location := List String

/-- The path that spells a location. -/
def Location.path (loc : Location) : String := "/" ++ "/".intercalate loc

/-- Programs that a system brings along. -/
inductive Tool where
  | shell | cat | sleep | mkdir | rm | mkfifo
  deriving DecidableEq, Inhabited

inductive Entry where
  | file (content : Bytes) (mode : Nat)
  | directory
  | link (target : String)
  /-- A pipe with a name: reading it never ends, for want of a writer. -/
  | pipe
  | tool (tool : Tool)
  deriving DecidableEq, Inhabited

/-- Why the system refuses an operation. -/
inductive FileError where
  | noEntry | badFormat | denied | «exists» | notDirectory | isDirectory | nameTooLong
  | notEmpty | tooManyLinks
  deriving DecidableEq, Inhabited

namespace FileError

def number : FileError → Nat
  | .noEntry => 2
  | .badFormat => 8
  | .denied => 13
  | .exists => 17
  | .notDirectory => 20
  | .isDirectory => 21
  | .nameTooLong => 36
  | .notEmpty => 39
  | .tooManyLinks => 40

def text : FileError → String
  | .noEntry => "No such file or directory"
  | .badFormat => "Exec format error"
  | .denied => "Permission denied"
  | .exists => "File exists"
  | .notDirectory => "Not a directory"
  | .isDirectory => "Is a directory"
  | .nameTooLong => "File name too long"
  | .notEmpty => "Directory not empty"
  | .tooManyLinks => "Too many levels of symbolic links"

end FileError

structure Files where
  entries : List (Location × Entry)
  deriving Inhabited

namespace Files

def get? (fs : Files) (loc : Location) : Option Entry :=
  if loc = [] then some .directory else fs.entries.lookup loc

/-- The entry replaced or added. -/
def put (fs : Files) (loc : Location) (entry : Entry) : Files :=
  ⟨(loc, entry) :: fs.entries.filter (·.1 != loc)⟩

def erase (fs : Files) (loc : Location) : Files := ⟨fs.entries.filter (·.1 != loc)⟩

/-- Without the entry and everything below it. -/
def eraseTree (fs : Files) (loc : Location) : Files :=
  ⟨fs.entries.filter fun e => !(loc.isPrefixOf e.1)⟩

/-- Names of the entries directly in a directory. -/
def children (fs : Files) (loc : Location) : List String :=
  fs.entries.filterMap fun e =>
    if e.1.dropLast = loc ∧ e.1 ≠ [] then e.1.getLast? else none

def isDirectory (fs : Files) (loc : Location) : Bool := fs.get? loc == some .directory

/-- Names longer than this are refused. -/
def nameLimit : Nat := 255

/-- Paths longer than this are refused. -/
def pathLimit : Nat := 4095

/-- How often links are followed in one resolution. -/
def linkLimit : Nat := 40

/-- Components to visit; a slash at the end asks for a directory. -/
def steps (path : String) : List String :=
  let parts := (splitString '/' path).filter (· != "")
  if path.toList.getLast? = some '/' then parts ++ ["."] else parts

def startOf (here : Location) (path : String) : Location :=
  if path.toList.head? = some '/' then [] else here

/-- Visits components from a location. The last one may be missing; it is followed when it is a
link and `follow` is set. -/
def walk (fs : Files) (follow : Bool) (links : Nat) (here : Location) (todo : List String) :
    Except FileError Location :=
  match todo with
  | [] => .ok here
  | name :: rest =>
    if fs.isDirectory here = false then
      .error (if (fs.get? here).isSome then .notDirectory else .noEntry)
    else if name = "." then walk fs follow links here rest
    else if name = ".." then walk fs follow links here.dropLast rest
    else if (Utf8.encodeString name).length > nameLimit then .error .nameTooLong
    else
      let next := here ++ [name]
      match fs.get? next with
      | some (.link target) =>
        if rest.isEmpty ∧ !follow then .ok next
        else match links with
          | 0 => .error .tooManyLinks
          | links + 1 => walk fs follow links (startOf here target) (steps target ++ rest)
      | some _ => walk fs follow links next rest
      | none => if rest.isEmpty then .ok next else .error .noEntry
  termination_by (links, todo.length)

/-- The location that a path names, seen from a directory. -/
def resolve (fs : Files) (here : Location) (follow : Bool) (path : String) :
    Except FileError Location :=
  if path = "" then .error .noEntry
  else if (Utf8.encodeString path).length > pathLimit then .error .nameTooLong
  else walk fs follow linkLimit (startOf here path) (steps path)

/-- The entry at a path, links followed. -/
def stat (fs : Files) (here : Location) (path : String) : Except FileError (Location × Entry) := do
  let loc ← fs.resolve here true path
  match fs.get? loc with
  | some entry => return (loc, entry)
  | none => throw .noEntry

/-- Whether there is a file at a path. That nothing can be there is no failure. -/
def isFile (fs : Files) (here : Location) (path : String) : Except FileError Bool :=
  match fs.stat here path with
  | .ok (_, .file ..) | .ok (_, .tool _) => .ok true
  | .ok _ | .error .noEntry | .error .notDirectory | .error .tooManyLinks => .ok false
  | .error e => .error e

/-- Visits components by their spelling alone. -/
def spell (here : Location) (todo : List String) : Location :=
  todo.foldl (fun here name =>
    if name = "." then here else if name = ".." then here.dropLast else here ++ [name]) here

/-- How many entries are not among some locations. -/
def countOutside (fs : Files) (locs : List Location) : Nat :=
  fs.entries.countP fun e => !locs.contains e.1

theorem countOutside_lt (fs : Files) (locs : List Location) (loc : Location) (h : loc ∉ locs)
    (hne : loc ≠ []) (he : (fs.get? loc).isSome) :
    fs.countOutside (loc :: locs) < fs.countOutside locs := by
  rw [get?, if_neg hne] at he
  unfold countOutside
  generalize fs.entries = entries at he
  induction entries with
  | nil => simp at he
  | cons e rest ih =>
    have more : rest.countP (fun e => !(loc :: locs).contains e.1) ≤
        rest.countP fun e => !locs.contains e.1 :=
      List.countP_mono_left fun e _ => by simp
    rw [List.countP_cons, List.countP_cons]
    by_cases hk : loc = e.1
    · subst hk
      simpa [h] using Nat.lt_succ_of_le more
    · rw [List.lookup_cons, beq_eq_false_iff_ne.mpr hk] at he
      have hmem : (loc :: locs).contains e.1 = locs.contains e.1 := by
        simp only [List.contains_cons, beq_eq_false_iff_ne.mpr (Ne.symm hk), Bool.false_or]
      have hrest := ih he
      rw [hmem]
      omega

/-- Follows all links on the way, whether or not there is anything in the end. A link that comes up
on the way to where it leads goes round in circles; what is left to visit is then only spelled. -/
def follow (fs : Files) (met : List Location) (here : Location) (todo : List String) :
    Location × Bool :=
  match todo with
  | [] => (here, true)
  | name :: rest =>
    if name = "." then follow fs met here rest
    else if name = ".." then follow fs met here.dropLast rest
    else
      match _h : fs.get? (here ++ [name]) with
      | some (.link target) =>
        if _hm : here ++ [name] ∈ met then (spell (here ++ [name]) rest, false)
        else
          match follow fs ((here ++ [name]) :: met) (startOf here target) (steps target) with
          | (loc, true) => follow fs met loc rest
          | (loc, false) => (spell loc rest, false)
      | _ => follow fs met (here ++ [name]) rest
  termination_by (fs.countOutside met, todo.length)
  decreasing_by
    all_goals simp_wf
    all_goals first
      | exact .right _ (by simp)
      | exact .left _ _ (countOutside_lt fs met _ _hm (by simp) (by simp [_h]))

/-- Where a path leads, whether or not there is anything. A path that leads into a circle leads
nowhere, unless it is spelled so that it leaves the circle again. -/
def canonical? (fs : Files) (here : Location) (path : String) : Option Location :=
  match fs.follow [] (startOf here path) (steps path) with
  | (loc, true) => some loc
  | (loc, false) =>
    match fs.resolve [] true loc.path with
    | .error .tooManyLinks => none
    | _ => some loc

/-- Content of the file at a path. A pipe has none to offer. -/
def read (fs : Files) (here : Location) (path : String) : Except FileError Bytes := do
  match (← fs.stat here path).2 with
  | .file content _ => return content
  | .directory => throw .isDirectory
  | .tool _ | .pipe | .link _ => return []

/-- Where a file can be created or overwritten. -/
def writable (fs : Files) (here : Location) (path : String) : Except FileError Location := do
  let loc ← fs.resolve here true path
  match fs.get? loc with
  | some .directory => throw .isDirectory
  | some _ => return loc
  | none =>
    if fs.isDirectory loc.dropLast then return loc
    else throw (if (fs.get? loc.dropLast).isSome then .notDirectory else .noEntry)

/-- The mode of a new file. -/
def usualMode : Nat := 0o644

/-- Overwrites or creates a file; an existing file keeps its mode. -/
def write (fs : Files) (here : Location) (path : String) (content : Bytes) :
    Except FileError Files := do
  let loc ← fs.writable here path
  match fs.get? loc with
  | some (.file _ mode) => return fs.put loc (.file content mode)
  | some _ => return fs
  | none => return fs.put loc (.file content usualMode)

/-- Removes a file, a pipe or a link; not a directory. -/
def unlink (fs : Files) (here : Location) (path : String) : Except FileError Files := do
  let loc ← fs.resolve here false path
  match fs.get? loc with
  | some .directory => throw .isDirectory
  | some _ => return fs.erase loc
  | none => throw .noEntry

/-- Adds an entry at a path that names nothing yet. -/
def add (fs : Files) (here : Location) (path : String) (entry : Entry) :
    Except FileError Files := do
  let loc ← fs.resolve here false path
  if (fs.get? loc).isSome then throw .exists
  else if fs.isDirectory loc.dropLast then return fs.put loc entry
  else throw (if (fs.get? loc.dropLast).isSome then .notDirectory else .noEntry)

/-- Whether any of the three execution bits of a mode is set. -/
def isExecutableMode (mode : Nat) : Bool := mode &&& 0o111 != 0

/-- A directory with all directories above it. -/
def ensureDirectories (fs : Files) (loc : Location) : Files :=
  (List.range loc.length).foldl (fun fs n =>
    let loc := loc.take (n + 1)
    if (fs.get? loc).isSome then fs else fs.put loc .directory) fs

end Files

end Treewire
