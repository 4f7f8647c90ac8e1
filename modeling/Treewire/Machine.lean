import Treewire.Configuration

/-!
# Machines

A machine is what a program finds around it: files, a working directory, and environment variables.
It also gives out names that it never gave out before.
-/

namespace Treewire

structure Machine where
  files : Files
  /-- The working directory. -/
  here : Location
  vars : Configuration.Variables
  /-- The home of the account that runs the program. -/
  ownHome : String
  /-- The homes of the accounts that have a name. -/
  accounts : List (String × String)
  /-- How many names were given out. -/
  serial : Nat
  deriving Inhabited

namespace Machine

def homes (m : Machine) : Homes := ⟨m.vars.lookup "HOME", m.ownHome, m.accounts⟩

/-- A variable set, or unset. -/
def set (m : Machine) (name : String) (value : Option String) : Machine :=
  let others := m.vars.filter (·.1 != name)
  { m with vars := match value with
      | some v => others ++ [(name, v)]
      | none => others }

/-- The path of the working directory. -/
def herePath (m : Machine) : Path := Path.ofString m.here.path

/-- A path as it is seen from the root. -/
def absolute (m : Machine) (p : Path) : Path := m.herePath.join p

/-! ## Directories -/

/-- Makes a directory and all above it, unless it is there. Each round takes a component away. -/
def makeDirectoriesIn (m : Machine) : Nat → Path → Files → Except FileError Files
  | 0, _, _ => .error .noEntry
  | fuel + 1, p, fs =>
    match fs.add m.here p.toString .directory with
    | .ok fs => .ok fs
    | .error .noEntry =>
      if p.parent = p then .error .noEntry
      else do
        let fs ← makeDirectoriesIn m fuel p.parent fs
        fs.add m.here p.toString .directory
    | .error e =>
      match fs.stat m.here p.toString with
      | .ok (_, .directory) => .ok fs
      | _ => .error e

def makeDirectories (m : Machine) (p : Path) (fs : Files) : Except FileError Files :=
  makeDirectoriesIn m (p.parts.length + 1) p fs

/-! ## Fresh names -/

/-- The last `width` hexadecimal digits of a number. -/
def hexText (width n : Nat) : String := String.ofList (Text.hexDigits width n)

/-- Sixteen octets in hexadecimal digits, with marks that say that they were drawn by lot. -/
def nameOf (serial : Nat) : String :=
  hexText 8 0 ++ "-" ++ hexText 4 0 ++ "-4" ++ hexText 3 0 ++ "-8" ++ hexText 3 0 ++ "-" ++
    hexText 12 serial

def freshName (m : Machine) : String × Machine :=
  (nameOf m.serial, { m with serial := m.serial + 1 })

/-! ## Temporary files -/

/-- Components without those that say where one is, and without those that another takes back. -/
def plainParts : List Text → List Text → List Text
  | done, [] => done.reverse
  | done, part :: rest =>
    if part = [.scalar '.', .scalar '.'] then plainParts done.tail rest
    else plainParts (part :: done) rest

/-- A path seen from the root, and as short as it can be told from its spelling. -/
def plain (m : Machine) (p : Path) : Path :=
  let p := m.absolute p
  ⟨p.root, plainParts [] p.parts⟩

/-- Directories that may hold temporary files, best first. -/
def temporaryCandidates (m : Machine) : List String :=
  ["TMPDIR", "TEMP", "TMP"].filterMap (Configuration.value? m.vars) ++
    ["/tmp", "/var/tmp", "/usr/tmp", m.here.path]

/-- The first directory there is for temporary files. -/
def temporaryDirectory? (m : Machine) : Option Path :=
  (m.temporaryCandidates.map fun d => m.plain (Path.ofString d)).find? fun d =>
    match m.files.stat m.here d.toString with
    | .ok (_, .directory) => true
    | _ => false

end Machine

end Treewire
