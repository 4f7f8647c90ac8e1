import Treewire.Shell.Process

/-!
# Tools

The programs besides the shell that a system brings along. Each gets its arguments, the name by which
it was called first, and gives a status.
-/

namespace Treewire.Shell.Tool

/-- A message that starts with the name of the tool. -/
def complain (name : List Char) (message : List Char) : Run Unit :=
  Run.write 2 (name ++ ": ".toList ++ message ++ ['\n'])

/-- Options, which stand before the first operand or two hyphens, and operands. Options among the
operands count too. -/
def split : List (List Char) → List (List Char) × List (List Char)
  | [] => ([], [])
  | word :: rest =>
    if word = ['-', '-'] then ([], rest)
    else
      let (options, operands) := split rest
      match word with
      | '-' :: _ :: _ => (word :: options, operands)
      | _ => (options, word :: operands)

/-- The letters of options. -/
def letters (options : List (List Char)) : List Char := options.flatMap (·.drop 1)

/-- Refuses options that are not known. -/
def refuse (name : List Char) (letter : Char) : Run Nat := do
  complain name ("invalid option -- '".toList ++ [letter, '\''])
  Run.write 2 ("Try '".toList ++ name ++ " --help' for more information.\n".toList)
  return 1

/-- The status after all operands, a failure if any of them fails. -/
def forEach (operands : List (List Char)) (action : List Char → Run Bool) : Run Nat := do
  let outcomes ← operands.mapM action
  return if outcomes.all id then 0 else 1

/-- A path between curved quotes. -/
def curved (path : List Char) : List Char := octets "‘" ++ path ++ octets "’"

def straight (path : List Char) : List Char := '\'' :: path ++ ['\'']

def cat (name : List Char) (arguments : List (List Char)) : Run Nat := do
  let (options, operands) := split arguments
  match (letters options).find? (!"AbeEnstTuv".toList.contains ·) with
  | some letter => refuse name letter
  | none =>
    forEach (if operands.isEmpty then [['-']] else operands) fun path => do
      if path = ['-'] then
        Run.write 1 (← Run.readAll)
        return true
      else if path = Run.nullDevice then return true
      else match ← Run.content path with
        | .ok text =>
          Run.write 1 text
          return true
        | .error e =>
          complain name (path ++ ": ".toList ++ e.text.toList)
          return false

/-- Milliseconds that a word asks for: a number with a unit possibly, of which seconds are the usual
one. -/
def milliseconds? (word : List Char) : Option Nat :=
  let (factor, number) := match word.getLast? with
    | some 's' => (1000, word.dropLast)
    | some 'm' => (60000, word.dropLast)
    | some 'h' => (3600000, word.dropLast)
    | some 'd' => (86400000, word.dropLast)
    | _ => (1000, word)
  let whole := number.takeWhile Char.isDigit
  let fraction := (number.drop (whole.length + 1)).takeWhile Char.isDigit
  let isNumber := match number.drop whole.length with
    | [] => whole != []
    | c :: rest => c = '.' && rest.length = fraction.length && (whole ++ fraction) != []
  if isNumber then
    some (valueIn 10 (whole ++ fraction) * factor / Nat.pow 10 fraction.length)
  else none

def sleep (name : List Char) (arguments : List (List Char)) : Run Nat := do
  if arguments.isEmpty then
    complain name "missing operand".toList
    Run.write 2 ("Try '".toList ++ name ++ " --help' for more information.\n".toList)
    return 1
  else
    match arguments.find? (milliseconds? · |>.isNone) with
    | some word =>
      complain name ("invalid time interval ".toList ++ curved word)
      Run.write 2 ("Try '".toList ++ name ++ " --help' for more information.\n".toList)
      return 1
    | none =>
      Run.wait ((arguments.filterMap milliseconds?).foldl (· + ·) 0)
      return 0

/-- All directories on the way to a path, and the path itself. -/
def makeAll (path : List Char) : Run (Except FileError Unit) := do
  match ← Run.ask fun fs here => fs.resolve here true (spelled path) with
  | .ok loc =>
    match (← get).world.files.get? loc with
    | some .directory => return .ok ()
    | some _ => return .error .exists
    | none => Run.change fun fs _ => .ok (fs.ensureDirectories loc)
  | .error .noEntry =>
    let p ← get
    match p.world.files.canonical? p.here (spelled path) with
    | some loc => Run.change fun fs _ => .ok (fs.ensureDirectories loc)
    | none => return .error .tooManyLinks
  | .error e => return .error e

def mkdir (name : List Char) (arguments : List (List Char)) : Run Nat := do
  let (options, operands) := split arguments
  match (letters options).find? (· != 'p') with
  | some letter => refuse name letter
  | none =>
    forEach operands fun path => do
      let outcome ← if options.isEmpty then
          Run.change fun fs here => fs.add here (spelled path) .directory
        else makeAll path
      match outcome with
      | .ok () => return true
      | .error e =>
        complain name ("cannot create directory ".toList ++ curved path ++ ": ".toList ++
          e.text.toList)
        return false

def rm (name : List Char) (arguments : List (List Char)) : Run Nat := do
  let (options, operands) := split arguments
  let flags := letters options
  match flags.find? (!"rRfdiIv".toList.contains ·) with
  | some letter => refuse name letter
  | none =>
    let tree := flags.contains 'r' || flags.contains 'R'
    forEach operands fun path => do
      let outcome ← Run.change fun fs here => do
        let loc ← fs.resolve here false (spelled path)
        match fs.get? loc with
        | none => throw .noEntry
        | some .directory => if tree then return fs.eraseTree loc else throw .isDirectory
        | some _ => return fs.erase loc
      match outcome with
      | .ok () => return true
      | .error .noEntry =>
        if flags.contains 'f' then return true
        else
          complain name ("cannot remove ".toList ++ straight path ++ ": ".toList ++
            FileError.noEntry.text.toList)
          return false
      | .error e =>
        complain name ("cannot remove ".toList ++ straight path ++ ": ".toList ++ e.text.toList)
        return false

def mkfifo (name : List Char) (arguments : List (List Char)) : Run Nat := do
  let (_, operands) := split arguments
  forEach operands fun path => do
    match ← Run.change fun fs here => fs.add here (spelled path) .pipe with
    | .ok () => return true
    | .error e =>
      complain name ("cannot create fifo ".toList ++ straight path ++ ": ".toList ++ e.text.toList)
      return false

/-- Runs a tool other than the shell. -/
def run (tool : Treewire.Tool) (name : List Char) (arguments : List (List Char)) : Run Nat :=
  match tool with
  | .cat => cat name arguments
  | .sleep => sleep name arguments
  | .mkdir => mkdir name arguments
  | .rm => rm name arguments
  | .mkfifo => mkfifo name arguments
  | .shell => return 0

end Treewire.Shell.Tool
