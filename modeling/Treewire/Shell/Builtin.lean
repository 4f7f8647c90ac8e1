import Treewire.Shell.Executable

/-!
# Commands that the shell carries out itself

Each gets its arguments and gives a status. Commands that run other commands are with the evaluation.
-/

namespace Treewire.Shell.Builtin

/-- A complaint of a command, which fails. -/
def fail (message : List Char) : Run Nat := do
  Run.complain message
  return 2

def echo (arguments : List (List Char)) : Run Nat := do
  Run.write 1 (echoText arguments)
  return 0

def printf (arguments : List (List Char)) : Run Nat := do
  match arguments with
  | ['-', '-'] :: format :: arguments => emit format arguments
  | ['-'] :: arguments => emit ['-'] arguments
  | ('-' :: letter :: _) :: _ =>
    if letter = '-' then fail "usage: printf format [arg ...]".toList
    else fail ("Illegal option -".toList ++ [letter])
  | format :: arguments => emit format arguments
  | [] => fail "usage: printf format [arg ...]".toList
where
  emit (format : List Char) (arguments : List (List Char)) : Run Nat := do
    let printed := printfText format arguments
    for complaint in printed.complaints do
      Run.complain complaint
    Run.write 1 printed.text
    match printed.fault with
    | some fault => fail fault
    | none => return if printed.complaints.isEmpty then 0 else 1

def test (arguments : List (List Char)) : Run Nat := do
  match Test.evaluate (Run.has (← get)) arguments with
  | .ok true => return 0
  | .ok false => return 1
  | .error message => fail message

/-- A test that ends with a closing bracket. -/
def bracket (arguments : List (List Char)) : Run Nat :=
  if arguments.getLast? = some [']'] then test arguments.dropLast
  else fail "missing ]".toList

/-! ## Signals -/

def signalNames : List String :=
  ["HUP", "INT", "QUIT", "ILL", "TRAP", "ABRT", "BUS", "FPE", "KILL", "USR1", "SEGV", "USR2",
    "PIPE", "ALRM", "TERM", "STKFLT", "CHLD", "CONT", "STOP", "TSTP", "TTIN", "TTOU", "URG", "XCPU",
    "XFSZ", "VTALRM", "PROF", "WINCH", "IO", "PWR", "SYS"]

/-- Signals that are ignored if nothing else is asked for. -/
def ignored : List Nat := [17, 18, 23, 28]

/-- Signals that stop a program without ending it. -/
def stopping : List Nat := [19, 20, 21, 22]

/-- The number of a signal, by number or name. -/
def signalNumber? (word : List Char) : Option Nat :=
  if word != [] && word.all Char.isDigit then
    let n := valueIn 10 word
    if n ≤ 64 then some n else none
  else
    let name := (String.ofList word).toUpper
    let index := signalNames.findIdx (· = name)
    if index < signalNames.length then some (index + 1)
    else if name = "EXIT" then some 0
    else none

/-- Sends a signal to the process itself. -/
def receive (signal : Nat) : Run Nat := do
  if h : 0 < signal ∧ signal ≤ 64 then
    if ignored.contains signal then return 0
    else if stopping.contains signal then throw .late
    else throw (.killed ⟨signal - 1, by omega⟩)
  else return 0

def send (signal : Nat) (targets : List (List Char)) : Run Nat := do
  let own := (toString (← get).number).toList
  let statuses ← targets.mapM fun target => do
    if target = own then receive signal
    else
      Run.complain "No such process".toList
      pure 1
  return if statuses.all (· = 0) then 0 else 1

def kill (arguments : List (List Char)) : Run Nat := do
  let usage : Run Nat := fail "Usage: kill [-s sigspec | -signum | -sigspec] [pid | job]... or\nkill -l [exitstatus]".toList
  let withSignal (word : List Char) (targets : List (List Char)) : Run Nat := do
    match signalNumber? word with
    | none => fail ("invalid signal number or name: ".toList ++ word)
    | some signal => if targets.isEmpty then usage else send signal targets
  match arguments with
  | [] => usage
  | ['-', 's'] :: word :: targets => withSignal word targets
  | ['-', '-'] :: targets => if targets.isEmpty then usage else send 15 targets
  | ('-' :: letter :: word) :: targets =>
    if (signalNumber? (letter :: word)).isSome then withSignal (letter :: word) targets
    else fail ("Illegal option -".toList ++ [letter])
  | targets => send 15 targets

/-! ## Variables and arguments -/

/-- A word as an assignment, if it is one. -/
def assignmentOf (word : List Char) : List Char × Option (List Char) :=
  let name := word.takeWhile (· != '=')
  match word.drop name.length with
  | _ :: value => (name, some value)
  | [] => (name, none)

def assign (mark : Bool) (arguments : List (List Char)) : Run Nat := do
  for word in arguments do
    let (name, value) := assignmentOf word
    modify fun p =>
      let p := match value with
        | some value => p.setVariable name value
        | none => p
      if mark && !p.exported.contains name then { p with exported := name :: p.exported } else p
  return 0

def unset (arguments : List (List Char)) : Run Nat := do
  for word in arguments do
    if word.head? != some '-' then
      modify fun p => { p.unsetVariable word with
        functions := if arguments.head? = some ['-', 'f'] then
            p.functions.filter (·.1 != word) else p.functions }
  return 0

/-- A number that an argument gives. -/
def count? (word : List Char) : Option Nat :=
  if word != [] && word.all Char.isDigit then some (valueIn 10 word) else none

def shift (arguments : List (List Char)) : Run Nat := do
  let p ← get
  match (arguments.head?.map count?).getD (some 1) with
  | none => fail ("Illegal number: ".toList ++ arguments.head?.getD [])
  | some n =>
    if p.arguments.length < n then fail "can't shift that many".toList
    else
      set { p with arguments := p.arguments.drop n }
      return 0

/-- Sets options and arguments. -/
def setOptions (arguments : List (List Char)) : Run Nat := do
  match arguments with
  | [] => return 0
  | ['-', '-'] :: rest =>
    modify fun p => { p with arguments := rest }
    return 0
  | ('-' :: letters) :: rest =>
    modify fun p => { p with exitsOnFailure := p.exitsOnFailure || letters.contains 'e' }
    if rest.isEmpty then return 0 else setRest rest
  | ('+' :: letters) :: rest =>
    modify fun p => { p with exitsOnFailure := p.exitsOnFailure && !letters.contains 'e' }
    if rest.isEmpty then return 0 else setRest rest
  | rest => setRest rest
where
  setRest (rest : List (List Char)) : Run Nat := do
    let rest := if rest.head? = some ['-', '-'] then rest.drop 1 else rest
    modify fun p => { p with arguments := rest }
    return 0

def cd (arguments : List (List Char)) : Run Nat := do
  let p ← get
  let arguments := arguments.filter fun a => a != ['-', 'P'] && a != ['-', 'L']
  let target := match arguments with
    | ['-'] :: _ => p.vars.lookup "OLDPWD".toList
    | path :: _ => some path
    | [] => p.vars.lookup "HOME".toList
  match target with
  | none => return 0
  | some path =>
    let path := if path = [] then ['.'] else path
    match p.world.files.stat p.here (spelled path) with
    | .ok (loc, .directory) =>
      let old := octets p.here.path
      modify fun p => { (p.setVariable "OLDPWD".toList old).setVariable "PWD".toList
        (octets loc.path) with here := loc }
      return 0
    | _ => fail ("can't cd to ".toList ++ path)

def pwd : Run Nat := do
  Run.write 1 (octets (← get).here.path ++ ['\n'])
  return 0

/-! ## Reading -/

/-- The symbols that separate fields. -/
def separators (p : Process) : List Char := (p.vars.lookup "IFS".toList).getD [' ', '\t', '\n']

/-- A line cut into as many fields as there are names; the last one gets the rest. -/
def fields (isSeparator : Char → Bool) : List (List Char) → List Char →
    List (List Char × List Char)
  | [], _ => []
  | [name], line =>
    let line := line.dropWhile isSeparator
    [(name, (line.reverse.dropWhile isSeparator).reverse)]
  | name :: names, line =>
    let line := line.dropWhile isSeparator
    let field := line.takeWhile (!isSeparator ·)
    (name, field) :: fields isSeparator names (line.drop (field.length + 1))

/-- A line with its backslashes taken away. -/
def plainLine : List Char → List Char
  | [] => []
  | '\\' :: c :: rest => c :: plainLine rest
  | '\\' :: rest => plainLine rest
  | c :: rest => c :: plainLine rest

def read (arguments : List (List Char)) : Run Nat := do
  let raw := arguments.contains ['-', 'r']
  let names := arguments.filter (·.head? != some '-')
  if names.isEmpty then fail "arg count".toList
  else
    let (line, isWhole) ← Run.readLine
    let line := if raw then line else plainLine line
    let separators := separators (← get)
    let isSeparator (c : Char) : Bool := separators.contains c
    for (name, value) in fields isSeparator names line do
      modify (·.setVariable name value)
    return if isWhole then 0 else 1

/-! ## All of them -/

/-- The commands after whose failure a script does not go on. -/
def isSpecial (name : String) : Bool :=
  [":", ".", "eval", "exec", "exit", "export", "readonly", "return", "set", "shift", "times", "trap",
    "unset", "break", "continue"].contains name

/-- Commands that have no effect here. -/
def isIdle (name : String) : Bool :=
  [":", "true", "trap", "wait", "umask", "ulimit", "times", "hash", "alias", "unalias", "jobs", "bg",
    "fg", "getopts"].contains name

/-- Commands that change the flow of a script. -/
def leave (name : String) (arguments : List (List Char)) : Run Nat := do
  let p ← get
  let leaveLoops (stop : Stop) : Run Nat := if p.loops = 0 then return 0 else throw stop
  match arguments.head? with
  | none =>
    match name with
    | "exit" => throw .ended
    | "return" => throw .returned
    | "break" => leaveLoops (.broken 1)
    | _ => leaveLoops (.continued 1)
  | some word =>
    match count? word with
    | none => fail ("Illegal number: ".toList ++ word)
    | some n =>
      match name with
      | "exit" => Run.exit n
      | "return" =>
        set { p with status := n % 256 }
        throw .returned
      | "break" => leaveLoops (.broken n)
      | _ => leaveLoops (.continued n)

/-- The command of a name, if the shell carries it out without running others. -/
def find? (name : String) : Option (List (List Char) → Run Nat) :=
  match name with
  | "echo" => some echo
  | "printf" => some printf
  | "test" => some test
  | "[" => some bracket
  | "kill" => some kill
  | "export" => some fun arguments => assign true (arguments.filter (· != ['-', 'p']))
  | "readonly" | "local" => some (assign false)
  | "unset" => some unset
  | "shift" => some shift
  | "set" => some setOptions
  | "cd" => some cd
  | "pwd" => some fun _ => pwd
  | "read" => some read
  | "false" => some fun _ => return 1
  | "exit" | "return" | "break" | "continue" => some (leave name)
  | _ => if isIdle name then some fun _ => return 0 else none

end Treewire.Shell.Builtin
