import Treewire.Shell.Arithmetic
import Treewire.Shell.Expansion
import Treewire.Shell.Grammar
import Treewire.Shell.Tool

/-!
# Running scripts

Commands run one after the other on a process. Fuel is how deep the evaluation may go, rounds of a
loop counted; a script that needs more takes too long.
-/

namespace Treewire.Shell

namespace Run

/-- An act in a process of its own, of which only the status and what is shared comes back. -/
def isolated (act : Run Unit) : Run Unit := fun p =>
  let (outcome, child) := act p
  let p := { p with world := child.world }
  match outcome with
  | .error (.killed signal) => (.error (.killed signal), p)
  | .error .late => (.error .late, p)
  | _ => (.ok (), { p with status := child.status })

/-- Ends the process if it ends on failures, and if there was one that nobody looks at. -/
def check (tested : Bool) : Run Unit := do
  let p ← get
  if p.exitsOnFailure && p.status ≠ 0 && !tested then throw .ended

/-- The texts that say which signal ended a program. -/
def signalText (signal : Signal) : Option String :=
  match signal.number with
  | 1 => some "Hangup"
  | 3 => some "Quit"
  | 4 => some "Illegal instruction"
  | 6 => some "Aborted"
  | 8 => some "Floating point exception"
  | 9 => some "Killed"
  | 10 => some "User defined signal 1"
  | 11 => some "Segmentation fault"
  | 12 => some "User defined signal 2"
  | 14 => some "Alarm clock"
  | 15 => some "Terminated"
  | _ => none

/-- Complains that a command cannot be executed, and gives its status. -/
def refuse (name : List Char) (e : FileError) : Run Nat := do
  let isAbsent := e = .noEntry || e = .notDirectory
  complain (name ++ ": ".toList ++
    (if isAbsent then "not found" else e.text).toList)
  return if isAbsent then 127 else 126

end Run

/-- What the words before the script ask of the shell. -/
structure Options where
  /-- Whether the script is given as a word. -/
  isInline : Bool := false
  exitsOnFailure : Bool := false
  fromInput : Bool := false
  rest : List (List Char) := []
  /-- A letter that is not known. -/
  illegal : Option Char := none
  deriving Inhabited

namespace Options

def addLetters (o : Options) (value : Bool) (letters : List Char) : Options :=
  letters.foldl (fun o c =>
    match c with
    | 'c' => { o with isInline := true }
    | 'e' => { o with exitsOnFailure := value }
    | 's' => { o with fromInput := value }
    | c =>
      if "aCfhimnuvxbVEIlo".toList.contains c then o
      else { o with illegal := o.illegal.or (some c) }) o

def read (o : Options) : List (List Char) → Options
  | [] => o
  | ['-'] :: rest | ['-', '-'] :: rest => { o with rest := rest }
  | ('-' :: letters) :: rest => (o.addLetters true letters).read rest
  | ('+' :: letters) :: rest => (o.addLetters false letters).read rest
  | words => { o with rest := words }

end Options

/-- Symbols that are not at the end of a line. -/
def withoutLastBreaks (cs : List Char) : List Char := (cs.reverse.dropWhile (· = '\n')).reverse

/-- Where `.` finds a file. -/
def sourcePath (p : Process) (name : List Char) : List Char :=
  if name.contains '/' then name
  else
    let places := ((p.path?.map Executable.directories).getD []).map (Executable.inDirectory · name)
    (places.find? fun path => Run.has p .regular path).getD name

/-- Says where a command is, if there is one. -/
def Run.locate (word : List Char) : Run Nat := do
  let p ← get
  let known := String.ofList word
  if (Builtin.find? known).isSome || Builtin.isSpecial known || keywords.contains known ||
      (p.functions.lookup word).isSome then
    Run.write 1 (word ++ ['\n'])
    return 0
  else
    let places := if word.contains '/' then [word]
      else ((p.path?.map Executable.directories).getD Executable.usualDirectories).map
        (Executable.inDirectory · word)
    match places.find? fun path => Run.has p .regular path && Run.has p .executable path with
    | some path =>
      Run.write 1 (path ++ ['\n'])
      return 0
    | none => return 127

namespace Evaluation

mutual

def glyphs (fuel : Nat) (pieces : List Piece) : Run (List Glyph) :=
  match fuel with
  | 0 => throw .late
  | fuel + 1 => do
    match pieces with
    | [] => return []
    | piece :: rest =>
      let first ← pieceGlyphs fuel piece
      return first ++ (← glyphs fuel rest)
  termination_by structural fuel

def pieceGlyphs (fuel : Nat) (piece : Piece) : Run (List Glyph) :=
  match fuel with
  | 0 => throw .late
  | fuel + 1 => do
    match piece with
    | .literal cs quoted => return if quoted then Glyph.ofQuoted cs else Glyph.ofScript cs
    | .output body quoted =>
      let text ← output fuel body
      return if quoted then Glyph.ofQuoted text else Glyph.ofValue text
    | .arithmetic expression quoted =>
      let text := Glyph.text (← glyphs fuel expression)
      let p ← get
      match Arithmetic.evaluate p.numberIn text with
      | .ok n =>
        let digits := (toString n).toList
        return if quoted then Glyph.ofQuoted digits else Glyph.ofValue digits
      | .error fault =>
        Run.complain ("arithmetic expression: ".toList ++ fault.message.toList ++ ": \"".toList ++
          text ++ ['"'])
        Run.exit 2
    | .parameter name use orEmpty word quoted =>
      let p ← get
      let value := p.parameter? name
      let isMissing := value.isNone || (orEmpty && value = some [])
      let put (cs : List Char) : List Glyph := if quoted then Glyph.ofQuoted cs else Glyph.ofValue cs
      let own := p.parameterGlyphs name quoted
      match use with
      | .unknown =>
        Run.complain "Bad substitution".toList
        Run.exit 2
      | .value => return own
      | .length => return put (toString (value.getD []).length).toList
      | .otherwise => if isMissing then glyphs fuel word else return own
      | .instead => if isMissing then return put [] else glyphs fuel word
      | .assign =>
        if isMissing then
          let text := Glyph.text (← glyphs fuel word)
          modify (·.setVariable name text)
          return put text
        else return own
      | .demand =>
        if isMissing then
          let text := Glyph.text (← glyphs fuel word)
          let reason := if text = [] then
              (if orEmpty then "parameter not set or null" else "parameter not set").toList
            else text
          Run.complain (name ++ ": ".toList ++ reason)
          Run.exit 2
        else return own
      | .cutFront longest =>
        let pattern := Glyph.pattern (← glyphs fuel word)
        let text := value.getD []
        return put (text.drop ((Pattern.front? pattern longest text).getD 0))
      | .cutBack longest =>
        let pattern := Glyph.pattern (← glyphs fuel word)
        let text := value.getD []
        return put (text.take (text.length - (Pattern.back? pattern longest text).getD 0))
  termination_by structural fuel

/-- What commands write, without the line ends that come last. -/
def output (fuel : Nat) (body : List Command) : Run (List Char) :=
  match fuel with
  | 0 => throw .late
  | fuel + 1 => do
    let p ← get
    let (n, world) := p.world.addBuffer []
    set { p with world := world, status := 0 }
    Run.isolated do
      modify (·.setDescriptor 1 (.buffer n))
      runAll fuel false body
    let text := ((← get).world.buffers[n]?).getD []
    return withoutLastBreaks (text.filter (· != Char.ofNat 0))
  termination_by structural fuel

/-- A word as it stands in a list of words, with the home directory for a tilde. -/
def wordGlyphs (fuel : Nat) (word : List Piece) : Run (List Glyph) :=
  match fuel with
  | 0 => throw .late
  | fuel + 1 => do
    match word with
    | .literal ['~'] false :: rest =>
      let isHome := match rest with
        | [] | .literal ['/'] false :: _ => true
        | _ => false
      match isHome, (← get).vars.lookup "HOME".toList with
      | true, some home => return Glyph.ofQuoted home ++ (← glyphs fuel rest)
      | _, _ => glyphs fuel word
    | _ => glyphs fuel word
  termination_by structural fuel

/-- A word that is not split. -/
def text (fuel : Nat) (word : List Piece) : Run (List Char) :=
  match fuel with
  | 0 => throw .late
  | fuel + 1 => do return Glyph.text (← wordGlyphs fuel word)
  termination_by structural fuel

/-- The fields of words. -/
def fields (fuel : Nat) (words : List (List Piece)) : Run (List (List Char)) :=
  match fuel with
  | 0 => throw .late
  | fuel + 1 => do
    match words with
    | [] => return []
    | word :: rest =>
      let glyphs ← wordGlyphs fuel word
      let first := Glyph.fields (Builtin.separators (← get)) none glyphs
      return first ++ (← fields fuel rest)
  termination_by structural fuel

/-- Opens what redirections ask for, up to the first that fails. -/
def redirect (fuel : Nat) (redirects : List Redirect) : Run Bool :=
  match fuel with
  | 0 => throw .late
  | fuel + 1 => do
    match redirects with
    | [] => return true
    | .file descriptor mode target :: rest =>
      let path ← text fuel target
      match ← Run.openFile mode path with
      | .ok channel =>
        modify (·.setDescriptor descriptor channel)
        redirect fuel rest
      | .error e =>
        Run.complain (Run.openComplaint mode path e)
        return false
    | .duplicate descriptor target :: rest =>
      let source ← text fuel target
      let p ← get
      if source = ['-'] then
        set (p.setDescriptor descriptor .nowhere)
        redirect fuel rest
      else match (Builtin.count? source).bind fun n => p.descriptors.lookup n with
        | some channel =>
          set (p.setDescriptor descriptor channel)
          redirect fuel rest
        | none =>
          Run.complain (source ++ ": Bad file descriptor".toList)
          return false
    | .document descriptor content :: rest =>
      let content := Glyph.text (← glyphs fuel content)
      let p ← get
      let (n, world) := p.world.addBuffer content
      set { p.setDescriptor descriptor (.buffer n) with world := world }
      redirect fuel rest
  termination_by structural fuel

/-- Runs commands in order. -/
def runAll (fuel : Nat) (tested : Bool) (commands : List Command) : Run Unit :=
  match fuel with
  | 0 => throw .late
  | fuel + 1 => do
    match commands with
    | [] => return
    | command :: rest =>
      run fuel tested command
      runAll fuel tested rest
  termination_by structural fuel

/-- Runs a command. With `tested`, somebody looks whether it fails. -/
def run (fuel : Nat) (tested : Bool) (command : Command) : Run Unit :=
  match fuel with
  | 0 => throw .late
  | fuel + 1 => do
    match command with
    | .simple line assignments words redirects =>
      modify fun p => { p with line := line }
      simple fuel assignments words redirects
      Run.check tested
    | .joined connective first second =>
      run fuel true first
      let succeeded := (← get).status = 0
      if succeeded = (connective == .and) then run fuel tested second
    | .negated command =>
      run fuel true command
      let p ← get
      Run.setStatus (if p.status = 0 then 1 else 0)
    | .pipeline commands =>
      stages fuel ((← get).channel 0) commands
      Run.check tested
    | .sequence commands => runAll fuel tested commands
    | .redirected line command redirects =>
      let saved := (← get).descriptors
      modify fun p => { p with line := line }
      Run.afterwards (fun p => { p with descriptors := saved }) do
        if ← redirect fuel redirects then run fuel tested command
        else Run.setStatus 2
    | .subshell command =>
      Run.isolated (run fuel tested command)
      Run.check tested
    | .conditional condition yes no =>
      run fuel true condition
      if (← get).status = 0 then run fuel tested yes
      else
        Run.setStatus 0
        run fuel tested no
    | .loop negated condition body => loop fuel tested negated condition body 0
    | .each line name words body =>
      modify fun p => { p with line := line }
      let values ← match words with
        | some words => fields fuel words
        | none => pure (← get).arguments
      Run.setStatus 0
      each fuel tested name values body
    | .choice line word clauses =>
      modify fun p => { p with line := line }
      let value ← text fuel word
      Run.setStatus 0
      choose fuel tested value clauses
    | .define name body =>
      modify fun p => { p with functions := (name, body) :: p.functions.filter (·.1 != name) }
      Run.setStatus 0
  termination_by structural fuel

/-- Runs the commands of a pipeline, each reading what the one before it wrote. -/
def stages (fuel : Nat) (input : Channel) (commands : List Command) : Run Unit :=
  match fuel with
  | 0 => throw .late
  | fuel + 1 => do
    match commands with
    | [] => return
    | [command] => Run.isolated do
        modify (·.setDescriptor 0 input)
        run fuel false command
    | command :: rest =>
      let p ← get
      let (n, world) := p.world.addBuffer []
      set { p with world := world }
      Run.isolated do
        modify fun p => (p.setDescriptor 0 input).setDescriptor 1 (.buffer n)
        run fuel false command
      stages fuel (.buffer n) rest
  termination_by structural fuel

/-- Runs the body of a loop. The answer is whether to go on with it. -/
def round (fuel : Nat) (tested : Bool) (body : Command) : Run Bool :=
  match fuel with
  | 0 => throw .late
  | fuel + 1 => do
    let outer := (← get).loops
    modify fun p => { p with loops := outer + 1 }
    Run.afterwards (fun p => { p with loops := outer }) <|
      tryCatch (do run fuel tested body; return true) fun
      | .broken n => if n ≤ 1 then return false else throw (.broken (n - 1))
      | .continued n => if n ≤ 1 then return true else throw (.continued (n - 1))
      | stop => throw stop
  termination_by structural fuel

def loop (fuel : Nat) (tested negated : Bool) (condition body : Command) (last : Nat) :
    Run Unit :=
  match fuel with
  | 0 => throw .late
  | fuel + 1 => do
    run fuel true condition
    let succeeded := (← get).status = 0
    if succeeded != negated then
      if ← round fuel tested body then
        let p ← get
        loop fuel tested negated condition body p.status
    else Run.setStatus last
  termination_by structural fuel

def each (fuel : Nat) (tested : Bool) (name : List Char) (values : List (List Char))
    (body : Command) : Run Unit :=
  match fuel with
  | 0 => throw .late
  | fuel + 1 => do
    match values with
    | [] => return
    | value :: rest =>
      modify (·.setVariable name value)
      if ← round fuel tested body then each fuel tested name rest body
  termination_by structural fuel

def choose (fuel : Nat) (tested : Bool) (value : List Char)
    (clauses : List (List (List Piece) × Command)) : Run Unit :=
  match fuel with
  | 0 => throw .late
  | fuel + 1 => do
    match clauses with
    | [] => return
    | (patterns, body) :: rest =>
      if ← fits fuel value patterns then run fuel tested body
      else choose fuel tested value rest
  termination_by structural fuel

/-- Whether one of some patterns matches. -/
def fits (fuel : Nat) (value : List Char) (patterns : List (List Piece)) : Run Bool :=
  match fuel with
  | 0 => throw .late
  | fuel + 1 => do
    match patterns with
    | [] => return false
    | pattern :: rest =>
      let glyphs ← wordGlyphs fuel pattern
      if Pattern.matchesAll (Glyph.pattern glyphs) value then return true
      else fits fuel value rest
  termination_by structural fuel

/-- Sets variables, and hands them on if asked to. -/
def assignAll (fuel : Nat) (handOn : Bool) (assignments : List (List Char × List Piece)) :
    Run Unit :=
  match fuel with
  | 0 => throw .late
  | fuel + 1 => do
    match assignments with
    | [] => return
    | (name, word) :: rest =>
      let value ← text fuel word
      modify fun p =>
        let p := p.setVariable name value
        if handOn then { p with exported := name :: p.exported } else p
      assignAll fuel handOn rest
  termination_by structural fuel

def simple (fuel : Nat) (assignments : List (List Char × List Piece))
    (words : List (List Piece)) (redirects : List Redirect) : Run Unit :=
  match fuel with
  | 0 => throw .late
  | fuel + 1 => do
    let before ← get
    if words.isEmpty then Run.setStatus 0
    let list ← fields fuel words
    let saved := (← get).descriptors
    let name := list.head?.getD []
    let isSpecial := Builtin.isSpecial (String.ofList name)
    if !(← redirect fuel redirects) then
      modify fun p => { p with descriptors := saved }
      if isSpecial then Run.exit 2 else Run.setStatus 2
    else if list.isEmpty then
      Run.afterwards (fun p => { p with descriptors := saved }) (assignAll fuel false assignments)
    else if name = "exec".toList then
      assignAll fuel true assignments
      replace fuel (list.drop 1)
    else
      assignAll fuel true assignments
      let mend (p : Process) : Process :=
        if isSpecial || assignments.isEmpty then { p with descriptors := saved }
        else { p with
          descriptors := saved
          vars := before.vars
          exported := before.exported }
      Run.afterwards mend (call fuel false list before.status)
  termination_by structural fuel

/-- Runs a command by its name. -/
def call (fuel : Nat) (skipFunctions : Bool) (words : List (List Char)) (status : Nat) : Run Unit :=
  match fuel with
  | 0 => throw .late
  | fuel + 1 => do
    let name := words.head?.getD []
    let arguments := words.drop 1
    let p ← get
    let isSpecial := Builtin.isSpecial (String.ofList name)
    match if isSpecial || skipFunctions then none else p.functions.lookup name with
    | some body =>
      Run.afterwards (fun q => { q with arguments := p.arguments }) do
        set { p with arguments := arguments }
        tryCatch (run fuel false body) fun
          | .returned => return
          | stop => throw stop
    | none =>
      match String.ofList name with
      | "eval" => Run.speaking name (source fuel (Program.read (spaced arguments)))
      | "." =>
        match arguments with
        | [] => return
        | file :: _ =>
          let path := sourcePath p file
          match ← Run.content path with
          | .ok content =>
            Run.speaking path <| tryCatch (source fuel (Program.read content)) fun
              | .returned => return
              | stop => throw stop
          | .error e =>
            Run.speaking name (Run.complain (Run.openComplaint .read file e))
            Run.exit 2
      | "command" =>
        match arguments with
        | ['-', 'v'] :: word :: _ => Run.setStatus (← Run.locate word)
        | [] => Run.setStatus 0
        | _ => call fuel true (arguments.filter (· != ['-', 'p'])) status
      | known =>
        match Builtin.find? known with
        | some command =>
          Run.setStatus status
          let status ← Run.speaking name (command arguments)
          if isSpecial && status ≠ 0 then Run.exit status
          else Run.setStatus status
        | none =>
          match Executable.resolve p.world.files p.here p.path? words with
          | .ok (tool, words) => Run.setStatus (← launch fuel false tool words)
          | .error .badFormat => Run.setStatus (← launch fuel false .shell (name :: words))
          | .error e => Run.setStatus (← Run.refuse name e)
  termination_by structural fuel

/-- Lets another program take the place of the process. -/
def replace (fuel : Nat) (words : List (List Char)) : Run Unit :=
  match fuel with
  | 0 => throw .late
  | fuel + 1 => do
    if words.isEmpty then Run.setStatus 0
    else
      let p ← get
      let name := words.head?.getD []
      let status ← match Executable.resolve p.world.files p.here p.path? words with
        | .ok (tool, words) => launch fuel true tool words
        | .error .badFormat => launch fuel true .shell (name :: words)
        | .error e => Run.speaking "exec".toList (Run.refuse name e)
      Run.exit status
  termination_by structural fuel

/-- Runs a program, as a process of its own or in place of the present one, and gives its status. -/
def launch (fuel : Nat) (replaces : Bool) (tool : Tool) (words : List (List Char)) : Run Nat :=
  match fuel with
  | 0 => throw .late
  | fuel + 1 => do
    match tool with
    | .shell =>
      let p ← get
      let child : Process := { p with
        vars := p.environment
        exported := p.environment.map (·.1)
        functions := []
        number := if replaces then p.number else p.number + 1
        status := 0
        line := 0
        exitsOnFailure := false
        speaker := []
        loops := 0 }
      let (outcome, child) := (shell fuel words).run child
      set { p with world := child.world }
      match outcome with
      | .error .late => throw .late
      | .error (.killed signal) =>
        if replaces then throw (.killed signal)
        else
          match Run.signalText signal with
          | some message => Run.write 2 (message.toList ++ ['\n'])
          | none => pure ()
          return 128 + signal.number
      | _ => return child.status
    | _ => Tool.run tool (words.head?.getD []) (words.drop 1)
  termination_by structural fuel

/-- Runs a script in the present process, up to a fault in it. -/
def source (fuel : Nat) (program : Program) : Run Unit :=
  match fuel with
  | 0 => throw .late
  | fuel + 1 => do
    Run.setStatus 0
    runAll fuel false program.commands
    match program.fault with
    | none => return
    | some (line, message) =>
      modify fun p => { p with line := line }
      Run.complain message.toList
      Run.exit 2
  termination_by structural fuel

/-- Runs the shell itself, whose words are its own name, options, a script, and arguments. -/
def shell (fuel : Nat) (words : List (List Char)) : Run Unit :=
  match fuel with
  | 0 => throw .late
  | fuel + 1 => do
    let own := words.head?.getD []
    let options := Options.read {} (words.drop 1)
    modify fun p => { p with
      name := own
      arguments := options.rest
      exitsOnFailure := options.exitsOnFailure }
    modify fun p => p.setVariable "PWD".toList (octets p.here.path)
    match options.illegal with
    | some letter =>
      Run.complain ("Illegal option -".toList ++ [letter])
      Run.exit 2
    | none =>
      match options.isInline, options.rest with
      | true, [] =>
        Run.complain "-c requires an argument".toList
        Run.exit 2
      | true, script :: rest =>
        modify fun p => { p with name := rest.head?.getD own, arguments := rest.drop 1 }
        source fuel (Program.read script)
      | false, file :: rest =>
        if options.fromInput then source fuel (Program.read (← Run.readAll))
        else match ← Run.content file with
          | .ok content =>
            modify fun p => { p with name := file, arguments := rest }
            source fuel (Program.read content)
          | .error .isDirectory => return
          | .error e =>
            Run.complain (Run.openComplaint .read file e)
            Run.exit 2
      | false, [] => source fuel (Program.read (← Run.readAll))
  termination_by structural fuel

end

end Evaluation

end Treewire.Shell
