import Treewire.Log
import Treewire.Number.Numeral
import Treewire.Text.Digit

/-!
# Arguments of the command line

The command line is a command, options, and for one of the commands files. Options have long names,
of which the beginning will do, and some have a short one; the value of an option follows it, or
stands behind an equals sign, or right after the short name. After two hyphens there are no options.
-/

namespace Treewire.CommandLine

inductive Format where
  | json
  | text
  deriving DecidableEq, Inhabited

/-- What options ask for. -/
structure Settings where
  configuration : Option Text := none
  timeout : Option Binary64 := none
  level : Log.Level := .warning
  code : Option Text := none
  format : Format := .json
  deriving Inhabited

inductive Request where
  | check (settings : Settings)
  | parse (settings : Settings) (files : List Text)
  deriving Inhabited

/-- Why there is no request. -/
inductive Rejection where
  /-- Help was asked for. -/
  | help
  | misuse
  deriving DecidableEq, Inhabited

inductive Flag where
  | help
  | configuration
  | timeout
  | level
  | code
  | format
  deriving DecidableEq, Inhabited

/-- Options by their names. -/
abbrev Names := List (String × Flag)

def mainNames : Names := [("-h", .help), ("--help", .help)]

def checkNames : Names :=
  mainNames ++ [("--config", .configuration), ("--timeout", .timeout), ("--log-level", .level)]

def parseNames : Names :=
  checkNames ++ [("-e", .code), ("--eval", .code), ("--format", .format)]

/-! ## Telling options from other arguments -/

/-- What is attached to the name of an option, with an equals sign between them or without. -/
structure Attachment where
  equals : Bool
  text : Text
  deriving DecidableEq, Inhabited

inductive Kind where
  | operand
  /-- Two hyphens, after which there are only operands. -/
  | separator
  /-- An option of a short or a long name, with a value attached possibly. -/
  | option (option : Flag) (short : Bool) (attached : Option Attachment)
  | unknown
  deriving DecidableEq, Inhabited

def hyphen : Symbol := .scalar '-'

def equalsSign : Symbol := .scalar '='

def Names.find (names : Names) (name : Text) : Option Flag :=
  (names.find? fun n => Text.ofString n.1 = name).map (·.2)

/-- Whether an argument is a negative number, and not an option. A line end may follow it. -/
def isNegative (argument : Text) : Bool :=
  let isDigit (s : Symbol) : Bool := (digitValue? s.codePoint).isSome
  let body := argument.drop 1
  let body := if body.getLast? = some (.scalar '\n') then body.dropLast else body
  let whole := body.takeWhile isDigit
  match body.drop whole.length with
  | [] => whole != []
  | point :: fraction => point = .scalar '.' && fraction != [] && fraction.all isDigit

/-- The part before an equals sign, and the part after it if there is one. -/
def cutAtEquals (argument : Text) : Text × Option Attachment :=
  let front := argument.takeWhile (· != equalsSign)
  match argument.drop front.length with
  | _ :: rest => (front, some ⟨true, rest⟩)
  | [] => (front, none)

/-- The options whose long name begins with the argument, or whose short name the argument begins
with. -/
def candidates (names : Names) (argument : Text) : List Kind :=
  if argument.take 2 = [hyphen, hyphen] then
    let (front, attached) := cutAtEquals argument
    (names.filter fun n => front.isPrefixOf (Text.ofString n.1)).map fun n =>
      .option n.2 false attached
  else
    (names.filter fun n => Text.ofString n.1 = argument.take 2).map fun n =>
      .option n.2 true (some ⟨false, argument.drop 2⟩)

def kindOf (names : Names) (argument : Text) : Except Rejection Kind :=
  if argument.head? != some hyphen then .ok .operand
  else match names.find argument with
    | some option => .ok (.option option (argument.length = 2) none)
    | none =>
      if argument.length = 1 then .ok .operand
      else
        let (front, attached) := cutAtEquals argument
        match if attached.isSome then names.find front else none with
        | some option => .ok (.option option (front.length = 2) attached)
        | none =>
          match candidates names argument with
          | [kind] => .ok kind
          | _ :: _ :: _ => .error .misuse
          | [] =>
            if isNegative argument || argument.contains (.scalar ' ') then .ok .operand
            else .ok .unknown

/-- Arguments with their kinds. -/
def kindsOf (names : Names) : List Text → Except Rejection (List (Kind × Text))
  | [] => .ok []
  | argument :: rest =>
    if argument = [hyphen, hyphen] then
      .ok ((.separator, argument) :: rest.map fun a => (.operand, a))
    else do
      let kind ← kindOf names argument
      return (kind, argument) :: (← kindsOf names rest)

/-! ## Taking options -/

/-- The settings with an option set to a value. -/
def Settings.set (s : Settings) (option : Flag) (value : Text) : Except Rejection Settings :=
  match option with
  | .help => .error .help
  | .configuration => .ok { s with configuration := some value }
  | .code => .ok { s with code := some value }
  | .timeout =>
    match Numeral.real? value with
    | some x => .ok { s with timeout := some x }
    | none => .error .misuse
  | .level =>
    match value.toString? with
    | some "DEBUG" => .ok { s with level := .debug }
    | some "INFO" => .ok { s with level := .info }
    | some "WARNING" => .ok { s with level := .warning }
    | some "ERROR" => .ok { s with level := .error }
    | _ => .error .misuse
  | .format =>
    match value.toString? with
    | some "json" => .ok { s with format := .json }
    | some "text" => .ok { s with format := .text }
    | _ => .error .misuse

/-- What comes of the short call for help with more letters right after it. They are short options
too, the last of which may need a value; what is no option is left for later, when help was given.
An equals sign or a hyphen is a misuse. -/
def helpWith (names : Names) (next : Option Kind) : Text → Rejection
  | [] => .misuse
  | c :: rest =>
    if c = hyphen then .misuse
    else match names.find [hyphen, c] with
      | none => .help
      | some .help =>
        match rest with
        | [] => .help
        | d :: _ => if d = equalsSign then .misuse else helpWith names next rest
      | some _ => if rest != [] || next = some .operand then .help else .misuse

/-- What comes of a call for help. -/
def helpCall (names : Names) (short : Bool) (attached : Option Attachment) (next : Option Kind) :
    Rejection :=
  match attached with
  | none => .help
  | some a => if short && !a.equals then helpWith names next a.text else .misuse

/-- Takes an option and its value. The answer is whether the value was the next argument. -/
def Settings.take (s : Settings) (names : Names) (option : Flag) (short : Bool)
    (attached : Option Attachment) (next : Option (Kind × Text)) :
    Except Rejection (Settings × Bool) :=
  match option, attached with
  | .help, attached => .error (helpCall names short attached (next.map (·.1)))
  | option, some a => (s.set option a.text).map fun s => (s, false)
  | option, none =>
    match next with
    | some (.operand, value) => (s.set option value).map fun s => (s, true)
    | _ => .error .misuse

/-- What was found in arguments. -/
structure Findings where
  settings : Settings := {}
  /-- The first operands in a row, if there are any. -/
  operands : Option (List Text) := none
  /-- Whether there is anything that belongs nowhere. -/
  hasExtras : Bool := false
  deriving Inhabited

def isOperandKind : Kind → Bool
  | .operand | .separator => true
  | _ => false

/-- The operands in front. -/
def operandsIn (arguments : List (Kind × Text)) : List Text :=
  (arguments.takeWhile fun a => isOperandKind a.1).map (·.2)

/-- What follows the operands in front. -/
def afterOperands (arguments : List (Kind × Text)) : List (Kind × Text) :=
  arguments.dropWhile fun a => isOperandKind a.1

theorem afterOperands_length_le (arguments : List (Kind × Text)) :
    (afterOperands arguments).length ≤ arguments.length :=
  (List.dropWhile_sublist _).length_le

/-- Goes through arguments. The first row of operands are files if the command takes files; other
operands belong nowhere. -/
def collect (names : Names) (takesFiles : Bool) (found : Findings) (arguments : List (Kind × Text)) :
    Except Rejection Findings :=
  match arguments with
  | [] => .ok found
  | (.unknown, _) :: rest => collect names takesFiles { found with hasExtras := true } rest
  | (.option option short attached, _) :: rest => do
    let (settings, usedNext) ← found.settings.take names option short attached rest.head?
    collect names takesFiles { found with settings := settings } (rest.drop usedNext.toNat)
  | (.operand, text) :: rest | (.separator, text) :: rest =>
    have := afterOperands_length_le rest
    if takesFiles && found.operands.isNone then
      collect names takesFiles { found with operands := some (text :: operandsIn rest) }
        (afterOperands rest)
    else collect names takesFiles { found with hasExtras := true } (afterOperands rest)
  termination_by arguments.length
  decreasing_by all_goals simp only [List.length_cons, List.length_drop]; omega

/-- A row of operands without the first separator. -/
def withoutSeparator (row : List Text) : List Text := row.erase [hyphen, hyphen]

/-- The findings in the arguments of a command. -/
def findings (names : Names) (takesFiles : Bool) (arguments : List Text) :
    Except Rejection Findings := do
  collect names takesFiles {} (← kindsOf names arguments)

def refuseExtras (hasExtras : Bool) : Except Rejection Unit :=
  if hasExtras then .error .misuse else .ok ()

/-- The request of a command with its arguments. -/
def requestOf (hasExtras : Bool) (command : Text) (arguments : List Text) :
    Except Rejection Request :=
  if command = Text.ofString "check" then do
    let found ← findings checkNames false arguments
    refuseExtras (hasExtras || found.hasExtras)
    return .check found.settings
  else if command = Text.ofString "parse" then do
    let found ← findings parseNames true arguments
    refuseExtras (hasExtras || found.hasExtras)
    return .parse found.settings (withoutSeparator (found.operands.getD []))
  else .error .misuse

/-- The request that arguments make, if they name a command at all. -/
def request (hasExtras : Bool) : List (Kind × Text) → Except Rejection (Option Request)
  | [] => if hasExtras then .error .misuse else .ok none
  | (.operand, command) :: rest => some <$> requestOf hasExtras command (rest.map (·.2))
  | (.separator, _) :: _ => .error .misuse
  | (.unknown, _) :: rest => request true rest
  | (.option _ short attached, _) :: rest =>
    .error (helpCall mainNames short attached (rest.head?.map (·.1)))

def Request.ofArguments (arguments : List Text) : Except Rejection (Option Request) := do
  request false (← kindsOf mainNames arguments)

end Treewire.CommandLine
