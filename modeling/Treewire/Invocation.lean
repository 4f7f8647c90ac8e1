import Treewire.Session

/-!
# Invocations of the script

A command is launched, waited for and judged: only status zero is a success. Otherwise what it wrote
is the explanation, and if it wrote nothing, its status is.
-/

namespace Treewire.Invocation

def source : String := "jsast.core.invoker"

/-! ## Commands as text -/

/-- Whether a symbol means nothing but itself in a command line. -/
def isPlain : Symbol → Bool
  | .scalar c => c.isAlphanum || "_@%+=:,./-".toList.contains c
  | .surrogate _ => false

/-- A word as it is written in a command line. -/
def shellQuoted (t : Text) : Text :=
  if t = [] then Text.ofString "''"
  else if t.all isPlain then t
  else
    let inner := t.flatMap fun s =>
      if s = .scalar '\'' then Text.ofString "'\"'\"'" else [s]
    .scalar '\'' :: inner ++ [.scalar '\'']

def commandText (command : List Text) : Text :=
  joinWith [.scalar ' '] (command.map shellQuoted)

/-! ## Limits -/

/-- How long to wait. -/
inductive Watch where
  /-- The time is over before it begins. -/
  | over
  | counts (milliseconds : Nat)
  | fails (fault : LimitFault)
  deriving DecidableEq, Inhabited

/-- The longest time that can be counted, in milliseconds. -/
def longest : Nat := 2147483647

def Watch.ofMilliseconds (n : Nat) : Watch := if n ≤ longest then .counts n else .fails .tooLong

/-- A started millisecond counts as a whole one. -/
def watch : Duration → Watch
  | .whole n => if n ≤ 0 then .over else .ofMilliseconds (n.toNat * 1000)
  | .real x =>
    match x.value with
    | .nan => .fails .notNumber
    | .infinite negative => if negative then .over else .fails .tooLong
    | .finite negative mantissa exponent =>
      if negative || mantissa = 0 then .over
      else
        let q := Quotient.scaled (mantissa * 1000) 2 exponent
        .ofMilliseconds ((q.num + q.den - 1) / q.den)

def limitText : Option Duration → String
  | none => "None"
  | some limit => limit.text

/-! ## Judging -/

/-- The name by which a command is launched. -/
def programOf (command : List Text) : Text := command.head?.getD []

/-- What is made of a command that cannot be launched. -/
def refuse (command : List Text) (error : FileError) : Act Text := do
  let report := error.report (programOf command)
  Act.tell source .error (Text.ofString "run_script spawn error: " ++ report)
  throw (.failed (Text.ofString "failed to launch " ++ programOf command ++
    Text.ofString ": " ++ report) none)

/-- What is made of a status and an output. -/
def settle (command : List Text) (status : Int) (output : Text) : Act Text := do
  Act.tell source .debug (Text.ofString s!"run_script done rc={status} in 0.000s")
  if status = 0 then return output
  else
    Act.tell source .debug
      (Text.ofString s!"run_script failed rc={status}: " ++ commandText command)
    throw (.failed
      (if output = [] then Text.ofString s!"parser exited with status {status}" else output)
      (some status))

/-- Output as text; what is not UTF-8 is marked. -/
def outputText (output : Bytes) : Text := Text.ofChars (Utf8.decodeLossy output)

def conclude (command : List Text) : Finish → Act Text
  | .refused error => refuse command error
  | .exited status output => settle command status.toNat (outputText output)
  | .killed signal output => settle command (-(signal.number : Int)) (outputText output)

def overrun (command : List Text) (limit : Duration) (output : Bytes) : Act Text := do
  Act.tell source .error
    (Text.ofString s!"run_script timed out after {limit.text}s: " ++ commandText command)
  throw (.overran limit (outputText output))

/-! ## Running -/

/-- What comes of a command whose time is over at once, or cannot be counted: it is launched, if it
can be, and ended. -/
def cutShort (launcher : Launcher) (command : List Text) (arguments : List String)
    (otherwise : Act Text) : Act Text := do
  let (result, files) := launcher.runFor 0 (← get).machine arguments
  modify (·.withFiles files)
  match result with
  | .finished (.refused error) => refuse command error
  | _ => otherwise

/-- The output of a command that succeeds. -/
def run (launcher : Launcher) (command : List Text) (limit : Option Duration) : Act Text := do
  Act.tell source .debug (Text.ofString "run_script cmd=" ++ commandText command ++
    Text.ofString s!" timeout={limitText limit}")
  command.forM Act.passable
  let arguments := command.map Text.toStringLossy
  match limit with
  | none =>
    let (finish, files) := launcher.run (← get).machine arguments
    modify (·.withFiles files)
    conclude command finish
  | some limit =>
    match watch limit with
    | .over => cutShort launcher command arguments (overrun command limit [])
    | .fails fault => cutShort launcher command arguments (throw (.badLimit fault))
    | .counts milliseconds =>
      let (result, files) := launcher.runFor milliseconds (← get).machine arguments
      modify (·.withFiles files)
      match result with
      | .finished finish => conclude command finish
      | .overran output => overrun command limit output

end Treewire.Invocation
