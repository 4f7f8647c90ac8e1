import Treewire.Script.Convert
import Treewire.Files

/-!
# The converter as a command

Given a schema file, a script file and a place for the result, the command loads the schema, reads
the script, converts it and writes the encoded form. Its stages run in a fixed order, the first
failure ends the run, and only the last stage touches a file. Without arguments it does nothing,
successfully.
-/

namespace Treewire.Script

/-- What a reader of scripts or schemas throws. -/
inductive ReadFault where
  | syntaxError (message : String)
  | typeError
  | error (message : String)
  deriving DecidableEq, Inhabited

/-- The parts that the command is put together from. -/
structure Toolchain where
  /-- Loads the schema in a file and looks up the message type of trees. The schema that comes with
  the program has it. -/
  load : String → Except ReadFault Unit := fun _ => .ok ()
  /-- Reads the text of a script. -/
  read : String → Except ReadFault Program
  /-- Says what is wrong with a form, if anything is. -/
  verify : Form → Option String
  encode : Form → Bytes

/-- Why a run of the command fails. -/
inductive Failure where
  | usage
  | loading (fault : ReadFault)
  | input (error : FileError) (path : String)
  | reading (fault : ReadFault)
  | conversion (fault : Fault)
  | invalid (reason : String)
  | output (error : FileError) (path : String)

/-- Extensions of the language that the script reader is asked for. -/
def readerPlugins : List String := ["v8intrinsic"]

/-- The message type that the command looks up in its schema. -/
def rootType : String := "compiler.protobuf.AST"

def codeName : FileError → String
  | .noEntry => "ENOENT"
  | .badFormat => "ENOEXEC"
  | .denied => "EACCES"
  | .exists => "EEXIST"
  | .notDirectory => "ENOTDIR"
  | .isDirectory => "EISDIR"
  | .nameTooLong => "ENAMETOOLONG"
  | .notEmpty => "ENOTEMPTY"
  | .tooManyLinks => "ELOOP"

def codeText : FileError → String
  | .noEntry => "no such file or directory"
  | .badFormat => "exec format error"
  | .denied => "permission denied"
  | .exists => "file already exists"
  | .notDirectory => "not a directory"
  | .isDirectory => "illegal operation on a directory"
  | .nameTooLong => "name too long"
  | .notEmpty => "directory not empty"
  | .tooManyLinks => "too many symbolic links encountered"

/-- A refused operation on a file, named with its path. -/
def fileText (error : FileError) (path : String) : String :=
  s!"Error: {codeName error}: {codeText error}, open '" ++ path ++ "'"

/-- A report's first line. -/
def firstLine (s : String) : String := String.ofList (s.toList.takeWhile (· != '\n'))

def Fault.message : Fault → String
  | .unsupported type place =>
    let at_ := match place with
      | some p => s!" ({p.line}:{p.column})"
      | none => ""
    s!"Unsupported node type: {Text.toStringLossy type}" ++ at_
  | .malformed => "TypeError"

/-- A syntax error is told by its message, others with their class in front. -/
def ReadFault.message : ReadFault → String
  | .syntaxError message => message
  | .typeError => "TypeError"
  | .error message => firstLine (if message = "" then "Error" else "Error: " ++ message)

namespace Failure

/-- What the command prints. A directory can be opened for reading, so it is only the reading that
fails, and that is reported without the path. -/
def message : Failure → String
  | .usage => "Usage: node parser.js <ast.proto> <input.js> <output>"
  | .input .isDirectory _ => "Error: EISDIR: illegal operation on a directory, read"
  | .input error path | .output error path => fileText error path
  | .loading fault | .reading fault => fault.message
  | .conversion fault => fault.message
  | .invalid reason => firstLine ("Error: Invalid AST: " ++ reason)

def exitCode : Failure → Nat
  | .usage => 2
  | _ => 1

end Failure

/-- What is known after a run. -/
structure Run where
  files : Files
  failure : Option Failure
  /-- The text that was given to the script reader, if it came to that. -/
  script : Option String
  form : Option Form

namespace Run

def exitCode (r : Run) : Nat :=
  match r.failure with
  | some failure => failure.exitCode
  | none => 0

/-- What the run leaves on the error channel. -/
def printed (r : Run) : String :=
  match r.failure with
  | some failure => failure.message ++ "\n"
  | none => ""

end Run

/-- Everything from the script file to the form. -/
def convertFile (tools : Toolchain) (fs : Files) (here : Location) (input : String) :
    Option String × Except Failure Form :=
  match fs.read here input with
  | .error e => (none, .error (.input e input))
  | .ok bytes =>
    let script := Utf8.decodeStringLossy bytes
    (some script, match tools.read script with
      | .error fault => .error (.reading fault)
      | .ok program =>
        match program.form with
        | .error fault => .error (.conversion fault)
        | .ok form =>
          match tools.verify form with
          | some reason => if reason = "" then .ok form else .error (.invalid reason)
          | none => .ok form)

/-- Runs the command with the given arguments. -/
def run (tools : Toolchain) (fs : Files) (here : Location) (arguments : List String) : Run :=
  match arguments with
  | [] => ⟨fs, none, none, none⟩
  | [schema, input, output] =>
    match tools.load schema with
    | .error fault => ⟨fs, some (.loading fault), none, none⟩
    | .ok () =>
      let (script, result) := convertFile tools fs here input
      match result with
      | .error failure => ⟨fs, some failure, script, none⟩
      | .ok form =>
        match fs.write here output (tools.encode form) with
        | .error e => ⟨fs, some (.output e output), script, none⟩
        | .ok fs => ⟨fs, none, script, some form⟩
  | _ => ⟨fs, some .usage, none, none⟩

end Treewire.Script
