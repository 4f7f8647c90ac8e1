import Treewire.Shell.Process

/-!
# Executable files

A file can be executed if it is one of the tools, or if its first line names, after a hash and an
exclamation mark, another executable file. That one is executed instead, with the path of the file
as an argument.
-/

namespace Treewire.Shell.Executable

/-- The words of the first line of a script: the interpreter, and all the rest as one argument. -/
def interpreterOf (content : List Char) : Option (List Char × List (List Char)) :=
  let isBlank (c : Char) : Bool := c = ' ' || c = '\t'
  match content with
  | '#' :: '!' :: rest =>
    let line := (rest.takeWhile (· != '\n')).dropWhile isBlank
    let interpreter := line.takeWhile (!isBlank ·)
    let argument := (line.drop interpreter.length).dropWhile isBlank
    let argument := (argument.reverse.dropWhile isBlank).reverse
    if interpreter = [] then none
    else some (interpreter, if argument = [] then [] else [argument])
  | _ => none

/-- How many interpreters may stand behind each other. -/
def depth : Nat := 5

/-- The tool that a path comes down to, and its arguments, its name first. -/
def load (fs : Files) (here : Location) : Nat → List Char → List (List Char) →
    Except FileError (Tool × List (List Char))
  | 0, _, _ => .error .tooManyLinks
  | fuel + 1, path, arguments =>
    match fs.stat here (spelled path) with
    | .error e => .error e
    | .ok (_, .tool tool) => .ok (tool, arguments)
    | .ok (_, .file content mode) =>
      if !Files.isExecutableMode mode then .error .denied
      else match interpreterOf (octetChars content) with
        | none => .error .badFormat
        | some (interpreter, more) =>
          load fs here fuel interpreter (interpreter :: more ++ path :: arguments.drop 1)
    | .ok _ => .error .denied

/-- The pieces of a search path, empty ones too. -/
def directories (path : List Char) : List (List Char) :=
  Treewire.pieces ':' path

/-- A name in a directory, which is the working directory if it has no name. -/
def inDirectory (directory name : List Char) : List Char :=
  if directory = [] then name
  else if directory.getLast? = some '/' then directory ++ name
  else directory ++ '/' :: name

/-- The first candidate that can be loaded. Otherwise the first reason counts that is not that there
is no such file. -/
def loadFirst (fs : Files) (here : Location) (arguments : List (List Char)) :
    Option FileError → List (List Char) → Except FileError (Tool × List (List Char))
  | reason, [] => .error (reason.getD .noEntry)
  | reason, path :: rest =>
    match load fs here depth path arguments with
    | .ok found => .ok found
    | .error e =>
      let isAbsent := e = .noEntry || e = .notDirectory
      let reason := if isAbsent then reason else reason.or (some e)
      if rest = [] then .error (reason.getD e) else loadFirst fs here arguments reason rest

/-- Where a system searches if no search path is set. -/
def usualDirectories : List (List Char) := ["/bin".toList, "/usr/bin".toList]

/-- What a command comes down to: a path with a slash is one, any other name is searched. -/
def resolve (fs : Files) (here : Location) (path : Option (List Char))
    (command : List (List Char)) : Except FileError (Tool × List (List Char)) :=
  let name := command.head?.getD []
  if name.contains '/' then load fs here depth name command
  else
    let places := (path.map directories).getD usualDirectories
    loadFirst fs here command none (places.map (inDirectory · name))

end Treewire.Shell.Executable
