import Treewire.Files
import Treewire.Proto.Grammar
import Treewire.Proto.Link

/-!
# Schema files and their imports

A schema file names the files it needs, each seen from one of the directories that are searched. All
of them together make up a schema.
-/

namespace Treewire.Proto

/-- A directory to search, and the path under which its files are known. -/
structure SearchEntry where
  alias_ : String
  directory : String
  deriving DecidableEq, Inhabited

/-- The entry that a piece of a search path describes: a directory, with an alias and an equals
sign in front if it has one. A directory that exists as it is spelled has none. -/
def SearchEntry.ofString? (fs : Files) (here : Location) (s : String) : Option SearchEntry :=
  let front := s.toList.takeWhile (· != '=')
  match s.toList.drop front.length with
  | [] => some ⟨"", s⟩
  | _ :: directory =>
    let exists_ (path : String) : Bool := (fs.stat here path).toOption.isSome
    if directory = [] then none
    else if !exists_ (String.ofList directory) && exists_ s then some ⟨"", s⟩
    else some ⟨String.ofList front, String.ofList directory⟩

/-- The entries of a search path, with colons between them. -/
def searchEntries? (fs : Files) (here : Location) (s : String) : Option (List SearchEntry) :=
  ((splitString ':' s).filter (· != "")).mapM (SearchEntry.ofString? fs here)

/-- Whether a name can be that of a file: no part of it says where one is already, or above. -/
def isCanonical (name : String) : Bool :=
  let parts := (splitString '/' name)
  let inner := if parts.length > 1 ∧ parts.head? = some "" then parts.drop 1 else parts
  let inner := if inner.length > 1 ∧ inner.getLast? = some "" then inner.dropLast else inner
  inner.all fun part => part != "" && part != "." && part != ".."

/-- Where an entry has the file of a name. -/
def SearchEntry.locate? (e : SearchEntry) (name : String) : Option String :=
  if e.alias_ = "" then
    if name.toList.head? = some '/' then none else some (e.directory ++ "/" ++ name)
  else
    let front := e.alias_.toList ++ (if e.alias_.toList.getLast? = some '/' then [] else ['/'])
    if front.isPrefixOf name.toList then
      some (e.directory ++ "/" ++ String.ofList (name.toList.drop front.length))
    else none

/-- The content of the file of a name in the first directory that has it. -/
def content? (fs : Files) (here : Location) (search : List SearchEntry) (name : String) :
    Option Bytes :=
  if isCanonical name then
    search.findSome? fun e =>
      (e.locate? name).bind fun path => (fs.read here path).toOption
  else none

/-- The file of a name and all that it needs, added to files that were read before. The names on the
way to it may not come again. -/
def gather? (fs : Files) (here : Location) (search : List SearchEntry) :
    Nat → List Bytes → List SourceFile → Bytes → Option (List SourceFile)
  | 0, _, _, _ => none
  | fuel + 1, above, files, name =>
    if (file? files name).isSome then some files
    else if above.contains name then none
    else do
      let d ← declarations? (← content? fs here search (Utf8.decodeStringLossy name))
      let files ← (d.imports.map (·.path)).foldlM (gather? fs here search fuel (name :: above)) files
      return files ++ [⟨name, d⟩]

/-- More than the files of a system can import: an import takes an octet at least. -/
def importBound (fs : Files) : Nat :=
  fs.entries.foldl (fun n (_, e) =>
    match e with
    | .file content _ => n + content.length
    | _ => n) 2

/-- A schema, and the number of files that it was made of. -/
structure Compilation where
  schema : Schema
  fileCount : Nat
  deriving Inhabited

/-- The schema of a file and all that it needs. -/
def compilation? (fs : Files) (here : Location) (search : List SearchEntry) (name : String) :
    Option Compilation := do
  let files ← gather? fs here search (importBound fs) [] [] (Utf8.encodeString name)
  return ⟨← link? files, files.length⟩

/-! ## Names that are no files -/

/-- A name with a hyphen in front asks for something else than a schema, and is answered or refused.
So does one with an at sign. -/
inductive Refusal where
  /-- Help was asked for, and given. -/
  | helped
  | failed
  deriving DecidableEq, Inhabited

/-- How much a refusal counts as a failure. -/
def Refusal.code : Refusal → Nat
  | .helped => 0
  | .failed => 1

def asksForHelp (name : String) : Bool :=
  "-h".toList.isPrefixOf name.toList ||
    ["--help", "--version"].contains (String.ofList (name.toList.takeWhile (· != '=')))

/-- The schema of a file, given with the directory where it and its imports are looked for. -/
def compile (fs : Files) (here : Location) (directory name : String) :
    Except Refusal Compilation :=
  match searchEntries? fs here directory with
  | none => .error .failed
  | some search =>
    match name.toList with
    | '-' :: _ :: _ => .error (if asksForHelp name then .helped else .failed)
    | '@' :: _ => .error .failed
    | _ =>
      match compilation? fs here search name with
      | some c => .ok c
      | none => .error .failed

end Treewire.Proto
