import Treewire.Files.Report
import Treewire.Proto.Import

/-!
# Compiled schemas

A schema that was compiled once is kept under the location of its file, and never looked at again.
Failures are not kept.
-/

namespace Treewire

/-- Why there is no schema, or no message type in it. -/
inductive SchemaFault where
  | missing (file : Location)
  /-- The compiler refuses, with a code. -/
  | refused (file : Location) (code : Nat)
  | undefined (message : String) (file : Text)
  /-- The path leads through links in a circle. -/
  | endless
  /-- The system refuses to look at the file, or at a place for temporary files. -/
  | inaccessible (error : FileError)
  deriving DecidableEq, Inhabited

namespace SchemaFault

def message? : SchemaFault → Option Text
  | .missing file => some (Text.ofString s!"AST schema not found: {file.path}")
  | .refused file code =>
    some (Text.ofString s!"protoc failed to compile {file.path} (rc={code})")
  | .undefined message file =>
    some (Text.ofString s!"message {message} not defined in " ++ file)
  | .endless | .inaccessible _ => none

end SchemaFault

/-- Schemas by the location of the file that was compiled. -/
abbrev SchemaStore := List (Location × Schema)

namespace SchemaStore

/-- The store with one more schema. What it holds already stays. -/
def insert (store : SchemaStore) (file : Location) (s : Schema) : SchemaStore :=
  if (store.lookup file).isSome then store else store ++ [(file, s)]

theorem lookup_append (xs ys : SchemaStore) (file : Location) :
    List.lookup file (xs ++ ys) = (List.lookup file xs).or (List.lookup file ys) := by
  induction xs with
  | nil => simp
  | cons x rest ih =>
    obtain ⟨key, value⟩ := x
    simp only [List.cons_append, List.lookup_cons]
    split <;> simp_all

/-- What a store holds it holds after any insertion. -/
theorem lookup_insert_of_lookup (store : SchemaStore) (file other : Location) (s t : Schema)
    (h : List.lookup file store = some s) :
    List.lookup file (store.insert other t) = some s := by
  unfold insert
  split
  · exact h
  · simp [lookup_append, h]

end SchemaStore

/-- Whether a location has a schema to offer. -/
def checkSchemaFile (fs : Files) (here file : Location) : Except SchemaFault Unit :=
  match fs.isFile here file.path with
  | .error e => .error (.inaccessible e)
  | .ok false => .error (.missing file)
  | .ok true => .ok ()

/-- The schema in the file at a location, imports being looked for beside the file. -/
def compileSchema (fs : Files) (here file : Location) : Except SchemaFault Proto.Compilation :=
  match Proto.compile fs here (Location.path file.dropLast) (file.getLast?.getD "") with
  | .ok c => .ok c
  | .error refusal => .error (.refused file refusal.code)

end Treewire
