import Treewire.Message.Decode
import Treewire.Message.Listing
import Treewire.Schema.Bundled
import Treewire.Session

/-!
# Schemas of a session

A schema is compiled at its first use and kept for the rest of the session, under the place where
its path led. A path that leads there later, spelled in whatever way, gets the same schema.
-/

namespace Treewire

/-- A message together with what is needed to read it. -/
structure Decoded where
  schema : Schema
  type : MessageType
  message : Message
  deriving Inhabited

namespace Decoded

/-- The members of the message as data. -/
def toJson (d : Decoded) : Json := d.message.toJson d.schema d.type

/-- As a data document. -/
def document (d : Decoded) (indent : Nat) : String := d.message.document d.schema d.type indent

/-- As a listing of its fields. -/
def listing (d : Decoded) : String := d.message.listing d.schema d.type

end Decoded

namespace Act

def schemaSource : String := "jsast.core.schema"

/-- The schema in a file, just compiled. The compiler needs room for files of its own. The schema
that comes with the program is known. -/
def compile (file : Location) : Act Schema := do
  let m := (← get).machine
  ofExcept .schema (checkSchemaFile m.files m.here file)
  let room := (← temporaryDirectory).join (Path.ofString "jsast-schema")
  let _ ← ask fun m => m.files.add m.here room.toString .directory
  let s ← get
  let c ← if some file = m.files.canonical? m.here s.bundledSchema.toString then
      pure ⟨Schema.bundled, 1⟩
    else ofExcept .schema (compileSchema m.files m.here file)
  tell schemaSource .debug
    (Text.ofString s!"Compiled AST schema {file.path} ({c.fileCount} file(s))")
  modify fun s => { s with schemas := s.schemas.insert file c.schema }
  return c.schema

/-- The schema that a path leads to. -/
def loadSchema (path : Text) : Act Schema := do
  let s ← get
  match s.machine.files.canonical? s.machine.here (Path.ofText path).toString with
  | none => throw (.schema .endless)
  | some file =>
    match s.schemas.lookup file with
    | some schema => return schema
    | none => compile file

/-- The schema that a path leads to, and a message type in it. -/
def loadMessageType (path : Text) (name : String) : Act (Schema × MessageType) := do
  let schema ← loadSchema path
  match schema.message? name with
  | some type => return (schema, type)
  | none => throw (.schema (.undefined name path))

/-- Decodes a tree. -/
def decodeTree (data : Bytes) (path : Text) : Act Decoded := do
  let (schema, type) ← loadMessageType path Schema.treeMessage
  match Message.decode? schema type data with
  | some message => return ⟨schema, type, message⟩
  | none => throw (.badPayload data.length)

end Act

end Treewire
