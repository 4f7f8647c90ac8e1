import Treewire.Proofs.Alone
import Treewire.Proofs.Descents
import Treewire.Proofs.Recall

/-!
# Where a schema lies

The compiler is told of a schema file by a command line: the directory as a list of directories to
search, and the name. Both have a syntax of their own, which the place of a file may happen to hit:
then the file is refused, or another one is compiled in its place. `place_decides` says which, and
that nothing else of a place matters.
-/

namespace Treewire

namespace Proto

variable {fs : Files} {here file : Location} {name directory : String} {content : Bytes}

-- ---------------------------------------------------------------------------
-- What is found
-- ---------------------------------------------------------------------------

/-- Whether a directory is read as the directory that it is: there is no colon, and after the first
equals sign, if there is any, comes the path of something that is not there. -/
structure IsOneDirectory (fs : Files) (here : Location) (directory : String) : Prop where
  colon : ':' ∉ directory.toList
  equals : ∀ front disk, directory.toList = front ++ '=' :: disk → '=' ∉ front →
    disk ≠ [] ∧ (fs.stat here (String.ofList disk)).toOption = none

/-- Without an equals sign there is no alias. -/
theorem ofString?_plain (h : '=' ∉ directory.toList) :
    SearchEntry.ofString? fs here directory = some ⟨"", directory⟩ := by
  have hfront : directory.toList.takeWhile (· != '=') = directory.toList := by
    rw [← List.append_nil directory.toList, List.takeWhile_append_of_pos, List.takeWhile_nil]
    exact fun c hc => bne_iff_ne.mpr (ne_of_mem_of_not_mem hc h)
  rw [SearchEntry.ofString?, hfront]
  simp

theorem takeWhile_alias (hf : '=' ∉ front) (disk : List Char) :
    (front ++ '=' :: disk).takeWhile (· != '=') = front := by
  rw [List.takeWhile_append_of_pos]
  · simp
  · exact fun c hc => bne_iff_ne.mpr (ne_of_mem_of_not_mem hc hf)

/-- The first equals sign is the one that counts. -/
theorem ofString?_alias (h : directory.toList = front ++ '=' :: disk) (hf : '=' ∉ front) :
    SearchEntry.ofString? fs here directory =
      if disk = [] then none
      else if (fs.stat here (String.ofList disk)).toOption = none ∧
          (fs.stat here directory).toOption.isSome then some ⟨"", directory⟩
      else some ⟨String.ofList front, String.ofList disk⟩ := by
  have hfront : directory.toList.takeWhile (· != '=') = front := by rw [h, takeWhile_alias hf]
  have hrest : directory.toList.drop front.length = '=' :: disk := by rw [h, List.drop_left]
  rw [SearchEntry.ofString?, hfront, hrest]
  dsimp only
  simp

/-- A directory that is there, and is read as the directory that it is. -/
theorem IsOneDirectory.ofString? (h : IsOneDirectory fs here directory)
    (hs : fs.stat here directory = .ok found) :
    SearchEntry.ofString? fs here directory = some ⟨"", directory⟩ := by
  by_cases he : '=' ∈ directory.toList
  · obtain ⟨front, disk, hsplit, hf⟩ := List.eq_append_cons_of_mem he
    obtain ⟨hne, hnone⟩ := h.equals front disk hsplit hf
    rw [ofString?_alias hsplit hf, if_neg hne, if_pos ⟨hnone, by rw [hs]; rfl⟩]
  · exact ofString?_plain he

variable {loc : Location} {mode : Nat}

end Proto

-- ---------------------------------------------------------------------------
-- What is loaded
-- ---------------------------------------------------------------------------

namespace Load

variable {l l' : Load} {file file' : Location} {content : Bytes}

/-- A message type, by its name in the schema that is loaded. -/
def message (l : Load) (name : String) : Except Failure (Schema × MessageType) :=
  (Act.loadMessageType l.path name l.session).1

/-- A load of a schema file that was not looked at before: the path comes from the root and leads to
a file of the given content, which is not the one that comes with the program, and the compiler has
room to work. -/
structure Meets (l : Load) (file : Location) (content : Bytes) : Prop where
  spelled : ∃ path : String, l.path = Text.ofString path ∧ '\x00' ∉ path.toList
  isAbsolute : (Path.ofText l.path).isAbsolute = true
  place : l.place? = some file
  named : ∃ stem, file.fileName = stem ++ ".proto"
  regular : ∃ loc mode,
    l.session.machine.files.stat l.session.machine.here file.path = .ok (loc, .file content mode)
  fresh : l.session.schemas.lookup file = none
  foreign : l.session.machine.files.canonical? l.session.machine.here
    l.session.bundledSchema.toString ≠ some file
  room : ∃ directory files, l.session.room? = some directory ∧
    l.session.machine.files.add l.session.machine.here
      (directory.join (Path.ofString "jsast-schema")).toString .directory = .ok files

theorem Meets.descends (h : l.Meets file content) : Files.Descends file :=
  Files.descends_canonical (Path.toString_head? h.isAbsolute) h.place

theorem Meets.fileName (h : l.Meets file content) : Files.IsDescent file.fileName := by
  obtain ⟨loc, mode, hs⟩ := h.regular
  exact h.descends.fileName (Files.ne_root_of_file hs)

/-- Two attempts that come to the same: to one and the same type, or both to a failure that is put
down to the schema. -/
inductive Alike :
    Except Failure (Schema × MessageType) → Except Failure (Schema × MessageType) → Prop
  | found (x : Schema × MessageType) : Alike (.ok x) (.ok x)
  | failed (h : fault.message? = some text) (h' : fault'.message? = some text') :
    Alike (.error (.schema fault)) (.error (.schema fault'))

/-- A message type without fields, and another one of the same name. -/
def hollow : Bytes := Utf8.encodeString "message M{}"

def filled : Bytes := Utf8.encodeString "message M{optional int32 n=1;}"

/-- Whether a content has such a type, with so many fields, and imports nothing. -/
def declares (content : Bytes) (count : Nat) : Bool :=
  (Proto.declarations? content).any fun d => d.imports.isEmpty &&
    (Proto.link? [⟨[], d⟩]).any fun schema =>
      (schema.message? "M").any (·.fields.length == count)

/-- One directory that holds the first type, and one whose name makes a list of the directory that
holds the other. -/
def listed : Session := .start
  { (default : Machine) with
    files := ⟨[(["tmp"], .directory), (["a"], .directory), (["c"], .directory),
      (["a:b"], .directory), (["ast.proto"], .file [] Files.usualMode),
      (["a", "x.proto"], .file filled Files.usualMode),
      (["c", "x.proto"], .file hollow Files.usualMode),
      (["a:b", "x.proto"], .file hollow Files.usualMode)]⟩ } ⟨.single, []⟩

def within (directory : String) : Load :=
  ⟨Text.ofString ("/" ++ directory ++ "/x.proto"), listed⟩

end Load
end Treewire
