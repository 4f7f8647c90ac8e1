import Treewire.Message.Dictionary
import Treewire.Text.Utf8

/-!
# Message listings

One line for each value, `name: value`; a message stands between braces, indented by two. Texts
keep their characters beyond ASCII, octets are escaped.
-/

namespace Treewire.Message

/-- Three octal digits after a backslash. -/
def octal (n : Nat) : List Char :=
  '\\' :: [Nat.digitChar (n / 64 % 8), Nat.digitChar (n / 8 % 8), Nat.digitChar (n % 8)]

def namedEscape? : Char → Option (List Char)
  | '\t' => some ['\\', 't']
  | '\n' => some ['\\', 'n']
  | '\r' => some ['\\', 'r']
  | '"' => some ['\\', '"']
  | '\'' => some ['\\', '\'']
  | '\\' => some ['\\', '\\']
  | _ => none

/-- Control characters are escaped in a text, and nothing beyond them. -/
def textEscape (c : Char) : List Char :=
  (namedEscape? c).getD (if c.toNat < 0x20 ∨ c.toNat = 0x7F then octal c.toNat else [c])

/-- An octet is escaped unless it is a printable ASCII character. -/
def octetEscape (b : UInt8) : List Char :=
  let c := Char.ofNat b.toNat
  (namedEscape? c).getD (if b.toNat < 0x20 ∨ 0x7F ≤ b.toNat then octal b.toNat else [c])

def quote (cs : List Char) : List Char := '"' :: cs ++ ['"']

/-- Octets that are UTF-8 as the characters they encode, each other octet escaped. -/
def looseEscape : Bytes → List Char
  | [] => []
  | b :: rest =>
    have := Utf8.next_length_le b rest
    match (Utf8.next b rest).1 with
    | some c => textEscape c ++ looseEscape (Utf8.next b rest).2
    | none => octal b.toNat ++ looseEscape rest
  termination_by bytes => bytes.length

/-- A value without parts. -/
def leafText (s : Schema) (kind : FieldKind) : Value → List Char
  | .int i =>
    match kind with
    | .enum name => (((s.enum? name).bind (·.nameOf? i)).getD (toString i)).toList
    | _ => (toString i).toList
  | .bool b => (if b then "true" else "false").toList
  | .double x => (DecimalLayout.report.shortest x).toList
  | .float x => (DecimalLayout.report.shortest x.leastSix).toList
  | .string t => quote (t.toList.flatMap textEscape)
  | .bytes b =>
    match kind with
    | .scalar .looseString => quote (looseEscape b)
    | _ => quote (b.flatMap octetEscape)
  | .message _ => []

/-- Whether a field is a group that was declared in place: its type lies within the message and
is called like it, up to case. -/
def isGroup (t : MessageType) (f : Field) : Bool :=
  match f.kind with
  | .group name =>
    name == t.name ++ "." ++ lastComponent name &&
      f.name.toList == (lastComponent name).toList.map Char.toLower
  | _ => false

/-- A group is listed under the name of its type, an extension under its full name. -/
def listedName (t : MessageType) (f : Field) : List Char :=
  match f.extensionName with
  | some name => '[' :: name.toList ++ [']']
  | none => if isGroup t f then (f.kind.target?.map lastComponent).getD f.name |>.toList
    else f.name.toList

/-- Whether a field with a value counts as unset. Only map entries hold such fields. -/
def countsAsUnset (f : Field) (value : Value) : Bool :=
  f.cardinality == .implicit && value.isDefault

mutual
/-- A value after its field's name. -/
def valueChars (s : Schema) (f : Field) (level : Nat) : Value → List Char
  | .message m =>
    let body := match typeOf? s f with
      | some t => messageChars s t (level + 1) m
      | none => []
    [' ', '\x7b', '\n'] ++ body ++ List.replicate (2 * level) ' ' ++ ['\x7d']
  | leaf => ':' :: ' ' :: leafText s f.kind leaf
def messageChars (s : Schema) (t : MessageType) (level : Nat) : Message → List Char
  | .empty => []
  | .entry number value rest =>
    match t.field? number with
    | some f =>
      if countsAsUnset f value then messageChars s t level rest
      else List.replicate (2 * level) ' ' ++ listedName t f ++ valueChars s f level value ++
        '\n' :: messageChars s t level rest
    | none => messageChars s t level rest
end

/-- The listing of a message. -/
def listing (s : Schema) (t : MessageType) (m : Message) : String :=
  String.ofList (messageChars s t 0 m)

end Treewire.Message
