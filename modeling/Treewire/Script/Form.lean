import Treewire.Json

/-!
# Object forms

What a script is converted to: plain objects whose members are named after the fields of the
syntax-tree schema in lower camel case. A member without a value is left out.
-/

namespace Treewire.Script

inductive Form where
  | bool (b : Bool)
  | number (x : Binary64)
  | text (t : Text)
  | list (items : List Form)
  | record (members : List (String × Form))
  deriving Inhabited

namespace Form

/-- One member, to be joined with others. -/
abbrev Members := List (String × Form)

/-- A name of an enumeration. -/
def choice (name : String) : Form := .text (Text.ofString name)

/-- A form whose only member is a form of the given name. -/
def wrap (name : String) (members : Members) : Form := .record [(name, .record members)]

/-- A member that is there only if it has a value. -/
def optional (name : String) (value : Option Form) : Members :=
  match value with
  | some v => [(name, v)]
  | none => []

def get? (name : String) : Form → Option Form
  | .record members => members.lookup name
  | _ => none

end Form

end Treewire.Script
