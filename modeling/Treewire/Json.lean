import Treewire.Text
import Treewire.Number.Decimal

/-!
# JSON values and their written form

Members keep their order. Integers and floating-point numbers are different values: the second are
written with a point or an exponent. A text is escaped code point by code point, so a text with
surrogates can be written in ASCII.
-/

namespace Treewire

inductive Json where
  | null
  | bool (b : Bool)
  | int (i : Int)
  | float (x : Binary64)
  | text (t : Text)
  | array (items : List Json)
  | object (members : List (String × Json))
  deriving Inhabited

namespace Json

/-- A text value with the code points of a string. -/
def ofString (s : String) : Json := .text (Text.ofString s)

/-- The first member of that name. -/
def get? (key : String) : Json → Option Json
  | .object members => members.lookup key
  | _ => none

/-- How a document is written: `indent` spaces for each level on lines of their own, or one line;
and whether all characters beyond ASCII are escaped. -/
structure Style where
  indent : Option Nat
  ascii : Bool

def hexDigit (n : Nat) : Char := Nat.digitChar (n % 16)

/-- Four hexadecimal digits. -/
def hex4 (n : Nat) : List Char :=
  [hexDigit (n / 4096), hexDigit (n / 256), hexDigit (n / 16), hexDigit n]

def unitEscape (n : Nat) : List Char := '\\' :: 'u' :: hex4 n

/-- The escape of a code point, as a surrogate pair above U+FFFF. -/
def escape (n : Nat) : List Char :=
  if n < 0x10000 then unitEscape n
  else unitEscape (0xD800 + (n - 0x10000) / 1024) ++ unitEscape (0xDC00 + (n - 0x10000) % 1024)

def symbolChars (ascii : Bool) : Symbol → List Char
  | .scalar '"' => ['\\', '"']
  | .scalar '\\' => ['\\', '\\']
  | .scalar '\n' => ['\\', 'n']
  | .scalar '\r' => ['\\', 'r']
  | .scalar '\t' => ['\\', 't']
  | .scalar '\x08' => ['\\', 'b']
  | .scalar '\x0c' => ['\\', 'f']
  | .scalar c =>
    if c.toNat < 0x20 ∨ (ascii ∧ 0x7F ≤ c.toNat) then escape c.toNat else [c]
  | .surrogate n => escape (0xD800 + n.val)

def textChars (ascii : Bool) (t : Text) : List Char :=
  '"' :: t.flatMap (symbolChars ascii) ++ ['"']

/-- A line break and the indent of a level, if the style has lines. -/
def Style.break (style : Style) (level : Nat) : List Char :=
  match style.indent with
  | none => []
  | some width => '\n' :: List.replicate (width * level) ' '

/-- What stands between two items. -/
def Style.separator (style : Style) (level : Nat) : List Char :=
  match style.indent with
  | none => [',', ' ']
  | some _ => ',' :: style.break level

/-- Infinities and NaN have no JSON form; they get the names that readers of scripts know. -/
def floatText (x : Binary64) : String :=
  match x.value with
  | .nan => "NaN"
  | .infinite negative => if negative then "-Infinity" else "Infinity"
  | .finite .. => DecimalLayout.report.shortest x

mutual
/-- The characters of a value that stands at the given level. -/
def chars (style : Style) (level : Nat) : Json → List Char
  | .null => "null".toList
  | .bool true => "true".toList
  | .bool false => "false".toList
  | .int i => (toString i).toList
  | .float x => (floatText x).toList
  | .text t => textChars style.ascii t
  | .array [] => ['[', ']']
  | .array (v :: rest) =>
    '[' :: style.break (level + 1) ++ chars style (level + 1) v ++
      itemChars style (level + 1) rest ++ style.break level ++ [']']
  | .object [] => ['\x7b', '\x7d']
  | .object ((key, v) :: rest) =>
    '\x7b' :: style.break (level + 1) ++ textChars style.ascii (Text.ofString key) ++ [':', ' '] ++
      chars style (level + 1) v ++ memberChars style (level + 1) rest ++ style.break level ++
      ['\x7d']
/-- The items after the first. -/
def itemChars (style : Style) (level : Nat) : List Json → List Char
  | [] => []
  | v :: rest => style.separator level ++ chars style level v ++ itemChars style level rest
/-- The members after the first. -/
def memberChars (style : Style) (level : Nat) : List (String × Json) → List Char
  | [] => []
  | (key, v) :: rest =>
    style.separator level ++ textChars style.ascii (Text.ofString key) ++ [':', ' '] ++
      chars style level v ++ memberChars style level rest
end

def render (style : Style) (v : Json) : String := String.ofList (chars style 0 v)

/-- One line of ASCII. -/
def compact (v : Json) : String := render ⟨none, true⟩ v

end Json

end Treewire
