import Treewire.Text.Pattern
import Treewire.Yaml.Node

/-!
# What plain scalars are

A plain scalar without a tag is a truth value, a number, a point of time or nothing at all, if it is
written as one, and a text otherwise. The forms exclude each other up to the order in which they are
tried.
-/

namespace Treewire.Yaml

open Pattern

def truthForm : Pattern :=
  choice (["yes", "Yes", "YES", "no", "No", "NO", "true", "True", "TRUE", "false", "False", "FALSE",
    "on", "On", "ON", "off", "Off", "OFF"].map word)

def signForm : Pattern := optional (oneOf "-+")

/-- A digit, then digits and underscores. -/
def digitsForm (first : String) : Pattern := .andThen (oneOf first) (.many (oneOf "0123456789_"))

/-- Groups below sixty, each after a colon. -/
def sixtiethsForm : Pattern :=
  oneOrMore (sequence [word ":", optional (oneOf "012345"), digit])

def intForm : Pattern :=
  .andThen signForm (choice
    [.andThen (word "0b") (oneOrMore (oneOf "01_")),
      .andThen (word "0") (oneOrMore (oneOf "01234567_")),
      word "0",
      digitsForm "123456789",
      .andThen (word "0x") (oneOrMore (oneOf "0123456789abcdefABCDEF_")),
      .andThen (digitsForm "123456789") sixtiethsForm])

/-- An exponent, whose sign has to be there. -/
def exponentForm : Pattern := optional (sequence [oneOf "eE", oneOf "-+", oneOrMore digit])

def floatForm : Pattern :=
  choice
    [sequence [signForm, digitsForm "0123456789", word ".", .many (oneOf "0123456789_"), exponentForm],
      sequence [word ".", digitsForm "0123456789", exponentForm],
      sequence [signForm, digitsForm "0123456789", sixtiethsForm, word ".",
        .many (oneOf "0123456789_")],
      sequence [signForm, word ".", choice [word "inf", word "Inf", word "INF"]],
      .andThen (word ".") (choice [word "nan", word "NaN", word "NAN"])]

def nullForm : Pattern := choice (["~", "null", "Null", "NULL"].map word)

def oneOrTwoDigits : Pattern := .andThen digit (optional digit)

def twoDigits : Pattern := .andThen digit digit

def yearForm : Pattern := .andThen twoDigits twoDigits

/-- An hour, minutes, seconds, and possibly a fraction. -/
def clockForm : Pattern :=
  sequence [oneOrTwoDigits, word ":", twoDigits, word ":", twoDigits,
    optional (.andThen (word ".") (.many digit))]

def zoneForm : Pattern :=
  .either (word "Z")
    (sequence [oneOf "-+", oneOrTwoDigits, optional (.andThen (word ":") twoDigits)])

/-- What stands between a date and a time. -/
def timeMark : Pattern := .either (oneOf "Tt") (oneOrMore (oneOf " \t"))

def momentForm : Pattern :=
  sequence [yearForm, word "-", oneOrTwoDigits, word "-", oneOrTwoDigits, timeMark, clockForm,
    optional (.andThen (.many (oneOf " \t")) zoneForm)]

def dateForm : Pattern := sequence [yearForm, word "-", twoDigits, word "-", twoDigits]

def scalarForms : List (Pattern × Tag) :=
  [(truthForm, .bool), (floatForm, .float), (intForm, .int), (word "<<", .merge),
    (nullForm, .null), (.either dateForm momentForm, .timestamp), (word "=", .value),
    (oneOf "!&*", .other (tagStem ++ "yaml"))]

/-- A line break at the end is no part of the form. -/
def withoutLastBreak (cs : List Char) : List Char :=
  if cs.getLast? = some '\n' then cs.dropLast else cs

/-- Whether a text has a form, up to a line break at its end. -/
def hasForm (p : Pattern) (cs : List Char) : Bool :=
  p.matches? cs || p.matches? (withoutLastBreak cs)

/-- The tag that the text of a plain scalar tells. -/
def Tag.ofText (t : Text) : Tag :=
  match Text.toChars? t with
  | none => .text
  | some [] => .null
  | some cs => ((scalarForms.find? fun form => hasForm form.1 cs).map (·.2)).getD .text

/-- The tag of a node. -/
def Node.resolved (node : Node) : Tag :=
  match node.tag, node.content with
  | some tag, _ => tag
  | none, .scalar text => if node.plain then Tag.ofText text else .text
  | none, .sequence _ => .sequence
  | none, .mapping _ => .mapping

end Treewire.Yaml
