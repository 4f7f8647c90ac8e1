import Treewire.Shell.Builtin
import Treewire.Shell.Pattern

/-!
# Expanded words

A word expands to glyphs: symbols that may or may not split it into fields, ends of arguments, and
anchors that make a field count even if it stays empty.
-/

namespace Treewire.Shell

inductive Glyph where
  | char (c : Char) (splits : Bool) (active : Bool)
  | boundary
  | anchor
  deriving DecidableEq, Inhabited

namespace Glyph

/-- Symbols that stand for themselves whatever they are. -/
def ofQuoted (cs : List Char) : List Glyph := .anchor :: cs.map (.char · false false)

/-- Symbols of the script, which never split. -/
def ofScript (cs : List Char) : List Glyph := cs.map (.char · false true)

/-- Symbols of a value, which split where they separate fields. -/
def ofValue (cs : List Char) : List Glyph := cs.map (.char · true true)

/-- The symbols alone. -/
def text (glyphs : List Glyph) : List Char :=
  glyphs.filterMap fun
    | .char c _ _ => some c
    | .boundary => some ' '
    | .anchor => none

def pattern (glyphs : List Glyph) : List PatternChar :=
  glyphs.filterMap fun
    | .char c _ active => some ⟨c, active⟩
    | _ => none

def isSpace (c : Char) : Bool := c = ' ' || c = '\t' || c = '\n'

/-- The fields of a word. The field that was begun is given in reverse. -/
def fields (separators : List Char) : Option (List Char) → List Glyph → List (List Char)
  | begun, [] => (begun.map List.reverse).toList
  | begun, .anchor :: rest => fields separators (some (begun.getD [])) rest
  | begun, .boundary :: rest => (begun.map List.reverse).toList ++ fields separators none rest
  | begun, .char c splits _ :: rest =>
    if splits && separators.contains c then
      if isSpace c then (begun.map List.reverse).toList ++ fields separators none rest
      else (begun.getD []).reverse :: fields separators none rest
    else fields separators (some (c :: begun.getD [])) rest

/-- Arguments one after the other. -/
def ofArguments (one : List Char → List Glyph) : List (List Char) → List Glyph
  | [] => []
  | [a] => one a
  | a :: rest => one a ++ .boundary :: ofArguments one rest

end Glyph

namespace Process

/-- The text of a parameter, if it is set. -/
def parameter? (p : Process) (name : List Char) : Option (List Char) :=
  match name with
  | ['@'] | ['*'] => if p.arguments.isEmpty then none else some (spaced p.arguments)
  | ['#'] => some (toString p.arguments.length).toList
  | ['?'] => some (toString p.status).toList
  | ['$'] => some (toString p.number).toList
  | ['!'] => none
  | ['-'] => some []
  | ['0'] => some p.name
  | _ =>
    if name.all Char.isDigit then p.arguments[valueIn 10 name - 1]?
    else p.vars.lookup name

/-- All arguments as one text, with the first separator of fields between them. -/
def joinedArguments (p : Process) : List Char :=
  match (Builtin.separators p).head? with
  | some separator => [separator].intercalate p.arguments
  | none => p.arguments.flatten

/-- A parameter as it is put into a word. -/
def parameterGlyphs (p : Process) (name : List Char) (quoted : Bool) : List Glyph :=
  match name, quoted with
  | ['@'], true => Glyph.ofArguments Glyph.ofQuoted p.arguments
  | ['@'], false | ['*'], false => Glyph.ofArguments Glyph.ofValue p.arguments
  | ['*'], true => Glyph.ofQuoted p.joinedArguments
  | _, true => Glyph.ofQuoted ((p.parameter? name).getD [])
  | _, false => Glyph.ofValue ((p.parameter? name).getD [])

/-- The number that a variable holds, zero if it holds none. -/
def numberIn (p : Process) (name : List Char) : Int :=
  match (p.vars.lookup name).bind integerIn with
  | some (n, _) => n
  | none => 0

end Process

end Treewire.Shell
