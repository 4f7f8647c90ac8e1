import Treewire.CommandLine.Run

/-!
# Answers on a screen

A table is framed, under its title; its columns are as wide as their widest cells.
-/

namespace Treewire.CommandLine

namespace Table

/-- A cell, filled with blanks up to a width. -/
def cell (width : Nat) (t : Text) : Text :=
  t ++ List.replicate (width - t.length) (.scalar ' ')

/-- The width of the widest of some cells. -/
def widest (cells : List Text) : Nat := (cells.map List.length).foldl max 0

/-- A line between a left, a middle and a right corner. -/
def rule (left middle right : String) (widths : Nat × Nat) : Text :=
  let line (width : Nat) : String := String.ofList (List.replicate (width + 2) '─')
  Text.ofString (left ++ line widths.1 ++ middle ++ line widths.2 ++ right)

def row (widths : Nat × Nat) (item value : Text) : Text :=
  Text.ofString "│ " ++ cell widths.1 item ++ Text.ofString " │ " ++ cell widths.2 value ++
    Text.ofString " │"

def lines (t : Table) : List Text :=
  let widths := (widest (t.rows.map fun r => Text.ofString r.1), widest (t.rows.map (·.2)))
  let margin := (widths.1 + widths.2 + 7 - t.title.length) / 2
  [Text.ofString (String.ofList (List.replicate margin ' ') ++ t.title), rule "┌" "┬" "┐" widths] ++
    t.rows.map (fun r => row widths (Text.ofString r.1) r.2) ++ [rule "└" "┴" "┘" widths]

end Table

def Output.display : Output → Text
  | .text t => t
  | .table t => t.lines.flatMap (· ++ [.scalar '\n'])

/-- How the program is used. -/
def manual : Text :=
  Text.ofString "usage: jsast check [OPTIONS]\n       jsast parse [OPTIONS] [-e CODE] [FILE ...]\n"

namespace Answer

def display : Answer → Text
  | .usage _ | .help => manual
  | .done _ output => output.display

/-- The status with which the program ends. -/
def status : Answer → Nat
  | .usage status | .done status _ => status
  | .help => 1

end Answer

end Treewire.CommandLine
