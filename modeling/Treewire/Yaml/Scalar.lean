import Treewire.Json.Reader
import Treewire.Yaml.Cursor

/-!
# Scalars of a YAML stream

Plain and quoted scalars fold their lines: one break between two lines becomes a space, and of more
breaks the first is dropped. Block scalars keep the indentation beyond their own, and treat their
last breaks as their header asks.
-/

namespace Treewire.Yaml

/-- A line break and the blank lines after it, folded. -/
def folded (first blank : List Char) : List Char :=
  if first ≠ ['\n'] then first ++ blank else if blank.isEmpty then [' '] else blank

/-! ## Quoted scalars -/

def simpleEscape? : Char → Option Char
  | '0' => some '\x00'
  | 'a' => some '\x07'
  | 'b' => some '\x08'
  | 't' | '\t' => some '\t'
  | 'n' => some '\n'
  | 'v' => some '\x0b'
  | 'f' => some '\x0c'
  | 'r' => some '\r'
  | 'e' => some '\x1b'
  | ' ' => some ' '
  | '"' => some '"'
  | '\\' => some '\\'
  | '/' => some '/'
  | 'N' => some '\x85'
  | '_' => some '\xa0'
  | 'L' => some '\u2028'
  | 'P' => some '\u2029'
  | _ => none

/-- How many hexadecimal digits an escape by number takes. -/
def escapeWidth? : Char → Option Nat
  | 'x' => some 2
  | 'u' => some 4
  | 'U' => some 8
  | _ => none

/-- The symbol with a code point. -/
def symbolOf (n : Nat) : Except Fault Symbol :=
  if 0x80000000 ≤ n then .error .tooLarge
  else if 0x10FFFF < n then .error .badValue
  else .ok (.ofCodePoint n)

/-- The number that hexadecimal digits write, if all are such. -/
def hexNumber? (digits : List Char) : Option Nat :=
  digits.foldlM (fun n c => (Json.hexValue? c).map (n * 16 + ·)) 0

/-- Blank lines inside a quoted scalar, which no separator of documents may interrupt. -/
def blankLines : Nat → Cursor → Except Fault (List Char × Cursor)
  | 0, _ => .error .malformed
  | fuel + 1, c =>
    if c.atSeparator then .error .malformed
    else do
      let c := c.drop isGap
      match c.takeBreak with
      | ([], c) => return ([], c)
      | (lineBreak, c) =>
        let (more, c) ← blankLines fuel c
        return (lineBreak ++ more, c)

/-- Blanks inside a quoted scalar, folded if they go across lines. -/
def quotedBlanks (c : Cursor) : Except Fault (List Char × Cursor) := do
  let (gap, c) := c.take isGap
  match c.takeBreak with
  | ([], c) => return (gap, c)
  | (lineBreak, c) =>
    let (blank, c) ← blankLines c.bound c
    return (folded lineBreak blank, c)

/-- What the backslash at the cursor stands for. -/
def escaped (c : Cursor) : Except Fault (Text × Cursor) :=
  match c.peekAt 1 with
  | none => .error .malformed
  | some e =>
    match simpleEscape? e, escapeWidth? e with
    | some x, _ => .ok ([.scalar x], c.skip 2)
    | none, some width =>
      let digits := (c.rest.drop 2).take width
      match hexNumber? digits with
      | some n =>
        if digits.length < width then .error .malformed
        else (symbolOf n).map fun s => ([s], c.skip (2 + width))
      | none => .error .malformed
    | none, none =>
      if isBreak e then do
        let (_, c) := c.advance.takeBreak
        let (blank, c) ← blankLines c.bound c
        return (Text.ofChars blank, c)
      else .error .malformed

/-- The text up to the closing quote, and the place after it. -/
def quotedText (mark : Char) : Nat → Cursor → Except Fault (Text × Cursor)
  | 0, _ => .error .malformed
  | fuel + 1, c =>
    let onward (piece : Text) (c : Cursor) : Except Fault (Text × Cursor) := do
      let (more, c) ← quotedText mark fuel c
      return (piece ++ more, c)
    match c.peek with
    | none => .error .malformed
    | some x =>
      if isBlank x then do
        let (blanks, c) ← quotedBlanks c
        onward (Text.ofChars blanks) c
      else if x = mark then
        if mark = '\'' ∧ c.peekAt 1 = some '\'' then onward [.scalar '\''] (c.skip 2)
        else .ok ([], c.advance)
      else if x = '\\' ∧ mark = '"' then do
        let (piece, c) ← escaped c
        onward piece c
      else onward [.scalar x] c.advance

/-- The quoted scalar at the cursor. -/
def quotedScalar (mark : Char) (c : Cursor) : Except Fault (Text × Cursor) :=
  quotedText mark c.bound c.advance

/-! ## Plain scalars -/

def isFlowMark (c : Char) : Bool := c = ',' || c = '[' || c = ']' || c = '\x7b' || c = '\x7d'

/-- The length of a plain scalar's first word. A colon ends it before a blank, and in a flow
collection also before a mark of one; there marks and question marks end it too. -/
def plainWord (flow : Bool) : List Char → Nat
  | [] => 0
  | x :: rest =>
    let colon := x = ':' && (atBlank rest.head? || (flow && rest.head?.any isFlowMark))
    if isBlank x || colon || (flow && (x = '?' || isFlowMark x)) then 0
    else plainWord flow rest + 1

/-- Blank lines and indentation after a break in a plain scalar, unless a separator of documents
comes up. -/
def plainLines : Nat → Cursor → Option (List Char) × Cursor
  | 0, c => (none, c)
  | fuel + 1, c =>
    let c := c.dropSpaces
    match c.takeBreak with
    | ([], c) => (some [], c)
    | (lineBreak, c) =>
      if c.atSeparator then (none, c)
      else
        let (more, c) := plainLines fuel c
        (more.map (lineBreak ++ ·), c)

/-- Blanks after a word of a plain scalar. -/
structure PlainGap where
  /-- What they amount to between two words, nothing if no word can follow. -/
  text : List Char
  /-- Whether they go across lines. -/
  broken : Bool
  cursor : Cursor

def plainGap (c : Cursor) : PlainGap :=
  let (spaces, c) := c.take (· = ' ')
  match c.takeBreak with
  | ([], c) => ⟨spaces, false, c⟩
  | (lineBreak, c) =>
    if c.atSeparator then ⟨[], true, c⟩
    else match plainLines c.bound c with
      | (none, c) => ⟨[], true, c⟩
      | (some blank, c) => ⟨folded lineBreak blank, true, c⟩

/-- A plain scalar as far as it goes. -/
structure Plain where
  text : List Char
  /-- Whether the scan came to a new line. -/
  broken : Bool
  cursor : Cursor

/-- The words of a plain scalar whose lines are indented to a column at least. -/
def plainText (flow : Bool) (column : Int) : Nat → Bool → Cursor → Plain
  | 0, broken, c => ⟨[], broken, c⟩
  | fuel + 1, broken, c =>
    let length := plainWord flow c.rest
    if c.peek = some '#' ∨ length = 0 then ⟨[], broken, c⟩
    else
      let word := c.rest.take length
      let gap := plainGap (c.skip length)
      if gap.text.isEmpty ∨ gap.cursor.peek = some '#' ∨ (!flow ∧ gap.cursor.column < column) then
        ⟨word, gap.broken, gap.cursor⟩
      else
        let more := plainText flow column fuel gap.broken gap.cursor
        if more.text.isEmpty then ⟨word, more.broken, more.cursor⟩
        else ⟨word ++ gap.text ++ more.text, more.broken, more.cursor⟩

/-- The plain scalar at the cursor. -/
def plainScalar (flow : Bool) (column : Int) (c : Cursor) : Plain :=
  plainText flow column c.bound false c

/-! ## Block scalars -/

/-- What becomes of the breaks at the end. -/
inductive Chomping where
  | strip | clip | keep
  deriving DecidableEq

structure BlockHeader where
  chomping : Chomping
  /-- The indentation, relative to the surrounding one. -/
  indentation : Option Nat

def chompingOf? : Option Char → Option Chomping
  | some '+' => some .keep
  | some '-' => some .strip
  | _ => none

def indentationOf? : Option Char → Option Nat
  | some c => if c.isDigit then some (c.toNat - 0x30) else none
  | none => none

/-- The header after the mark of a block scalar, and the place where its line ends. -/
def blockHeader (c : Cursor) : Except Fault (BlockHeader × Cursor) :=
  let chompingFirst := chompingOf? c.peek
  let c := if chompingFirst.isSome then c.advance else c
  let indentation := indentationOf? c.peek
  let c := if indentation.isSome then c.advance else c
  let chompingLast := if chompingFirst.isNone ∧ indentation.isSome then chompingOf? c.peek else none
  let c := if chompingLast.isSome then c.advance else c
  let header : BlockHeader := ⟨(chompingFirst.or chompingLast).getD .clip, indentation⟩
  let last := c.dropSpaces.dropComment
  if indentation = some 0 ∨ !atSpace c.peek ∨ !atBreak last.peek then .error .malformed
  else .ok (header, last.takeBreak.2)

/-- Breaks before the first line of a block scalar, and how far blank lines are indented. -/
def blockLead : Nat → Nat → Cursor → List Char × Nat × Cursor
  | 0, widest, c => ([], widest, c)
  | fuel + 1, widest, c =>
    let c := c.dropSpaces
    let widest := max widest c.column
    match c.takeBreak with
    | ([], c) => ([], widest, c)
    | (lineBreak, c) =>
      let (more, widest, c) := blockLead fuel widest c
      (lineBreak ++ more, widest, c)

/-- After spaces up to a column. -/
def dropIndentation (column : Nat) (c : Cursor) : Cursor :=
  c.skip (min (column - c.column) (c.rest.takeWhile (· = ' ')).length)

/-- Breaks between lines of a block scalar with the given indentation. -/
def blockBreaks (column : Nat) : Nat → Cursor → List Char × Cursor
  | 0, c => ([], c)
  | fuel + 1, c =>
    let c := dropIndentation column c
    match c.takeBreak with
    | ([], c) => ([], c)
    | (lineBreak, c) =>
      let (more, c) := blockBreaks column fuel c
      (lineBreak ++ more, c)

/-- The lines of a block scalar, with the break of its last line and those after it apart. -/
structure Block where
  text : List Char
  lastBreak : List Char
  breaks : List Char
  cursor : Cursor

/-- What stands between two lines of a block scalar. Folding spares lines that start with a gap. -/
def lineJoint (fold : Bool) (lineBreak breaks : List Char) (gapBefore gapAfter : Bool) :
    List Char :=
  if fold ∧ lineBreak = ['\n'] ∧ !gapBefore ∧ !gapAfter then
    if breaks.isEmpty then [' '] else []
  else lineBreak

def startsGap (c : Cursor) : Bool := c.peek.any isGap

def blockLines (fold : Bool) (column : Nat) : Nat → List Char → Cursor → Block
  | 0, breaks, c => ⟨[], [], breaks, c⟩
  | fuel + 1, breaks, c =>
    let within (c : Cursor) : Bool := c.column = column && c.peek.isSome
    if within c then
      let (line, after) := c.take (!isBreak ·)
      let (lineBreak, after) := after.takeBreak
      let (next, after) := blockBreaks column after.bound after
      if within after then
        let joint := lineJoint fold lineBreak next (startsGap c) (startsGap after)
        let more := blockLines fold column fuel next after
        { more with text := breaks ++ line ++ joint ++ more.text }
      else ⟨breaks ++ line, lineBreak, next, after⟩
    else ⟨[], [], breaks, c⟩

/-- The block scalar at the cursor, inside a block of the given indentation. -/
def blockScalar (fold : Bool) (surrounding : Int) (c : Cursor) :
    Except Fault (List Char × Cursor) := do
  let (header, c) ← blockHeader c.advance
  let least := max 1 (surrounding + 1).toNat
  let (breaks, column, c) := match header.indentation with
    | some n =>
      let column := least + n - 1
      let (breaks, c) := blockBreaks column c.bound c
      (breaks, column, c)
    | none =>
      let (breaks, widest, c) := blockLead c.bound 0 c
      (breaks, max least widest, c)
  let block := blockLines fold column c.bound breaks c
  let tail := match header.chomping with
    | .strip => []
    | .clip => block.lastBreak
    | .keep => block.lastBreak ++ block.breaks
  return (block.text ++ tail, block.cursor)

end Treewire.Yaml
