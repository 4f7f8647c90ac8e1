import Treewire.Text

/-!
# Places in a YAML stream

A cursor is a place in the stream together with what follows it. Lines end at a line feed, a next
line mark, or a line or paragraph separator; a byte order mark takes no column. The end of the
stream counts as a line end, and line ends count as blanks.
-/

namespace Treewire.Yaml

/-- Why a stream gives no value. -/
inductive Fault where
  /-- The stream is not YAML, or a node is not what its tag asks for. -/
  | malformed
  /-- A number, a date or an escaped code point that does not exist. -/
  | badValue
  /-- An escaped code point, or a power of sixty, too large to be handled at all. -/
  | tooLarge
  /-- A truth value that is neither of the two. -/
  | unknownTruth
  /-- A number without any digit or sign. -/
  | emptyNumber
  /-- A point of time that is not written as one. -/
  | notTimestamp
  /-- A point of time given by a mapping. -/
  | mappedTimestamp
  /-- A mapping that stands for a scalar which it stands for itself. -/
  | endless
  deriving DecidableEq, Inhabited

def isBreak (c : Char) : Bool := c = '\n' || c = '\x85' || c = '\u2028' || c = '\u2029'

def isGap (c : Char) : Bool := c = ' ' || c = '\t'

def isBlank (c : Char) : Bool := isGap c || isBreak c

/-- Characters of names: anchors, directives and tag handles. -/
def isWordChar (c : Char) : Bool := c.isAlphanum || c = '-' || c = '_'

/-- A line ends here. -/
def atBreak : Option Char → Bool
  | none => true
  | some c => isBreak c

/-- A line ends here, or a space follows. -/
def atSpace (c : Option Char) : Bool := c = some ' ' || atBreak c

/-- A line ends here, or a space or tab follows. -/
def atBlank (c : Option Char) : Bool := c = some '\t' || atSpace c

structure Cursor where
  rest : List Char
  index : Nat
  line : Nat
  column : Nat
  deriving Inhabited

namespace Cursor

def start (cs : List Char) : Cursor := ⟨cs, 0, 0, 0⟩

def peek (c : Cursor) : Option Char := c.rest.head?

def peekAt (c : Cursor) (n : Nat) : Option Char := c.rest[n]?

/-- After the next character. -/
def advance (c : Cursor) : Cursor :=
  match c.rest with
  | [] => c
  | x :: rest =>
    if isBreak x then ⟨rest, c.index + 1, c.line + 1, 0⟩
    else ⟨rest, c.index + 1, c.line, if x = '\ufeff' then c.column else c.column + 1⟩

/-- After that many characters. -/
def skip : Nat → Cursor → Cursor
  | 0, c => c
  | n + 1, c => skip n c.advance

/-- The characters from here that satisfy a test, and the place after them. -/
def take (p : Char → Bool) (c : Cursor) : List Char × Cursor :=
  let word := c.rest.takeWhile p
  (word, c.skip word.length)

def drop (p : Char → Bool) (c : Cursor) : Cursor := (c.take p).2

def dropSpaces (c : Cursor) : Cursor := c.drop (· = ' ')

/-- After a comment, if one starts here. -/
def dropComment (c : Cursor) : Cursor :=
  if c.peek = some '#' then c.drop (!isBreak ·) else c

/-- A line break, as it counts in a text, and the place after it; nothing if there is none. -/
def takeBreak (c : Cursor) : List Char × Cursor :=
  match c.peek with
  | some x =>
    if x = '\n' ∨ x = '\x85' then (['\n'], c.advance)
    else if isBreak x then ([x], c.advance)
    else ([], c)
  | none => ([], c)

/-- Whether a mark between documents stands here, on the supposition that a line starts. -/
def atSeparator (c : Cursor) : Bool :=
  (['-', '-', '-'].isPrefixOf c.rest || ['.', '.', '.'].isPrefixOf c.rest) && atBlank (c.peekAt 3)

/-- An upper bound for the number of steps of a scan that moves ahead with each. -/
def bound (c : Cursor) : Nat := c.rest.length + 1

end Cursor

end Treewire.Yaml
