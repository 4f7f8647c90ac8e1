/-!
# Patterns of characters

A regular pattern is matched by derivatives: reading a character turns a pattern into the pattern
of what may follow, and a text matches when the pattern left at its end accepts the empty text.
-/

namespace Treewire

inductive Pattern where
  /-- Nothing matches. -/
  | never
  /-- The empty text matches. -/
  | empty
  | one (accepts : Char → Bool)
  | andThen (first second : Pattern)
  | either (left right : Pattern)
  /-- Any number of repetitions. -/
  | many (repeated : Pattern)
  deriving Inhabited

namespace Pattern

/-- Whether the empty text matches. -/
def acceptsEmpty : Pattern → Bool
  | .never | .one _ => false
  | .empty | .many _ => true
  | .andThen first second => first.acceptsEmpty && second.acceptsEmpty
  | .either left right => left.acceptsEmpty || right.acceptsEmpty

/-- In sequence, without the parts that add nothing. -/
def follow : Pattern → Pattern → Pattern
  | .never, _ => .never
  | .empty, second => second
  | first, second => .andThen first second

/-- Side by side, without the parts that add nothing. -/
def beside : Pattern → Pattern → Pattern
  | .never, right => right
  | left, .never => left
  | left, right => .either left right

/-- What may follow a character. -/
def derive (c : Char) : Pattern → Pattern
  | .never | .empty => .never
  | .one accepts => if accepts c then .empty else .never
  | .andThen first second =>
    let carried := follow (first.derive c) second
    if first.acceptsEmpty then beside carried (second.derive c) else carried
  | .either left right => beside (left.derive c) (right.derive c)
  | .many repeated => follow (repeated.derive c) (.many repeated)

/-- Whether the whole text matches. -/
def matches? (p : Pattern) (cs : List Char) : Bool :=
  (cs.foldl (fun p c => p.derive c) p).acceptsEmpty

/-- One of the characters of a string. -/
def oneOf (s : String) : Pattern := .one s.toList.contains

/-- The characters of a string, in order. -/
def word (s : String) : Pattern :=
  s.toList.foldr (fun c p => .andThen (.one (· == c)) p) .empty

def optional (p : Pattern) : Pattern := .either .empty p

/-- At least one repetition. -/
def oneOrMore (p : Pattern) : Pattern := .andThen p (.many p)

/-- All in order. -/
def sequence (ps : List Pattern) : Pattern := ps.foldr .andThen .empty

/-- Any of them. -/
def choice (ps : List Pattern) : Pattern := ps.foldr .either .never

def digit : Pattern := .one Char.isDigit

end Pattern

end Treewire
