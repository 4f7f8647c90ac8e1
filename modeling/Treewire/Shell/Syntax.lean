/-!
# Commands of the shell

Scripts are octets, and an octet is the character of its number. A word is a sequence of pieces:
characters that stand for themselves, and what is replaced by something else before the command runs.
-/

namespace Treewire.Shell

/-- What is done with a parameter besides taking its value. -/
inductive ParameterUse where
  | value
  | length
  /-- Another word, if the parameter is not set. -/
  | otherwise
  /-- The same, and the parameter gets set to the word. -/
  | assign
  /-- Another word, if the parameter is set. -/
  | instead
  /-- A failure, if the parameter is not set. -/
  | demand
  /-- Without what matches a pattern at the front, as little or as much as possible. -/
  | cutFront (longest : Bool)
  | cutBack (longest : Bool)
  /-- Nothing that there is a meaning for. -/
  | unknown
  deriving DecidableEq, Inhabited

/-- How a file is opened. -/
inductive OpenMode where
  | read
  | write
  | append
  | readWrite
  deriving DecidableEq, Inhabited

inductive Connective where
  | and
  | or
  deriving DecidableEq, Inhabited

mutual
inductive Piece where
  | literal (chars : List Char) (quoted : Bool)
  /-- With `orEmpty`, an empty parameter counts as not set. -/
  | parameter (name : List Char) (use : ParameterUse) (orEmpty : Bool) (word : List Piece)
      (quoted : Bool)
  | output (body : List Command) (quoted : Bool)
  | arithmetic (expression : List Piece) (quoted : Bool)

inductive Redirect where
  | file (descriptor : Nat) (mode : OpenMode) (target : List Piece)
  /-- Makes a descriptor another name for an open one, or closes it. -/
  | duplicate (descriptor : Nat) (target : List Piece)
  /-- Input that stands in the script. -/
  | document (descriptor : Nat) (text : List Piece)

inductive Command where
  | simple (line : Nat) (assignments : List (List Char × List Piece)) (words : List (List Piece))
      (redirects : List Redirect)
  | joined (connective : Connective) (first second : Command)
  | negated (command : Command)
  | pipeline (commands : List Command)
  | sequence (commands : List Command)
  | redirected (line : Nat) (command : Command) (redirects : List Redirect)
  | subshell (command : Command)
  | conditional (condition yes no : Command)
  /-- Repeated as long as the condition succeeds, or with `negated` as long as it fails. -/
  | loop (negated : Bool) (condition body : Command)
  /-- Without words, for each argument. -/
  | each (line : Nat) (name : List Char) (words : Option (List (List Piece))) (body : Command)
  | choice (line : Nat) (word : List Piece) (clauses : List (List (List Piece) × Command))
  | define (name : List Char) (body : Command)
end

instance : Inhabited Piece := ⟨.literal [] false⟩
instance : Inhabited Redirect := ⟨.document 0 []⟩
instance : Inhabited Command := ⟨.sequence []⟩

/-- A script: commands that run one after the other as they are read, up to the place where reading
fails. -/
structure Program where
  commands : List Command
  /-- The line and the fault where reading failed. -/
  fault : Option (Nat × String)
  deriving Inhabited

end Treewire.Shell
