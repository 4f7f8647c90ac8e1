import Treewire.Shell.Print

/-!
# Tests

The expressions of `test`: properties of files, comparisons of texts and numbers, and their
combinations.
-/

namespace Treewire.Shell

/-- Properties of what is at a path. -/
inductive FileProperty where
  | present
  | regular
  | directory
  | link
  | pipe
  | device
  | accessible
  | executable
  | notEmpty
  deriving DecidableEq, Inhabited

namespace Test

def fileProperty? : List Char → Option FileProperty
  | ['-', 'e'] => some .present
  | ['-', 'f'] => some .regular
  | ['-', 'd'] => some .directory
  | ['-', 'L'] | ['-', 'h'] => some .link
  | ['-', 'p'] => some .pipe
  | ['-', 'b'] | ['-', 'c'] | ['-', 'S'] | ['-', 'g'] | ['-', 'u'] | ['-', 'k'] => some .device
  | ['-', 'r'] | ['-', 'w'] => some .accessible
  | ['-', 'x'] => some .executable
  | ['-', 's'] => some .notEmpty
  | _ => none

def isUnary (word : List Char) : Bool :=
  (fileProperty? word).isSome || [['-', 'n'], ['-', 'z'], ['-', 't']].contains word

def isBinary (word : List Char) : Bool :=
  ["=", "==", "!=", "<", ">", "-eq", "-ne", "-lt", "-le", "-gt", "-ge"].any (·.toList = word)

/-- A number among blanks. -/
def numberOf (word : List Char) : Except (List Char) Int :=
  let trimmed := word.dropWhile (· = ' ')
  let (negative, digits) := match trimmed with
    | '-' :: rest => (true, rest)
    | '+' :: rest => (false, rest)
    | _ => (false, trimmed)
  let body := digits.takeWhile Char.isDigit
  if body = [] || (digits.drop body.length).any (· != ' ') then
    .error ("Illegal number: ".toList ++ word)
  else .ok (if negative then -(valueIn 10 body : Int) else valueIn 10 body)

def compareTexts (operator : String) (a b : List Char) : Option Bool :=
  match operator with
  | "=" | "==" => some (a = b)
  | "!=" => some (a ≠ b)
  | "<" => some (decide (a < b))
  | ">" => some (decide (b < a))
  | _ => none

def compareNumbers (operator : String) (a b : Int) : Bool :=
  match operator with
  | "-eq" => a = b
  | "-ne" => a ≠ b
  | "-lt" => a < b
  | "-le" => a ≤ b
  | "-gt" => a > b
  | _ => a ≥ b

def binary (operator a b : List Char) : Except (List Char) Bool :=
  let operator := String.ofList operator
  match compareTexts operator a b with
  | some answer => .ok answer
  | none => do return compareNumbers operator (← numberOf a) (← numberOf b)

def unary (has : FileProperty → List Char → Bool) (operator word : List Char) : Bool :=
  match fileProperty? operator with
  | some property => has property word
  | none =>
    match operator with
    | ['-', 'n'] => word != []
    | ['-', 'z'] => word = []
    | _ => false

/-- Whether an operator for one word stands here as a word itself. -/
def isOperand : List (List Char) → Bool
  | [] => true
  | [_] => false
  | next :: _ => isBinary next

mutual

def disjunction (has : FileProperty → List Char → Bool) (fuel : Nat) (words : List (List Char)) :
    Except (List Char) (Bool × List (List Char)) :=
  match fuel with
  | 0 => .ok (false, words)
  | fuel + 1 => do
    let (first, rest) ← conjunction has fuel words
    match rest with
    | ['-', 'o'] :: more =>
      let (second, rest) ← disjunction has fuel more
      return (first || second, rest)
    | _ => return (first, rest)
  termination_by structural fuel

def conjunction (has : FileProperty → List Char → Bool) (fuel : Nat) (words : List (List Char)) :
    Except (List Char) (Bool × List (List Char)) :=
  match fuel with
  | 0 => .ok (false, words)
  | fuel + 1 => do
    let (first, rest) ← negation has fuel words
    match rest with
    | ['-', 'a'] :: more =>
      let (second, rest) ← conjunction has fuel more
      return (first && second, rest)
    | _ => return (first, rest)
  termination_by structural fuel

def negation (has : FileProperty → List Char → Bool) (fuel : Nat) (words : List (List Char)) :
    Except (List Char) (Bool × List (List Char)) :=
  match fuel with
  | 0 => .ok (false, words)
  | fuel + 1 =>
    match words with
    | ['!'] :: rest => do
      let (answer, rest) ← negation has fuel rest
      return (!answer, rest)
    | _ => primary has fuel words
  termination_by structural fuel

def primary (has : FileProperty → List Char → Bool) (fuel : Nat) (words : List (List Char)) :
    Except (List Char) (Bool × List (List Char)) :=
  match fuel with
  | 0 => .ok (false, words)
  | fuel + 1 =>
    match words with
    | [] => .ok (false, [])
    | word :: rest =>
      if word = ['('] && !rest.isEmpty then do
        let (answer, rest) ← disjunction has fuel rest
        match rest with
        | [')'] :: rest => return (answer, rest)
        | _ => throw "closing paren expected".toList
      else if isUnary word && !isOperand rest then
        .ok (unary has word (rest.head?.getD []), rest.drop 1)
      else match rest with
        | operator :: more =>
          if isBinary operator then
            match more with
            | second :: rest => do return (← binary operator word second, rest)
            | [] => throw (operator ++ ": argument expected".toList)
          else .ok (word != [], rest)
        | [] => .ok (word != [], [])
  termination_by structural fuel

end

/-- The answer of all words. If some are left over, the fault is named after the last one before them. -/
def whole (has : FileProperty → List Char → Bool) (words : List (List Char)) :
    Except (List Char) Bool := do
  let (answer, rest) ← disjunction has (8 * words.length + 8) words
  match rest with
  | [] => return answer
  | _ :: _ =>
    let last := (words.take (words.length - rest.length)).getLast?.getD []
    throw (last ++ ": unexpected operator".toList)

/-- The answer to a test. Three words with an operator in the middle are always a comparison, and
otherwise brackets or a negation around three or four words come first. -/
def evaluate (has : FileProperty → List Char → Bool) : List (List Char) → Except (List Char) Bool
  | [] => .ok false
  | [a, operator, b] =>
    if isBinary operator then binary operator a b
    else if a = ['('] && b = [')'] then whole has [operator]
    else if a = ['!'] then do return !(← whole has [operator, b])
    else whole has [a, operator, b]
  | [a, b, c, d] =>
    if a = ['('] && d = [')'] then whole has [b, c]
    else if a = ['!'] then do return !(← evaluate has [b, c, d])
    else whole has [a, b, c, d]
  | words => whole has words

end Test

end Treewire.Shell
