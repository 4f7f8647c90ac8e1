import Treewire.Shell.Grammar
import Treewire.Shell.Print

/-!
# Arithmetic

Expressions over 64-bit integers, with the operators and precedences of most languages.
-/

namespace Treewire.Shell.Arithmetic

inductive Fault where
  | malformed
  | divisionByZero
  deriving DecidableEq, Inhabited

def Fault.message : Fault → String
  | .malformed => "expecting primary"
  | .divisionByZero => "division by zero"

abbrev Answer := Except Fault (Int × List Char)

def wrap (n : Int) : Int := Int.bmod n 0x10000000000000000

def truth (b : Bool) : Int := if b then 1 else 0

def dropSpaces (cs : List Char) : List Char := cs.dropWhile fun c => c = ' ' || ('\t' ≤ c && c ≤ '\r')

/-- Operators with their precedences, longer ones before those that they start with. -/
def operators : List (String × Nat) :=
  [("||", 1), ("&&", 2), ("==", 6), ("!=", 6), ("<=", 7), (">=", 7), ("<<", 8), (">>", 8),
    ("|", 3), ("^", 4), ("&", 5), ("<", 7), (">", 7), ("+", 9), ("-", 9), ("*", 10), ("/", 10),
    ("%", 10)]

/-- The operator in front, its precedence, and what follows it. -/
def operatorIn (cs : List Char) : Option (String × Nat × List Char) :=
  (operators.find? fun o => o.1.toList.isPrefixOf cs).map fun o => (o.1, o.2, cs.drop o.1.length)

/-- The bits of a number, as a system keeps them. -/
def word (n : Int) : BitVec 64 := BitVec.ofInt 64 n

def apply (operator : String) (a b : Int) : Except Fault Int :=
  match operator with
  | "+" => .ok (wrap (a + b))
  | "-" => .ok (wrap (a - b))
  | "*" => .ok (wrap (a * b))
  | "/" => if b = 0 then .error .divisionByZero else .ok (wrap (Int.tdiv a b))
  | "%" => if b = 0 then .error .divisionByZero else .ok (Int.tmod a b)
  | "<<" => .ok ((word a) <<< (b % 64).toNat).toInt
  | ">>" => .ok ((word a).sshiftRight (b % 64).toNat).toInt
  | "|" => .ok ((word a) ||| (word b)).toInt
  | "&" => .ok ((word a) &&& (word b)).toInt
  | "^" => .ok ((word a) ^^^ (word b)).toInt
  | "==" => .ok (truth (a = b))
  | "!=" => .ok (truth (a ≠ b))
  | "<" => .ok (truth (a < b))
  | ">" => .ok (truth (a > b))
  | "<=" => .ok (truth (a ≤ b))
  | ">=" => .ok (truth (a ≥ b))
  | "&&" => .ok (truth (a ≠ 0 && b ≠ 0))
  | _ => .ok (truth (a ≠ 0 || b ≠ 0))

mutual

/-- A number, a variable, a sign before an operand, or an expression in brackets. -/
def operand (value : List Char → Int) (fuel : Nat) (cs : List Char) : Answer :=
  match fuel with
  | 0 => .error .malformed
  | fuel + 1 =>
    match dropSpaces cs with
    | '(' :: rest => do
      let (n, rest) ← expression value fuel rest
      match dropSpaces rest with
      | ')' :: rest => return (n, rest)
      | _ => throw .malformed
    | '-' :: rest => do
      let (n, rest) ← operand value fuel rest
      return (wrap (-n), rest)
    | '+' :: rest => operand value fuel rest
    | '!' :: rest => do
      let (n, rest) ← operand value fuel rest
      return (truth (n = 0), rest)
    | '~' :: rest => do
      let (n, rest) ← operand value fuel rest
      return (-n - 1, rest)
    | rest =>
      match nameIn rest with
      | ([], rest) =>
        if rest.head?.any Char.isDigit then
          match integerIn rest with
          | some (n, rest) => .ok (wrap n, rest)
          | none => .error .malformed
        else .error .malformed
      | (name, rest) => .ok (value name, rest)
  termination_by structural fuel

/-- Operands joined by operators of a precedence at least. -/
def climb (value : List Char → Int) (fuel : Nat) (least : Nat) (left : Int) (cs : List Char) :
    Answer :=
  match fuel with
  | 0 => .error .malformed
  | fuel + 1 =>
    match operatorIn (dropSpaces cs) with
    | none => .ok (left, cs)
    | some (operator, precedence, rest) =>
      if precedence < least then .ok (left, cs)
      else do
        let (right, rest) ← operand value fuel rest
        let (right, rest) ← climb value fuel (precedence + 1) right rest
        climb value fuel least (← apply operator left right) rest
  termination_by structural fuel

def expression (value : List Char → Int) (fuel : Nat) (cs : List Char) : Answer :=
  match fuel with
  | 0 => .error .malformed
  | fuel + 1 => do
    let (first, rest) ← operand value fuel cs
    let (condition, rest) ← climb value fuel 1 first rest
    match dropSpaces rest with
    | '?' :: rest =>
      let (yes, rest) ← expression value fuel rest
      match dropSpaces rest with
      | ':' :: rest =>
        let (no, rest) ← expression value fuel rest
        return (if condition ≠ 0 then yes else no, rest)
      | _ => throw .malformed
    | rest => return (condition, rest)
  termination_by structural fuel

end

/-- The value of an expression, which is zero if there is none. -/
def evaluate (value : List Char → Int) (cs : List Char) : Except Fault Int :=
  if dropSpaces cs = [] then .ok 0
  else do
    let (n, rest) ← expression value (4 * cs.length + 8) cs
    if dropSpaces rest = [] then return n else throw .malformed

end Treewire.Shell.Arithmetic
