/-!
# Patterns

A star matches any text, a question mark any symbol, and a bracket the symbols of a class. Quoted
symbols match only themselves.
-/

namespace Treewire.Shell

/-- A symbol, and whether it may mean something else than itself. -/
structure PatternChar where
  char : Char
  active : Bool
  deriving DecidableEq, Inhabited

namespace Pattern

/-- Whether a class has a symbol. -/
def classHas (c : Char) : List PatternChar → Bool
  | a :: ⟨'-', true⟩ :: b :: rest => (a.char ≤ c && c ≤ b.char) || classHas c rest
  | a :: rest => a.char = c || classHas c rest
  | [] => false

/-- The members of the class after an opening bracket, whether they are excluded, and what follows
the class. -/
def classIn (ps : List PatternChar) : Option (List PatternChar × Bool × List PatternChar) :=
  let (excluded, ps) := match ps with
    | ⟨'!', true⟩ :: rest | ⟨'^', true⟩ :: rest => (true, rest)
    | _ => (false, ps)
  let isEnd (p : PatternChar) : Bool := p = ⟨']', true⟩
  match ps with
  | [] => none
  | first :: rest =>
    let members := rest.takeWhile (!isEnd ·)
    match rest.drop members.length with
    | _ :: after => some (first :: members, excluded, after)
    | [] => none

/-- Whether a pattern matches the whole of a text. Every step takes a symbol of one of them. -/
def accepts : Nat → List PatternChar → List Char → Bool
  | 0, _, _ => false
  | _ + 1, [], cs => cs.isEmpty
  | fuel + 1, p :: rest, cs =>
    if p = ⟨'*', true⟩ then
      accepts fuel rest cs || match cs with
        | [] => false
        | _ :: after => accepts fuel (p :: rest) after
    else match cs with
      | [] => false
      | c :: after =>
        if p = ⟨'?', true⟩ then accepts fuel rest after
        else if p = ⟨'[', true⟩ then
          match classIn rest with
          | some (members, excluded, rest) =>
            (classHas c members != excluded) && accepts fuel rest after
          | none => c = '[' && accepts fuel rest after
        else p.char = c && accepts fuel rest after

def matchesAll (ps : List PatternChar) (cs : List Char) : Bool :=
  accepts (ps.length + cs.length + 1) ps cs

/-- How many symbols a matching front takes, as few or as many as possible. -/
def front? (ps : List PatternChar) (longest : Bool) (cs : List Char) : Option Nat :=
  let lengths := List.range (cs.length + 1)
  (if longest then lengths.reverse else lengths).find? fun n => matchesAll ps (cs.take n)

def back? (ps : List PatternChar) (longest : Bool) (cs : List Char) : Option Nat :=
  let lengths := List.range (cs.length + 1)
  (if longest then lengths.reverse else lengths).find? fun n =>
    matchesAll ps (cs.drop (cs.length - n))

end Pattern

end Treewire.Shell
