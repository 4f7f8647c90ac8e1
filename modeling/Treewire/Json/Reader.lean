import Treewire.Json

/-!
# Reading JSON

A text is cut into tokens, and the tokens are folded into a value with a stack of the containers
that are still open. Both passes are total; a text that is no document gives nothing.
-/

namespace Treewire.Json

inductive Token where
  | openArray
  | closeArray
  | openObject
  | closeObject
  | comma
  | colon
  /-- A value without parts. -/
  | leaf (v : Json)

/-- A text being read: code points, with escapes still unpaired. -/
def pairSurrogates : List Nat → Text
  | [] => []
  | [n] => [.ofCodePoint n]
  | high :: low :: rest =>
    if 0xD800 ≤ high ∧ high < 0xDC00 ∧ 0xDC00 ≤ low ∧ low < 0xE000 then
      .scalar (Char.ofNat (0x10000 + (high - 0xD800) * 1024 + (low - 0xDC00))) ::
        pairSurrogates rest
    else .ofCodePoint high :: pairSurrogates (low :: rest)

def hexValue? (c : Char) : Option Nat :=
  if '0' ≤ c ∧ c ≤ '9' then some (c.toNat - 48)
  else if 'a' ≤ c ∧ c ≤ 'f' then some (c.toNat - 87)
  else if 'A' ≤ c ∧ c ≤ 'F' then some (c.toNat - 55)
  else none

def simpleEscape? : Char → Option Nat
  | '"' => some 0x22
  | '\\' => some 0x5C
  | '/' => some 0x2F
  | 'b' => some 0x08
  | 'f' => some 0x0C
  | 'n' => some 0x0A
  | 'r' => some 0x0D
  | 't' => some 0x09
  | _ => none

/-- The code points up to the closing quote, and what follows it. -/
def quoted : List Char → Option (List Nat × List Char)
  | [] => none
  | '"' :: rest => some ([], rest)
  | '\\' :: 'u' :: a :: b :: c :: d :: rest => do
    let n := (← hexValue? a) * 4096 + (← hexValue? b) * 256 + (← hexValue? c) * 16 + (← hexValue? d)
    let (points, rest) ← quoted rest
    return (n :: points, rest)
  | '\\' :: c :: rest => do
    let n ← simpleEscape? c
    let (points, rest) ← quoted rest
    return (n :: points, rest)
  | c :: rest =>
    if c.toNat < 0x20 then none
    else do
      let (points, rest) ← quoted rest
      return (c.toNat :: points, rest)

def isNumberChar (c : Char) : Bool := c.isDigit || "+-.eE".toList.contains c

def digitsValue (cs : List Char) : Nat := cs.foldl (fun n c => n * 10 + (c.toNat - 48)) 0

/-- An unsigned exponent with its sign in front, possibly. -/
def exponent? (cs : List Char) : Option Int :=
  let plain (digits : List Char) : Option Nat :=
    if digits.isEmpty ∨ digits.any (!·.isDigit) then none else some (digitsValue digits)
  match cs with
  | '-' :: digits => (plain digits).map fun n => -(n : Int)
  | '+' :: digits => (plain digits).map fun n => (n : Int)
  | digits => (plain digits).map fun n => (n : Int)

/-- A number without its sign: an integer unless it has a fraction or an exponent. -/
def unsigned? (negative : Bool) (cs : List Char) : Option Json :=
  let whole := cs.takeWhile Char.isDigit
  let rest := cs.dropWhile Char.isDigit
  if whole.isEmpty ∨ (whole.length > 1 ∧ whole.head? = some '0') then none
  else match rest with
    | [] =>
      let n : Int := digitsValue whole
      some (.int (if negative then -n else n))
    | c :: after =>
      let fraction := if c = '.' then after.takeWhile Char.isDigit else []
      let tail := if c = '.' then after.dropWhile Char.isDigit else rest
      if c = '.' ∧ fraction.isEmpty then none
      else
        let power? : Option Int := match tail with
          | [] => some 0
          | e :: power => if e = 'e' ∨ e = 'E' then exponent? power else none
        power?.map fun power =>
          .float (.ofDecimal negative (digitsValue (whole ++ fraction)) (power - fraction.length))

def number? : List Char → Option Json
  | '-' :: cs => unsigned? true cs
  | cs => unsigned? false cs

def word? (cs : List Char) : Option Json :=
  if cs = "null".toList then some .null
  else if cs = "true".toList then some (.bool true)
  else if cs = "false".toList then some (.bool false)
  else none

/-- The first token of a text that starts with no blank, and what follows it. -/
def token? (c : Char) (rest : List Char) : Option (Token × List Char) :=
  match c with
  | '[' => some (.openArray, rest)
  | ']' => some (.closeArray, rest)
  | '\x7b' => some (.openObject, rest)
  | '\x7d' => some (.closeObject, rest)
  | ',' => some (.comma, rest)
  | ':' => some (.colon, rest)
  | '"' => (quoted rest).map fun (points, rest) => (.leaf (.text (pairSurrogates points)), rest)
  | _ =>
    if c.isAlpha then
      (word? (c :: rest.takeWhile Char.isAlpha)).map fun v => (.leaf v, rest.dropWhile Char.isAlpha)
    else
      (number? (c :: rest.takeWhile isNumberChar)).map fun v =>
        (.leaf v, rest.dropWhile isNumberChar)

/-- The tokens of a text. A token never reaches past the text, so the guard always holds. -/
def tokens? : List Char → Option (List Token)
  | [] => some []
  | c :: rest =>
    if c = ' ' ∨ c = '\t' ∨ c = '\n' ∨ c = '\r' then tokens? rest
    else match token? c rest with
      | none => none
      | some (t, after) =>
        if after.length ≤ rest.length then (tokens? after).map (t :: ·) else none
  termination_by cs => cs.length

/-- A container that is still open, with what it holds so far in reverse. -/
inductive Frame where
  | items (done : List Json)
  | members (done : List (String × Json)) (key : String)

/-- What may come next. -/
inductive Expected where
  | value
  | valueOrClose
  | keyOrClose
  | key
  | colon
  | commaOrClose
  | nothing (result : Json)

structure State where
  stack : List Frame
  expected : Expected

/-- Hands a finished value to the innermost open container. -/
def deliver (v : Json) : List Frame → State
  | [] => ⟨[], .nothing v⟩
  | .items done :: rest => ⟨.items (v :: done) :: rest, .commaOrClose⟩
  | .members done key :: rest => ⟨.members ((key, v) :: done) key :: rest, .commaOrClose⟩

/-- Takes the next token. -/
def State.take? (s : State) (t : Token) : Option State :=
  match s.expected, t, s.stack with
  | .value, .leaf v, stack | .valueOrClose, .leaf v, stack => some (deliver v stack)
  | .value, .openArray, stack | .valueOrClose, .openArray, stack =>
    some ⟨.items [] :: stack, .valueOrClose⟩
  | .value, .openObject, stack | .valueOrClose, .openObject, stack =>
    some ⟨.members [] "" :: stack, .keyOrClose⟩
  | .valueOrClose, .closeArray, .items done :: rest
  | .commaOrClose, .closeArray, .items done :: rest => some (deliver (.array done.reverse) rest)
  | .keyOrClose, .closeObject, .members done _ :: rest
  | .commaOrClose, .closeObject, .members done _ :: rest =>
    some (deliver (.object done.reverse) rest)
  | .keyOrClose, .leaf (.text key), .members done _ :: rest
  | .key, .leaf (.text key), .members done _ :: rest =>
    some ⟨.members done key.toStringLossy :: rest, .colon⟩
  | .colon, .colon, stack => some ⟨stack, .value⟩
  | .commaOrClose, .comma, .items done :: rest => some ⟨.items done :: rest, .value⟩
  | .commaOrClose, .comma, .members done key :: rest => some ⟨.members done key :: rest, .key⟩
  | _, _, _ => none

/-- The value that a text denotes, if it is one document. -/
def parse? (s : String) : Option Json := do
  let tokens ← tokens? s.toList
  let last ← tokens.foldlM State.take? ⟨[], .value⟩
  match last.expected with
  | .nothing v => some v
  | _ => none

end Treewire.Json
