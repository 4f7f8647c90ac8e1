import Treewire.Json.Reader
import Treewire.Text.Octet
import Treewire.Text.Utf8

/-!
# Tokens of schema files

A schema file is read octet by octet. Comments and blanks separate tokens; a string stands on one
line, and everything beyond ASCII is left to strings and comments.
-/

namespace Treewire.Proto

inductive Token where
  | word (s : String)
  | integer (n : Nat)
  | real
  | string (octets : Bytes)
  | mark (c : Char)
  deriving DecidableEq, Inhabited

def isBlank (c : Char) : Bool := c = ' ' || ('\t' ≤ c && c ≤ '\r')

def isWordStart (c : Char) : Bool := c.isAlpha || c = '_'

def isWordChar (c : Char) : Bool := c.isAlphanum || c = '_'

/-! ## Comments -/

/-- What follows the end of a block comment. One may not start inside another. -/
def afterComment? : List Char → Option (List Char)
  | '*' :: '/' :: rest => some rest
  | '/' :: '*' :: _ => none
  | _ :: rest => afterComment? rest
  | [] => none

/-! ## Numbers -/

def digitsValue (base : Nat) (cs : List Char) : Nat :=
  cs.foldl (fun n c => n * base + (Json.hexValue? c).getD 0) 0

def isOctalDigit (c : Char) : Bool := '0' ≤ c && c ≤ '7'

/-- Whether a number may end before a character. -/
def endsNumber : Option Char → Bool
  | some c => !(isWordStart c || c.isDigit || c = '.')
  | none => true

/-- The exponent of a number, if there is one, and what follows it. -/
def exponent? : List Char → Option (Bool × List Char)
  | e :: rest =>
    if e = 'e' ∨ e = 'E' then
      let rest := match rest with
        | c :: more => if c = '+' ∨ c = '-' then more else rest
        | [] => []
      if rest.head?.any Char.isDigit then some (true, rest.dropWhile Char.isDigit) else none
    else some (false, e :: rest)
  | [] => some (false, [])

/-- A decimal number that starts with a digit or a point, and what follows it. -/
def decimal? (cs : List Char) : Option (Token × List Char) := do
  let whole := cs.takeWhile Char.isDigit
  let (pointed, rest) := match cs.dropWhile Char.isDigit with
    | '.' :: rest => (true, rest.dropWhile Char.isDigit)
    | rest => (false, rest)
  let (powered, rest) ← exponent? rest
  return (if pointed ∨ powered then .real else .integer (digitsValue 10 whole), rest)

/-- The number at the start of a text, and what follows it. A zero in front announces octal or, with
an `x`, hexadecimal digits. -/
def number? (cs : List Char) : Option (Token × List Char) := do
  let (token, rest) ← match cs with
    | '0' :: c :: rest =>
      if c = 'x' ∨ c = 'X' then
        let digits := rest.takeWhile fun c => (Json.hexValue? c).isSome
        if digits.isEmpty then none
        else some (.integer (digitsValue 16 digits), rest.drop digits.length)
      else if c.isDigit then
        let digits := (c :: rest).takeWhile isOctalDigit
        some (.integer (digitsValue 8 digits), (c :: rest).drop digits.length)
      else decimal? cs
    | _ => decimal? cs
  if endsNumber rest.head? then some (token, rest) else none

/-! ## Strings -/

def simpleEscape? : Char → Option UInt8
  | 'a' => some 7
  | 'b' => some 8
  | 'f' => some 12
  | 'n' => some 10
  | 'r' => some 13
  | 't' => some 9
  | 'v' => some 11
  | '\\' => some 92
  | '?' => some 63
  | '\'' => some 39
  | '"' => some 34
  | _ => none

/-- The longest run of digits of a kind, up to a number of them. -/
def digitRun (p : Char → Bool) (limit : Nat) (cs : List Char) : List Char :=
  (cs.take limit).takeWhile p

def isHexDigit (c : Char) : Bool := (Json.hexValue? c).isSome

/-- What the text after a backslash stands for, and how long it is. -/
def escape? (cs : List Char) : Option (Bytes × Nat) :=
  match cs with
  | [] => none
  | c :: rest =>
    match simpleEscape? c with
    | some b => some ([b], 1)
    | none =>
      if isOctalDigit c then
        let digits := digitRun isOctalDigit 3 cs
        some ([UInt8.ofNat (digitsValue 8 digits)], digits.length)
      else if c = 'x' ∨ c = 'X' then
        let digits := digitRun isHexDigit 2 rest
        if digits.isEmpty then none
        else some ([UInt8.ofNat (digitsValue 16 digits)], digits.length + 1)
      else if c = 'u' ∨ c = 'U' then
        let width := if c = 'u' then 4 else 8
        let digits := digitRun isHexDigit width rest
        let n := digitsValue 16 digits
        if digits.length < width ∨ 0x10FFFF < n then none
        else some (Utf8.encodeChar (Char.ofNat n), width + 1)
      else none

/-- The octets up to the closing quote, and what follows it. -/
def string? (quote : Char) : Nat → List Char → Option (Bytes × List Char)
  | 0, _ => none
  | fuel + 1, cs =>
    match cs with
    | [] => none
    | c :: rest =>
      if c = quote then some ([], rest)
      else if c = '\n' then none
      else if c = '\\' then do
        let (octets, length) ← escape? rest
        let (more, rest) ← string? quote fuel (rest.drop length)
        return (octets ++ more, rest)
      else do
        let (more, rest) ← string? quote fuel rest
        return (UInt8.ofNat c.toNat :: more, rest)

/-! ## The scan -/

/-- The token at the start of a text that starts neither with a blank nor with a comment, and what
follows it. -/
def token? (c : Char) (rest : List Char) : Option (Token × List Char) :=
  if isWordStart c then
    let word := (c :: rest).takeWhile isWordChar
    some (.word (String.ofList word), (c :: rest).drop word.length)
  else if c.isDigit ∨ (c = '.' ∧ rest.head?.any Char.isDigit) then number? (c :: rest)
  else if c = '"' ∨ c = '\'' then
    (string? c (rest.length + 1) rest).map fun (octets, rest) => (.string octets, rest)
  else if c < ' ' ∨ '\x7f' < c then none
  else some (.mark c, rest)

/-- The tokens of a text; every step leaves less of it. -/
def tokensFrom? : Nat → List Char → Option (List Token)
  | 0, _ => none
  | fuel + 1, cs =>
    match cs with
    | [] => some []
    | '/' :: '/' :: rest => tokensFrom? fuel (rest.dropWhile (· != '\n'))
    | '/' :: '*' :: rest => (afterComment? rest).bind (tokensFrom? fuel)
    | c :: rest =>
      if isBlank c then tokensFrom? fuel rest
      else do
        let (token, rest) ← token? c rest
        return token :: (← tokensFrom? fuel rest)

/-- The byte order mark, as characters of single octets. -/
def orderMark : List Char := ['\xef', '\xbb', '\xbf']

/-- The tokens of a file. A byte order mark at its start is passed over. -/
def tokens? (file : Bytes) : Option (List Token) :=
  if file.contains 0 then none
  else
    let cs := octetChars file
    let cs := if orderMark.isPrefixOf cs then cs.drop 3 else cs
    tokensFrom? (cs.length + 1) cs

end Treewire.Proto
