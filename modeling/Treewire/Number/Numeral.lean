import Treewire.Text.Digit
import Treewire.Number.Binary

/-!
# Numerals

Reading numbers from texts that users write: blanks around the numeral are passed over, a sign may
come first, and the digits may be of any script.
-/

namespace Treewire.Numeral

def isBlank (c : Char) : Bool := c = ' ' || ('\t' ≤ c && c ≤ '\r')

/-- The characters of a numeral without blanks around them. -/
def chars? (t : Text) : Option (List Char) :=
  (t.mapM Symbol.numeralChar?).map fun cs =>
    ((cs.dropWhile isBlank).reverse.dropWhile isBlank).reverse

/-- The sign in front, and what it is the sign of. -/
def sign : List Char → Bool × List Char
  | '-' :: rest => (true, rest)
  | '+' :: rest => (false, rest)
  | cs => (false, cs)

/-- The letter that announces a base after a zero. -/
def baseMark? : Nat → Option Char
  | 2 => some 'b'
  | 8 => some 'o'
  | 16 => some 'x'
  | _ => none

/-- Without an announcement of the base. -/
def dropBaseMark (base : Nat) : List Char → List Char
  | '0' :: c :: rest => if some c.toLower = baseMark? base then rest else '0' :: c :: rest
  | cs => cs

/-- The value of a letter or digit in bases up to sixteen. -/
def value? (base : Nat) (c : Char) : Option Nat :=
  let n := if c.isDigit then c.toNat - 0x30
    else if 'a' ≤ c ∧ c ≤ 'f' then c.toNat - 87
    else if 'A' ≤ c ∧ c ≤ 'F' then c.toNat - 55
    else base
  if n < base then some n else none

/-- Decimal numerals with more digits than this are not read, and not written either. -/
def digitLimit : Nat := 4300

/-- The natural number with these digits. -/
def natural? (base : Nat) (cs : List Char) : Option Nat :=
  if cs.isEmpty ∨ (base = 10 ∧ digitLimit < cs.length) then none
  else cs.foldlM (fun n c => (value? base c).map (n * base + ·)) 0

/-- The integer that a numeral in the base stands for. -/
def integer? (base : Nat) (t : Text) : Option Int := do
  let (negative, digits) := sign (← chars? t)
  let n ← natural? base (dropBaseMark base digits)
  return if negative then -(n : Int) else n

/-- An exponent, with a sign possibly. -/
def exponent? (cs : List Char) : Option Int :=
  let (negative, digits) := sign cs
  if digits.isEmpty ∨ digits.any (!·.isDigit) then none
  else
    let n : Int := digits.foldl (fun n c => n * 10 + (c.toNat - 0x30)) 0
    some (if negative then -n else n)

/-- The number nearest to a decimal with fraction and exponent, both optional. -/
def decimal? (negative : Bool) (cs : List Char) : Option Binary64 := do
  let whole := cs.takeWhile Char.isDigit
  let rest := cs.dropWhile Char.isDigit
  let (fraction, tail) := match rest with
    | '.' :: after => (after.takeWhile Char.isDigit, after.dropWhile Char.isDigit)
    | _ => ([], rest)
  let digits := whole ++ fraction
  if digits.isEmpty then none
  else
    let power ← match tail with
      | [] => some 0
      | e :: power => if e.toLower = 'e' then exponent? power else none
    return .ofDecimal negative (digits.foldl (fun n c => n * 10 + (c.toNat - 0x30)) 0)
      (power - fraction.length)

/-- A numeral without its underscores, each of which stands between two digits. The first argument
says whether there is a digit in front. -/
def unjoined? : Bool → List Char → Option (List Char)
  | _, [] => some []
  | _, ['_'] => none
  | isAfterDigit, '_' :: c :: rest =>
    if isAfterDigit && c.isDigit then (unjoined? true rest).map (c :: ·) else none
  | _, c :: rest => (unjoined? c.isDigit rest).map (c :: ·)

/-- The floating-point number that a numeral stands for; infinity and NaN go by name. -/
def real? (t : Text) : Option Binary64 := do
  let (negative, cs) := sign (← unjoined? false (← chars? t))
  let name := String.ofList (cs.map Char.toLower)
  if name = "inf" ∨ name = "infinity" then return .infinity negative
  else if name = "nan" then return .nan
  else decimal? negative cs

end Treewire.Numeral
