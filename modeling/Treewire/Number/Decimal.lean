import Treewire.Number.Binary

/-!
# Decimal texts of numbers

`Decimal.shortest` picks the fewest digits that read back as the same number and, of those, the
ones nearest to it. `Decimal.rounded` keeps a given number of digits. Which exponents are written
out, and how, is decided by a `DecimalLayout`.
-/

namespace Treewire

/-- `digits · 10 ^ exponent`. -/
structure Decimal where
  digits : Nat
  exponent : Int
  deriving DecidableEq

/-- Number of decimal digits; zero has none. -/
def decimalWidth (n : Nat) : Nat := if n = 0 then 0 else (Nat.toDigits 10 n).length

namespace Decimal

/-- The `d` with `10 ^ (d - 1) ≤ q < 10 ^ d`, for a positive quotient. -/
def magnitude (q : Quotient) : Int :=
  if q.den ≤ q.num then decimalWidth (q.num / q.den)
  else 1 - (decimalWidth ((q.den + q.num - 1) / q.num - 1) : Int)

/-- The digits of a quotient in units of `10 ^ exponent`, as a quotient still to be rounded. -/
def inUnits (q : Quotient) (exponent : Int) : Quotient :=
  if 0 ≤ exponent then ⟨q.num, q.den * Nat.pow 10 exponent.toNat⟩
  else ⟨q.num * Nat.pow 10 (-exponent).toNat, q.den⟩

/-- Without trailing zeros. -/
def trim (d : Decimal) : Decimal :=
  go (decimalWidth d.digits) d.digits d.exponent
where
  go : Nat → Nat → Int → Decimal
    | 0, digits, exponent => ⟨digits, exponent⟩
    | fuel + 1, digits, exponent =>
      if digits % 10 = 0 ∧ digits ≠ 0 then go fuel (digits / 10) (exponent + 1)
      else ⟨digits, exponent⟩

/-- The `n`-digit decimal nearest to a positive quotient, ties to even. -/
def rounded (n : Nat) (q : Quotient) : Decimal :=
  let exponent := magnitude q - n
  trim ⟨(inUnits q exponent).round, exponent⟩

/-- The numbers that round to `mantissa · 2 ^ exponent` lie between two bounds, which belong to
them when the mantissa is even. All three are given in quarters of a unit in the last place. -/
structure Neighbourhood where
  low : Nat
  high : Nat
  closed : Bool
  exponent : Int

def neighbourhood (f : BinaryFormat) (mantissa : Nat) (exponent : Int) : Neighbourhood :=
  let narrow := mantissa = Nat.pow 2 f.fractionBits ∧ exponent ≠ f.leastExponent
  ⟨4 * mantissa - (if narrow then 1 else 2), 4 * mantissa + 2, mantissa % 2 == 0, exponent - 2⟩

/-- Compares `a · 2 ^ e` with `b · 10 ^ k`. -/
def compareScaled (a : Nat) (e : Int) (b : Nat) (k : Int) : Ordering :=
  let left := Quotient.scaled a 2 e
  let right := Quotient.scaled b 10 k
  compare (left.num * right.den) (right.num * left.den)

def Neighbourhood.holds (n : Neighbourhood) (digits : Nat) (k : Int) : Bool :=
  let low := compareScaled n.low n.exponent digits k
  let high := compareScaled n.high n.exponent digits k
  (low == .lt || (n.closed && low == .eq)) && (high == .gt || (n.closed && high == .eq))

/-- The `n`-digit decimal in the neighbourhood, the nearer one if the value has such a neighbour
on both sides. -/
def withDigits? (hood : Neighbourhood) (q : Quotient) (n : Nat) : Option Decimal :=
  let k := magnitude q - n
  let exact := inUnits q k
  let nearest := exact.round
  let below := exact.num / exact.den
  if hood.holds nearest k then some ⟨nearest, k⟩
  else if hood.holds below k then some ⟨below, k⟩
  else if hood.holds (below + 1) k then some ⟨below + 1, k⟩
  else none

/-- The shortest decimal that reads back as `mantissa · 2 ^ exponent`. -/
def shortest (f : BinaryFormat) (mantissa : Nat) (exponent : Int) : Decimal :=
  let hood := neighbourhood f mantissa exponent
  let q := Quotient.scaled mantissa 2 exponent
  match (List.range 17).findSome? (fun n => withDigits? hood q (n + 1)) with
  | some d => d.trim
  | none => rounded 17 q

end Decimal

/-- How decimals are spelled: the scientific exponents from `least` and below `bound` are written
out, others with an exponent of at least `exponentWidth` digits. -/
structure DecimalLayout where
  least : Int
  bound : Int
  exponentWidth : Nat
  /-- Whether an integer written out ends in `.0`. -/
  pointed : Bool
  /-- Whether zero keeps its sign. -/
  signedZero : Bool
  infinity : String
  nan : String

namespace DecimalLayout

variable (l : DecimalLayout)

/-- A positive decimal. -/
def magnitude (d : Decimal) : String :=
  let digits := Nat.toDigits 10 d.digits
  let width : Int := digits.length
  let scientific := d.exponent + width - 1
  if l.least ≤ scientific ∧ scientific < l.bound then
    if 0 ≤ d.exponent then
      String.ofList (digits ++ List.replicate d.exponent.toNat '0') ++
        (if l.pointed then ".0" else "")
    else if 0 ≤ scientific then
      String.ofList (digits.take (scientific + 1).toNat ++ '.' :: digits.drop (scientific + 1).toNat)
    else String.ofList ('0' :: '.' :: List.replicate (-scientific - 1).toNat '0' ++ digits)
  else
    let power := Nat.toDigits 10 scientific.natAbs
    let mantissa := match digits with
      | [] => []
      | [only] => [only]
      | first :: rest => first :: '.' :: rest
    String.ofList (mantissa ++ 'e' :: (if scientific < 0 then '-' else '+') ::
      (List.replicate (l.exponentWidth - power.length) '0' ++ power))

def signed (negative : Bool) (text : String) : String := if negative then "-" ++ text else text

def zero (negative : Bool) : String :=
  signed (negative && l.signedZero) (if l.pointed then "0.0" else "0")

/-- A number with the decimal that `pick` chooses for its magnitude. -/
def spell (pick : Nat → Int → Decimal) : BinaryValue → String
  | .nan => l.nan
  | .infinite negative => signed negative l.infinity
  | .finite negative mantissa exponent =>
    if mantissa = 0 then l.zero negative
    else signed negative (l.magnitude (pick mantissa exponent))

/-- The fewest digits that read back. -/
def shortest (x : Binary64) : String :=
  l.spell (Decimal.shortest .double) x.value

/-- At most six digits. -/
def general (x : Binary64) : String :=
  l.spell (fun mantissa exponent => Decimal.rounded 6 (Quotient.scaled mantissa 2 exponent)) x.value

end DecimalLayout

/-- Property names and printed numbers of scripts. -/
def DecimalLayout.script : DecimalLayout :=
  ⟨-6, 21, 1, false, false, "Infinity", "NaN"⟩

/-- Numbers in data documents and reports. -/
def DecimalLayout.report : DecimalLayout :=
  ⟨-4, 16, 2, true, true, "inf", "nan"⟩

/-- Durations in messages: six digits, with an exponent from a million on. -/
def DecimalLayout.brief : DecimalLayout :=
  ⟨-4, 6, 2, false, true, "inf", "nan"⟩

/-- The single-precision number as the first of its six, seven, … digit decimals that rounds back
to it. -/
def Binary32.leastSix (x : Binary32) : Binary64 :=
  match x.value with
  | .finite negative mantissa exponent =>
    if mantissa = 0 then x.toBinary64
    else
      let q := Quotient.scaled mantissa 2 exponent
      let candidates := (List.range 12).map fun n =>
        let d := Decimal.rounded (n + 6) q
        Binary64.ofDecimal negative d.digits d.exponent
      (candidates.find? (fun y => Binary32.ofBinary64 y == x)).getD x.toBinary64
  | _ => x.toBinary64

end Treewire
