import Treewire.Text

/-!
# Binary floating point

Bits of the two interchange formats, read as `mantissa · 2 ^ exponent` and written by rounding a
quotient of naturals to the nearest representable number, ties to the even mantissa. Everything is
exact arithmetic on naturals and integers.
-/

namespace Treewire

/-- A binary interchange format: the widths of its fraction and exponent fields. -/
structure BinaryFormat where
  fractionBits : Nat
  exponentBits : Nat

/-- What the bits of a number say. -/
inductive BinaryValue where
  | nan
  | infinite (negative : Bool)
  | finite (negative : Bool) (mantissa : Nat) (exponent : Int)
  deriving DecidableEq, Inhabited

/-- A fraction of naturals, the exact value behind a rounding. -/
structure Quotient where
  num : Nat
  den : Nat

/-- The natural nearest to a quotient, ties to even. -/
def Quotient.round (q : Quotient) : Nat :=
  let whole := q.num / q.den
  let rest := q.num % q.den
  if 2 * rest < q.den then whole
  else if 2 * rest > q.den then whole + 1
  else whole + whole % 2

/-- `mantissa · base ^ exponent`. -/
def Quotient.scaled (mantissa base : Nat) (exponent : Int) : Quotient :=
  if 0 ≤ exponent then ⟨mantissa * Nat.pow base exponent.toNat, 1⟩
  else ⟨mantissa, Nat.pow base (-exponent).toNat⟩

theorem Quotient.scaled_den_pos {base : Nat} (hb : 0 < base) (mantissa : Nat) (exponent : Int) :
    0 < (scaled mantissa base exponent).den := by
  unfold scaled
  split
  · exact Nat.one_pos
  · exact Nat.pow_pos hb

theorem Quotient.scaled_num_eq_zero {base : Nat} (hb : 0 < base) {mantissa : Nat} {exponent : Int} :
    (scaled mantissa base exponent).num = 0 ↔ mantissa = 0 := by
  unfold scaled
  split
  · have hpow : Nat.pow base exponent.toNat ≠ 0 := Nat.ne_of_gt (Nat.pow_pos hb)
    exact ⟨fun h => (Nat.mul_eq_zero.mp h).resolve_right hpow, fun h => Nat.mul_eq_zero.mpr (.inl h)⟩
  · exact Iff.rfl

theorem Quotient.scaled_num_pos {base mantissa : Nat} (hb : 0 < base) (hm : 0 < mantissa)
    (exponent : Int) : 0 < (scaled mantissa base exponent).num :=
  Nat.pos_of_ne_zero fun h => Nat.ne_of_gt hm ((scaled_num_eq_zero hb).mp h)

namespace BinaryFormat

variable (f : BinaryFormat)

/-- The exponent of the least positive number. -/
def leastExponent : Int := 2 - (Nat.pow 2 (f.exponentBits - 1) : Int) - f.fractionBits

/-- The exponent field of infinities and NaNs. -/
def topField : Nat := Nat.pow 2 f.exponentBits - 1

/-- Bit of the sign. -/
def signBit : Nat := Nat.pow 2 (f.fractionBits + f.exponentBits)

def infinity : Nat := f.topField * Nat.pow 2 f.fractionBits

def nan : Nat := f.infinity + Nat.pow 2 (f.fractionBits - 1)

def unpack (bits : Nat) : BinaryValue :=
  let negative := bits / f.signBit % 2 == 1
  let field := bits / Nat.pow 2 f.fractionBits % Nat.pow 2 f.exponentBits
  let fraction := bits % Nat.pow 2 f.fractionBits
  if field = f.topField then
    if fraction = 0 then .infinite negative else .nan
  else if field = 0 then .finite negative fraction f.leastExponent
  else .finite negative (Nat.pow 2 f.fractionBits + fraction) (f.leastExponent + (field - 1))

/-- The greatest `e` with `2 ^ e ≤ num / den`, for a positive quotient. -/
def binaryExponent (q : Quotient) : Int :=
  let guess : Int := (q.num.log2 : Int) - (q.den.log2 : Int)
  let reached := if 0 ≤ guess then q.den * Nat.pow 2 guess.toNat ≤ q.num
    else q.den ≤ q.num * Nat.pow 2 (-guess).toNat
  if reached then guess else guess - 1

/-- The magnitude bits of the number nearest to a quotient, ties to even. -/
def roundMagnitude (q : Quotient) : Nat :=
  if q.num = 0 then 0
  else
    let exponent := max (binaryExponent q - f.fractionBits) f.leastExponent
    let mantissa : Nat := if 0 ≤ exponent then Quotient.round ⟨q.num, q.den * Nat.pow 2 exponent.toNat⟩
      else Quotient.round ⟨q.num * Nat.pow 2 (-exponent).toNat, q.den⟩
    let steps := (exponent - f.leastExponent).toNat
    min (steps * Nat.pow 2 f.fractionBits + mantissa) f.infinity

def round (negative : Bool) (q : Quotient) : Nat :=
  (if negative then f.signBit else 0) + f.roundMagnitude q

/-- The number nearest to `digits · 10 ^ exponent`. Exponents beyond every number of the format
are cut short, so that their powers of ten are never formed. -/
def ofDecimal (negative : Bool) (digits : Nat) (exponent : Int) : Nat :=
  let sign := if negative then f.signBit else 0
  let width : Int := (Nat.toDigits 10 digits).length
  if digits = 0 ∨ exponent + width < -400 then sign
  else if exponent > 400 then sign + f.infinity
  else f.round negative (Quotient.scaled digits 10 exponent)

end BinaryFormat

/-- The 64-bit interchange format. -/
def BinaryFormat.double : BinaryFormat := ⟨52, 11⟩

/-- The 32-bit interchange format. -/
def BinaryFormat.single : BinaryFormat := ⟨23, 8⟩

/-- A number of the 64-bit format, by its bits. -/
structure Binary64 where
  bits : UInt64
  deriving DecidableEq, Inhabited

/-- A number of the 32-bit format, by its bits. -/
structure Binary32 where
  bits : UInt32
  deriving DecidableEq, Inhabited

namespace Binary64

def value (x : Binary64) : BinaryValue := BinaryFormat.double.unpack x.bits.toNat

def ofNatBits (bits : Nat) : Binary64 := ⟨UInt64.ofNat bits⟩

def ofDecimal (negative : Bool) (digits : Nat) (exponent : Int) : Binary64 :=
  ofNatBits (BinaryFormat.double.ofDecimal negative digits exponent)

def ofInt (i : Int) : Binary64 :=
  ofNatBits (BinaryFormat.double.round (i < 0) ⟨i.natAbs, 1⟩)

def infinity (negative : Bool) : Binary64 :=
  ofNatBits (BinaryFormat.double.infinity + if negative then BinaryFormat.double.signBit else 0)

def nan : Binary64 := ofNatBits BinaryFormat.double.nan

/-- The integer that a number equals, if it equals one. -/
def toInt? (x : Binary64) : Option Int :=
  match x.value with
  | .finite negative mantissa exponent =>
    let q := Quotient.scaled mantissa 2 exponent
    if q.num % q.den = 0 then
      let magnitude : Int := q.num / q.den
      some (if negative then -magnitude else magnitude)
    else none
  | _ => none

/-- Greater than zero; false of a NaN. -/
def isPositive (x : Binary64) : Bool :=
  match x.value with
  | .nan => false
  | .infinite negative => !negative
  | .finite negative mantissa _ => !negative && mantissa != 0

/-- With the opposite sign; a NaN stays one. -/
def neg (x : Binary64) : Binary64 :=
  match x.value with
  | .nan => nan
  | .infinite negative => infinity !negative
  | .finite negative mantissa exponent =>
    ofNatBits (BinaryFormat.double.round (!negative) (Quotient.scaled mantissa 2 exponent))

/-- The number nearest to the exact product. -/
def mul (x y : Binary64) : Binary64 :=
  match x.value, y.value with
  | .nan, _ | _, .nan => nan
  | .infinite a, .infinite b => infinity (a != b)
  | .infinite a, .finite b mantissa _ | .finite b mantissa _, .infinite a =>
    if mantissa = 0 then nan else infinity (a != b)
  | .finite a m e, .finite b n k =>
    ofNatBits (BinaryFormat.double.round (a != b) (Quotient.scaled (m * n) 2 (e + k)))

/-- The number nearest to the exact sum. A sum of zero is negative only if both terms are. -/
def add (x y : Binary64) : Binary64 :=
  match x.value, y.value with
  | .nan, _ | _, .nan => nan
  | .infinite a, .infinite b => if a = b then infinity a else nan
  | .infinite a, .finite .. | .finite .., .infinite a => infinity a
  | .finite a m e, .finite b n k =>
    let least := min e k
    let signed (negative : Bool) (mantissa : Nat) (exponent : Int) : Int :=
      let magnitude : Int := mantissa * Nat.pow 2 (exponent - least).toNat
      if negative then -magnitude else magnitude
    let sum := signed a m e + signed b n k
    ofNatBits (BinaryFormat.double.round (if sum = 0 then a && b else sum < 0)
      (Quotient.scaled sum.natAbs 2 least))

end Binary64

namespace Binary32

def value (x : Binary32) : BinaryValue := BinaryFormat.single.unpack x.bits.toNat

/-- The same number in the wider format. -/
def toBinary64 (x : Binary32) : Binary64 :=
  match x.value with
  | .nan => .nan
  | .infinite negative => .infinity negative
  | .finite negative mantissa exponent =>
    .ofNatBits (BinaryFormat.double.round negative (Quotient.scaled mantissa 2 exponent))

/-- The nearest number of the narrower format. -/
def ofBinary64 (x : Binary64) : Binary32 :=
  match x.value with
  | .nan => ⟨UInt32.ofNat BinaryFormat.single.nan⟩
  | .infinite negative => ⟨UInt32.ofNat
      (BinaryFormat.single.infinity + if negative then BinaryFormat.single.signBit else 0)⟩
  | .finite negative mantissa exponent =>
    ⟨UInt32.ofNat (BinaryFormat.single.round negative (Quotient.scaled mantissa 2 exponent))⟩

end Binary32

end Treewire
