import Treewire.Text

/-!
# Decimal digits

Every script of Unicode 14 that has digits of its own has ten of them in a row, from zero to nine.
-/

namespace Treewire

/-- The zeros of all scripts. -/
def decimalZeros : List Nat := [
    0x30, 0x660, 0x6F0, 0x7C0, 0x966, 0x9E6, 0xA66, 0xAE6, 0xB66, 0xBE6, 0xC66, 0xCE6, 0xD66,
    0xDE6, 0xE50, 0xED0, 0xF20, 0x1040, 0x1090, 0x17E0, 0x1810, 0x1946, 0x19D0, 0x1A80, 0x1A90,
    0x1B50, 0x1BB0, 0x1C40, 0x1C50, 0xA620, 0xA8D0, 0xA900, 0xA9D0, 0xA9F0, 0xAA50, 0xABF0,
    0xFF10, 0x104A0, 0x10D30, 0x11066, 0x110F0, 0x11136, 0x111D0, 0x112F0, 0x11450, 0x114D0,
    0x11650, 0x116C0, 0x11730, 0x118E0, 0x11950, 0x11C50, 0x11D50, 0x11DA0, 0x16A60, 0x16AC0,
    0x16B50, 0x1D7CE, 0x1D7D8, 0x1D7E2, 0x1D7EC, 0x1D7F6, 0x1E140, 0x1E2F0, 0x1E950, 0x1FBF0]

/-- The value of a digit of any script. -/
def digitValue? (n : Nat) : Option Nat :=
  (decimalZeros.find? fun first => first ≤ n && n < first + 10).map (n - ·)

/-- Code points beyond ASCII that separate words. -/
def isWideSpace (n : Nat) : Bool :=
  [0x85, 0xA0, 0x1680, 0x2028, 0x2029, 0x202F, 0x205F, 0x3000].contains n ||
    (0x2000 ≤ n && n ≤ 0x200A)

/-- A symbol as it counts in a numeral: digits of all scripts as ASCII digits, spaces of all scripts
as spaces, and other symbols only if they are ASCII. -/
def Symbol.numeralChar? (s : Symbol) : Option Char :=
  let n := s.codePoint
  if n < 0x7F then some (Char.ofNat n)
  else if isWideSpace n then some ' '
  else (digitValue? n).map fun d => Char.ofNat (0x30 + d)

end Treewire
