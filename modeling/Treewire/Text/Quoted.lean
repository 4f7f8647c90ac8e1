import Treewire.Text.Printable
import Treewire.Json

/-!
# Quoted texts

A quoted text stands between apostrophes, or between double quotes when it holds an apostrophe and
no double quote. What is not printable is escaped by number, two, four or eight hexadecimal digits
wide. Octets are quoted like texts of that many code points, with a `b` in front.
-/

namespace Treewire.Text

/-- The mark around a text. -/
def quoteMark (t : Text) : Char :=
  if t.contains (.scalar '\'') ∧ !t.contains (.scalar '"') then '"' else '\''

/-- The last `width` hexadecimal digits of a number. -/
def hexDigits (width n : Nat) : List Char :=
  (List.range width).reverse.map fun i => Json.hexDigit (n / Nat.pow 16 i)

/-- A code point by number. -/
def numericEscape (n : Nat) : List Char :=
  if n < 0x100 then '\\' :: 'x' :: hexDigits 2 n
  else if n < 0x10000 then '\\' :: 'u' :: hexDigits 4 n
  else '\\' :: 'U' :: hexDigits 8 n

/-- The escape that a symbol has even though it may be printable. -/
def namedEscape? (mark : Char) : Symbol → Option (List Char)
  | .scalar '\\' => some ['\\', '\\']
  | .scalar '\n' => some ['\\', 'n']
  | .scalar '\r' => some ['\\', 'r']
  | .scalar '\t' => some ['\\', 't']
  | .scalar c => if c = mark then some ['\\', c] else none
  | .surrogate _ => none

def quotedSymbol (mark : Char) (s : Symbol) : Text :=
  match namedEscape? mark s with
  | some escape => ofChars escape
  | none => if isPrintable s.codePoint then [s] else ofChars (numericEscape s.codePoint)

def quoted (t : Text) : Text :=
  let mark := quoteMark t
  .scalar mark :: t.flatMap (quotedSymbol mark) ++ [.scalar mark]

/-- Octets beyond ASCII are escaped even where the code point is printable. -/
def quotedOctet (mark : Char) (b : UInt8) : Text :=
  if b < 0x80 then quotedSymbol mark (.scalar (Char.ofNat b.toNat))
  else ofChars (numericEscape b.toNat)

def quotedBytes (bytes : Bytes) : Text :=
  let mark := quoteMark (bytes.map fun b => .scalar (Char.ofNat b.toNat))
  .scalar 'b' :: .scalar mark :: bytes.flatMap (quotedOctet mark) ++ [.scalar mark]

end Treewire.Text
