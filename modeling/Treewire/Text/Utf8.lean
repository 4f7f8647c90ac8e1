import Treewire.Text

/-!
# UTF-8

Reading goes by maximal subparts: `scan` splits octets into characters and ill-formed subparts,
each as long as some well-formed character agrees with it. The strict reader accepts when there is
no ill-formed subpart; the lenient one puts U+FFFD for each.
-/

namespace Treewire.Utf8

/-- What a first octet promises: how many octets follow, the bits it contributes, and the range of
the octet after it. -/
structure Lead where
  following : Nat
  bits : Nat
  low : UInt8
  high : UInt8

/-- Overlong forms, surrogates and numbers past U+10FFFF are shut out by the second octet. -/
def lead? (b : UInt8) : Option Lead :=
  let n := b.toNat
  if n < 0x80 then some ⟨0, n, 0x80, 0xBF⟩
  else if n < 0xC2 then none
  else if n < 0xE0 then some ⟨1, n - 0xC0, 0x80, 0xBF⟩
  else if n = 0xE0 then some ⟨2, 0, 0xA0, 0xBF⟩
  else if n = 0xED then some ⟨2, 0xD, 0x80, 0x9F⟩
  else if n < 0xF0 then some ⟨2, n - 0xE0, 0x80, 0xBF⟩
  else if n = 0xF0 then some ⟨3, 0, 0x90, 0xBF⟩
  else if n < 0xF4 then some ⟨3, n - 0xF0, 0x80, 0xBF⟩
  else if n = 0xF4 then some ⟨3, 4, 0x80, 0x8F⟩
  else none

/-- The number that the following octets complete, or nothing at the first octet out of range;
and what is left from there. -/
def tails : Nat → UInt8 → UInt8 → Nat → Bytes → Option Nat × Bytes
  | 0, _, _, acc, rest => (some acc, rest)
  | _ + 1, _, _, _, [] => (none, [])
  | n + 1, low, high, acc, b :: rest =>
    if low ≤ b ∧ b ≤ high then tails n 0x80 0xBF (acc * 64 + (b.toNat - 0x80)) rest
    else (none, b :: rest)

theorem tails_length_le (n : Nat) (low high : UInt8) (acc : Nat) (bytes : Bytes) :
    (tails n low high acc bytes).2.length ≤ bytes.length := by
  induction n generalizing low high acc bytes with
  | zero => simp [tails]
  | succ n ih =>
    cases bytes with
    | nil => simp [tails]
    | cons b rest =>
      simp only [tails]
      split
      · exact Nat.le_succ_of_le (ih ..)
      · exact Nat.le_refl _

/-- The first character, or nothing for an ill-formed subpart, and the octets after it. -/
def next (b : UInt8) (rest : Bytes) : Option Char × Bytes :=
  match lead? b with
  | none => (none, rest)
  | some lead =>
    let (number, left) := tails lead.following lead.low lead.high lead.bits rest
    (number.map Char.ofNat, left)

theorem next_length_le (b : UInt8) (rest : Bytes) : (next b rest).2.length ≤ rest.length := by
  unfold next
  split
  · exact Nat.le_refl _
  · exact tails_length_le ..

/-- Characters and ill-formed subparts, in order. -/
def scan : Bytes → List (Option Char)
  | [] => []
  | b :: rest =>
    have := next_length_le b rest
    (next b rest).1 :: scan (next b rest).2
  termination_by bytes => bytes.length

/-- The characters of well-formed octets. -/
def decode? (bytes : Bytes) : Option (List Char) := (scan bytes).mapM id

/-- The characters, with U+FFFD for each ill-formed subpart. -/
def decodeLossy (bytes : Bytes) : List Char := (scan bytes).map (·.getD '\ufffd')

/-- The octets of a character, first octet first. -/
def encodeChar (c : Char) : Bytes :=
  let n := c.toNat
  if n < 0x80 then [UInt8.ofNat n]
  else if n < 0x800 then [UInt8.ofNat (0xC0 + n / 64), UInt8.ofNat (0x80 + n % 64)]
  else if n < 0x10000 then
    [UInt8.ofNat (0xE0 + n / 4096), UInt8.ofNat (0x80 + n / 64 % 64), UInt8.ofNat (0x80 + n % 64)]
  else
    [UInt8.ofNat (0xF0 + n / 262144), UInt8.ofNat (0x80 + n / 4096 % 64),
      UInt8.ofNat (0x80 + n / 64 % 64), UInt8.ofNat (0x80 + n % 64)]

def encode (cs : List Char) : Bytes := cs.flatMap encodeChar

def encodeString (s : String) : Bytes := encode s.toList

def decodeString? (bytes : Bytes) : Option String := (decode? bytes).map String.ofList

def decodeStringLossy (bytes : Bytes) : String := String.ofList (decodeLossy bytes)

/-- The octets of a text; a text that holds a surrogate has none. -/
def encodeText? (t : Text) : Option Bytes := t.toChars?.map encode

end Treewire.Utf8
