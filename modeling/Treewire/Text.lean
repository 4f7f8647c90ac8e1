/-!
# Text

A text is a sequence of code points. Most are Unicode scalar values; a surrogate that pairs with
nothing is a code point too, and only such a text has no encoding. `Text.toString?` gives the
string exactly for the texts that have one.
-/

namespace Treewire

/-- One position of a text: a Unicode scalar value, or a surrogate standing alone. -/
inductive Symbol where
  | scalar (c : Char)
  | surrogate (offset : Fin 2048)
  deriving DecidableEq, Inhabited

/-- The code point; surrogates fill the gap that scalar values leave. -/
def Symbol.codePoint : Symbol → Nat
  | .scalar c => c.toNat
  | .surrogate n => 0xD800 + n.val

/-- A text of code points. -/
abbrev Text := List Symbol

/-- A sequence of octets. -/
abbrev Bytes := List UInt8

namespace Symbol

/-- The symbol with a code point, for which U+0000 stands in beyond the last one. -/
def ofCodePoint (n : Nat) : Symbol :=
  if h : n - 0xD800 < 2048 ∧ 0xD800 ≤ n then .surrogate ⟨n - 0xD800, h.1⟩
  else .scalar (Char.ofNat n)

/-- The character, unless the symbol is a surrogate. -/
def toChar? : Symbol → Option Char
  | .scalar c => some c
  | .surrogate _ => none

/-- The character, with U+FFFD for a surrogate. -/
def toCharLossy : Symbol → Char
  | .scalar c => c
  | .surrogate _ => '\ufffd'

end Symbol

namespace Text

def ofChars (cs : List Char) : Text := cs.map .scalar

def ofString (s : String) : Text := ofChars s.toList

/-- The characters of a text without surrogates. -/
def toChars? (t : Text) : Option (List Char) := t.mapM Symbol.toChar?

/-- The string with these code points, if no surrogate is among them. -/
def toString? (t : Text) : Option String := (toChars? t).map String.ofList

/-- The string in which U+FFFD stands for each surrogate. -/
def toStringLossy (t : Text) : String := String.ofList (t.map Symbol.toCharLossy)

theorem toChars?_ofChars (cs : List Char) : toChars? (ofChars cs) = some cs := by
  induction cs with
  | nil => rfl
  | cons c rest ih =>
    simp only [toChars?, ofChars, List.map_cons, List.mapM_cons] at ih ⊢
    rw [ih]
    rfl

theorem toString?_ofString (s : String) : toString? (ofString s) = some s := by
  simp [toString?, ofString, toChars?_ofChars, String.ofList_toList]

theorem ofString_injective {a b : String} (h : ofString a = ofString b) : a = b := by
  have hb := toString?_ofString b
  rw [← h, toString?_ofString] at hb
  exact Option.some.inj hb

theorem toStringLossy_ofString (s : String) : (ofString s).toStringLossy = s := by
  rw [toStringLossy, ofString, ofChars, List.map_map]
  exact (congrArg String.ofList (List.map_id s.toList)).trans String.ofList_toList

end Text

/-! ## Telling the system -/

/-- Why a text cannot be told to the system. -/
inductive TextFault where
  /-- It holds the character that ends texts there. -/
  | endsEarly
  | notEncodable
  deriving DecidableEq, Inhabited

/-- Whether the system can be told a symbol. Surrogates from U+DC80 to U+DCFF stand for octets. -/
def Symbol.isTellable : Symbol → Bool
  | .scalar _ => true
  | .surrogate offset => 0x480 ≤ offset.val && offset.val < 0x500

/-- Whether no element of a list comes again. -/
def isDistinct {α : Type} [BEq α] : List α → Bool
  | [] => true
  | a :: rest => !rest.contains a && isDistinct rest

end Treewire
