import Treewire.Text

/-!
# Octets as characters

Octets are compared and cut like text when each is taken as the character of its number.
-/

namespace Treewire

def octetChars (bytes : Bytes) : List Char := bytes.map fun b => Char.ofNat b.toNat

/-- The octets of characters below 256; of others, what is left modulo 256. -/
def charOctets (cs : List Char) : Bytes := cs.map fun c => UInt8.ofNat c.toNat

theorem charOctets_octetChars (bytes : Bytes) : charOctets (octetChars bytes) = bytes := by
  induction bytes with
  | nil => rfl
  | cons b rest ih =>
    have hb : (Char.ofNat b.toNat).toNat = b.toNat := by
      have hn : b.toNat.isValidChar := Or.inl (by have := b.toNat_lt; omega)
      exact congrArg Char.toNat (dif_pos hn : Char.ofNat b.toNat = Char.ofNatAux b.toNat hn)
    simp only [charOctets, octetChars, List.map_cons, List.map_map] at ih ⊢
    rw [ih, hb, UInt8.ofNat_toNat]

end Treewire
