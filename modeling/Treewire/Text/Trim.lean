import Treewire.Text.Digit

/-!
# Blanks around texts

Blank are the separators of ASCII, down to those between records and files, and the spaces of all
scripts.
-/

namespace Treewire

def Symbol.isBlank (s : Symbol) : Bool :=
  let n := s.codePoint
  n = 0x20 || (9 ≤ n && n ≤ 13) || (0x1C ≤ n && n ≤ 0x1F) || isWideSpace n

/-- Without blanks at both ends. -/
def Text.trim (t : Text) : Text :=
  ((t.dropWhile Symbol.isBlank).reverse.dropWhile Symbol.isBlank).reverse

end Treewire
