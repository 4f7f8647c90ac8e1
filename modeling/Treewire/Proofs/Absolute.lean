import Treewire.Machine

/-!
# Paths seen from the root

A path that starts at the root is seen from there as it is, wherever one works; every other path is
seen through the working directory.
-/

namespace Treewire

variable {p q : Path} {m : Machine}

theorem Path.join_of_isAbsolute (p : Path) (h : q.isAbsolute = true) : p.join q = q := by
  obtain ⟨root, parts⟩ := q
  cases root with
  | relative => cases h
  | single => rfl
  | double => rfl

theorem Path.join_of_relative (p : Path) (h : q.isAbsolute = false) :
    p.join q = ⟨p.root, p.parts ++ q.parts⟩ := by
  obtain ⟨root, parts⟩ := q
  cases root with
  | relative => rfl
  | single => cases h
  | double => cases h

theorem Path.isAbsolute_ofText_slash (rest : Text) :
    (Path.ofText (slash :: rest)).isAbsolute = true := by
  have hroot : Path.rootOf (slash :: rest) ≠ .relative := by
    match rest with
    | [] => simp [Path.rootOf]
    | [b] =>
      simp only [Path.rootOf, if_true]
      split <;> simp
    | b :: c :: _ =>
      simp only [Path.rootOf, if_true]
      split <;> simp
  simpa [Path.isAbsolute, Path.ofText] using hroot

theorem Path.toString_head? (h : p.isAbsolute = true) :
    p.toString.toList.head? = some '/' := by
  obtain ⟨root, parts⟩ := p
  cases root with
  | relative => cases h
  | single | double =>
    simp [Path.toString, Path.toText, PathRoot.text, Text.toStringLossy, slash, Symbol.toCharLossy]

namespace Machine

theorem herePath_isAbsolute (m : Machine) : m.herePath.isAbsolute = true := by
  have htext : Text.ofString m.here.path =
      slash :: Text.ofString ("/".intercalate m.here) := by
    rw [Location.path, Text.ofString, String.toList_append]
    rfl
  rw [herePath, Path.ofString, htext]
  exact Path.isAbsolute_ofText_slash _

theorem absolute_isAbsolute (m : Machine) (p : Path) : (m.absolute p).isAbsolute = true :=
  Path.join_isAbsolute _ _ m.herePath_isAbsolute

theorem absolute_of_isAbsolute (m : Machine) (h : p.isAbsolute = true) : m.absolute p = p :=
  Path.join_of_isAbsolute _ h

/-- Seen from the root twice is seen from the root. -/
theorem absolute_absolute (m : Machine) (p : Path) : m.absolute (m.absolute p) = m.absolute p :=
  m.absolute_of_isAbsolute (m.absolute_isAbsolute p)

end Machine

end Treewire
