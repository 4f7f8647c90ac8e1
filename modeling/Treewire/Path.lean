import Treewire.Text.Split

/-!
# Paths

A path as it is spelled: a root and components. Empty and `.` components vanish, `..` stays, and
exactly two leading slashes are a root of their own. Joining with an absolute path gives that path.
-/

namespace Treewire

inductive PathRoot where
  | relative
  | single
  | double
  deriving DecidableEq, Inhabited

structure Path where
  root : PathRoot
  parts : List Text
  deriving DecidableEq, Inhabited

/-- The symbol between components. -/
def slash : Symbol := .scalar '/'

/-- The component for where one is already. -/
def dot : Text := [.scalar '.']

def PathRoot.text : PathRoot → Text
  | .relative => []
  | .single => [slash]
  | .double => [slash, slash]

namespace Path

def rootOf : Text → PathRoot
  | a :: b :: c :: _ =>
    if a = slash then if b = slash ∧ c ≠ slash then .double else .single else .relative
  | [a, b] => if a = slash then if b = slash then .double else .single else .relative
  | [a] => if a = slash then .single else .relative
  | [] => .relative

def partsOf (t : Text) : List Text :=
  (pieces slash t).filter fun part => part != [] && part != dot

def ofText (t : Text) : Path := ⟨rootOf t, partsOf t⟩

def ofString (s : String) : Path := ofText (Text.ofString s)

def toText (p : Path) : Text :=
  let text := p.root.text ++ joinWith [slash] p.parts
  if text = [] then dot else text

/-- The spelling as a string, as the system is asked for it. -/
def toString (p : Path) : String := p.toText.toStringLossy

instance : ToString Path := ⟨toString⟩

def isAbsolute (p : Path) : Bool := p.root != .relative

/-- The second path seen from the first. -/
def join (p q : Path) : Path :=
  match q.root with
  | .relative => ⟨p.root, p.parts ++ q.parts⟩
  | _ => q

/-- The last component, empty if there is none. -/
def name (p : Path) : Text := p.parts.getLast?.getD []

/-- Without the last component. -/
def parent (p : Path) : Path := ⟨p.root, p.parts.dropLast⟩

theorem join_isAbsolute (p q : Path) (h : p.isAbsolute = true) : (p.join q).isAbsolute = true := by
  unfold join
  split
  · exact h
  · rename_i hq
    cases hr : q.root <;> simp_all [isAbsolute]

end Path

end Treewire
