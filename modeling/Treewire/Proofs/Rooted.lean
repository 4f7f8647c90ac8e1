import Treewire.Proofs.Naming
import Treewire.Proofs.Scratch

/-!
# Entries below the root

Paths of one component, as they come up on small machines: they lead right to their entry.
-/

namespace Treewire.Files

/-- A path that spells an entry right below the root. -/
structure Rooted (path name : String) : Prop where
  isSome : path ≠ ""
  short : ¬(Utf8.encodeString path).length > pathLimit
  isAbsolute : path.toList.head? = some '/'
  steps : steps path = [name]
  notDots : ¬(name = "." ∨ name = "..")
  brief : ¬(Utf8.encodeString name).length > nameLimit

namespace Rooted

variable {path name : String} {fs : Files} {here : Location} {entry : Entry} {follow : Bool}

theorem start (h : Rooted path name) : startOf here path = [] := if_pos h.isAbsolute

/-- Unless there is a link to follow, the path leads to its entry. -/
theorem resolve (h : Rooted path name)
    (hl : follow = true → ∀ target, fs.get? [name] ≠ some (.link target)) :
    fs.resolve here follow path = .ok [name] := by
  have hstride : fs.stride follow linkLimit [] name [] = .ok (linkLimit, [name], []) := by
    obtain ⟨hd, hdd⟩ := not_or.mp h.notDots
    rw [stride, if_neg (by simp [isDirectory, get?_root]), if_neg hd, if_neg hdd, if_neg h.brief]
    cases hg : fs.get? ([] ++ [name]) with
    | none => rfl
    | some entry =>
      cases entry with
      | link target =>
        cases follow with
        | true => exact absurd hg (hl rfl target)
        | false => rfl
      | _ => rfl
  rw [Files.resolve, if_neg h.isSome, if_neg h.short, h.start, h.steps, walk_of_stride hstride,
    walk_nil]

theorem stat (h : Rooted path name) (hg : fs.get? [name] = some entry)
    (hl : ∀ target, entry ≠ .link target) : fs.stat here path = .ok ([name], entry) := by
  rw [stat_ok]
  refine ⟨h.resolve fun _ target ht => hl target ?_, hg⟩
  exact Option.some.inj (hg.symm.trans ht)

theorem canonical? (h : Rooted path name) (hg : fs.get? [name] = some entry)
    (hl : ∀ target, entry ≠ .link target) : fs.canonical? here path = some [name] := by
  obtain ⟨hd, hdd⟩ := not_or.mp h.notDots
  have hplain (target : String) : fs.get? ([] ++ [name]) ≠ some (.link target) :=
    fun ht => hl target (Option.some.inj (hg.symm.trans ht))
  rw [Files.canonical?, h.start, h.steps, follow_plain hd hdd hplain, Files.follow]
  rfl

/-- A file is written where nothing was. -/
theorem write (h : Rooted path name) (hn : fs.get? [name] = none) (content : Bytes) :
    fs.write here path content = .ok (fs.put [name] (.file content usualMode)) := by
  have hwritable : fs.writable here path = .ok [name] := by
    rw [writable_eq, h.resolve (by simp [hn])]
    dsimp only
    rw [hn]
    rfl
  rw [write_eq, hwritable, Except.map, written, hn]

end Rooted

open Frontend in
/-- A name in the root. -/
theorem rooted_component {name : Text} (hs : slash ∉ name) (hne : name ≠ [])
    (hd : name.toStringLossy ≠ ".") (hdd : name.toStringLossy ≠ "..")
    (hbrief : (Utf8.encodeString name.toStringLossy).length ≤ nameLimit) :
    Rooted ((⟨.single, []⟩ : Path).join ⟨.relative, [name]⟩).toString name.toStringLossy where
  isSome := component_ne _ hne
  short := by
    have hfront : (Utf8.encode (outputFront ⟨.single, []⟩)).length = 1 := by rfl
    have hlimits : 1 + nameLimit ≤ pathLimit := by decide
    rw [component_octets _ hne, hfront]
    omega
  isAbsolute := by
    rw [component_toString _ hne, String.toList_ofList]
    rfl
  steps := steps_component ⟨.single, []⟩ hs hne
  notDots h := h.elim hd hdd
  brief := Nat.not_lt.mpr hbrief

open Frontend in
/-- The outputs of calls that keep their files in the root. -/
theorem rooted_fileIn (serial : Nat) :
    Rooted (fileIn ⟨.single, []⟩ serial outputEnding).toString
      (String.ofList (outputName serial)) := by
  have h := rooted_component (slash_not_mem_scalars serial) (scalars_ne_nil serial)
  rw [← fileIn_eq, outputName_scalars] at h
  exact h (outputString_ne serial (by decide)) (outputString_ne serial (by decide))
    (outputString_short serial)

end Treewire.Files
