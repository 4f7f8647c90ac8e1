import Treewire.Proofs.Absolute
import Treewire.Proofs.Naming

/-!
# Paths and their spelling

A path that was read from a text has components without slashes, none of them empty or a single dot,
and so has whatever is made of such paths. These are the paths that are read back from how they are
spelled, and the system visits their components one after the other.
-/

namespace Treewire

-- ---------------------------------------------------------------------------
-- Pieces
-- ---------------------------------------------------------------------------

section
variable {α β : Type} [DecidableEq α] [DecidableEq β] {separator : α} {xs : List α}
  {parts : List (List α)}

/-- What is joined is cut apart again where nothing in it is cut. -/
theorem pieces_joinWith (h : ∀ part ∈ parts, separator ∉ part) (hne : parts ≠ []) :
    pieces separator (joinWith [separator] parts) = parts := by
  induction parts with
  | nil => exact absurd rfl hne
  | cons part rest ih =>
    rw [List.forall_mem_cons] at h
    cases rest with
    | nil => exact pieces_of_not_mem h.1
    | cons next more =>
      have hcons : joinWith [separator] (part :: next :: more) =
          part ++ separator :: joinWith [separator] (next :: more) := by
        rw [joinWith, List.append_assoc, List.singleton_append]
        nofun
      rw [hcons, pieces_append, pieces_of_not_mem h.1, ih h.2 (List.cons_ne_nil _ _)]
      rfl

/-- Elements may be replaced before or after, if the separator is one only where it was one. -/
theorem pieces_map (f : α → β) (h : ∀ x, f x = f separator ↔ x = separator) (xs : List α) :
    pieces (f separator) (xs.map f) = (pieces separator xs).map (List.map f) := by
  induction xs with
  | nil => rfl
  | cons x rest ih =>
    rw [List.map_cons, pieces, ih, pieces]
    cases pieces separator rest with
    | nil => rfl
    | cons piece more =>
      simp only [List.map_cons, h]
      split <;> rfl

omit [DecidableEq α] in
theorem joinWith_eq_intercalate (parts : List (List α)) :
    joinWith xs parts = xs.intercalate parts := by
  induction parts with
  | nil => rfl
  | cons part rest ih =>
    cases rest with
    | nil => simp [joinWith]
    | cons next more => simp [joinWith, ih]

omit [DecidableEq α] in
theorem length_joinWith (separator : α) (hne : parts ≠ []) :
    (joinWith [separator] parts).length + 1 = parts.flatten.length + parts.length := by
  induction parts with
  | nil => exact absurd rfl hne
  | cons part rest ih =>
    cases rest with
    | nil => simp [joinWith]
    | cons next more =>
      have hrest := ih (List.cons_ne_nil _ _)
      rw [joinWith, List.length_append, List.length_append, List.length_singleton,
        List.flatten_cons, List.length_append, List.length_cons]
      · omega
      · nofun

end

-- ---------------------------------------------------------------------------
-- Components
-- ---------------------------------------------------------------------------

namespace Path

variable {p q : Path} {t part : Text}

/-- A text that is kept as a component. -/
structure IsPart (t : Text) : Prop where
  ne_nil : t ≠ []
  ne_dot : t ≠ dot
  slash_not_mem : slash ∉ t

/-- A path whose components are such texts. -/
def Clean (p : Path) : Prop := ∀ part ∈ p.parts, IsPart part

theorem isPart_of_mem_partsOf (h : part ∈ partsOf t) : IsPart part := by
  obtain ⟨hpiece, hkept⟩ := List.mem_filter.mp h
  obtain ⟨hne, hdot⟩ : part ≠ [] ∧ part ≠ dot := by simpa using hkept
  exact ⟨hne, hdot, not_mem_of_mem_pieces hpiece⟩

theorem clean_ofText (t : Text) : (ofText t).Clean := fun _ h => isPart_of_mem_partsOf h

theorem Clean.join (hp : p.Clean) (hq : q.Clean) : (p.join q).Clean := by
  cases ha : q.isAbsolute with
  | true =>
    rw [join_of_isAbsolute p ha]
    exact hq
  | false =>
    rw [join_of_relative p ha]
    exact fun part h => (List.mem_append.mp h).elim (hp part) (hq part)

/-- A home directory for a tilde leaves a path clean. -/
theorem Clean.expand {homes : Homes} (h : p.Clean) (he : homes.expand p = .ok q) : q.Clean := by
  unfold Homes.expand at he
  split at he
  · rename_i account rest hroot hparts
    cases hd : homes.directory account with
    | error fault =>
      rw [hd] at he
      cases he
    | ok home =>
      rw [hd] at he
      dsimp only [bind, Except.bind] at he
      generalize (if Homes.withoutLastSlashes home = [] then [slash]
        else Homes.withoutLastSlashes home) = base at he
      by_cases htilde : base.head? = some (.scalar '~')
      · rw [if_pos htilde] at he
        cases he
      · rw [if_neg htilde] at he
        cases he
        intro part hm
        rcases List.mem_append.mp hm with hm | hm
        · exact clean_ofText _ part hm
        · exact h part (hparts ▸ List.mem_cons_of_mem _ hm)
  · cases he
    exact h

-- ---------------------------------------------------------------------------
-- Reading back
-- ---------------------------------------------------------------------------

theorem Clean.cons {top : PathRoot} (h : Clean ⟨top, part :: rest⟩) :
    ∃ first more, part = first :: more ∧ first ≠ slash := by
  have hpart := h part (List.mem_cons_self ..)
  obtain ⟨first, more, rfl⟩ := List.exists_cons_of_ne_nil hpart.ne_nil
  exact ⟨first, more, rfl, fun he => hpart.slash_not_mem (he ▸ List.mem_cons_self ..)⟩

/-- What stands between the slashes of a spelling with components. -/
theorem joinWith_cons (first : Symbol) (more : Text) (rest : List Text) :
    ∃ tail, joinWith [slash] ((first :: more) :: rest) = first :: tail := by
  cases rest with
  | nil => exact ⟨more, rfl⟩
  | cons next rest => exact ⟨more ++ [slash] ++ joinWith [slash] (next :: rest), rfl⟩

theorem rootOf_toText (h : p.Clean) : rootOf p.toText = p.root := by
  obtain ⟨root, parts⟩ := p
  cases parts with
  | nil => cases root <;> rfl
  | cons part rest =>
    obtain ⟨first, more, rfl, hfirst⟩ := h.cons
    obtain ⟨tail, ht⟩ := joinWith_cons first more rest
    rw [toText, ht, if_neg (by simp)]
    rcases tail with _ | ⟨second, _ | ⟨third, tail⟩⟩ <;> cases root <;>
      simp [PathRoot.text, rootOf, hfirst]

theorem pieces_toText (hne : p.parts ≠ []) (h : p.Clean) :
    pieces slash p.toText = p.root.text.map (fun _ => []) ++ p.parts := by
  have hjoin := pieces_joinWith (fun part hm => (h part hm).slash_not_mem) hne
  have hsome : joinWith [slash] p.parts ≠ [] := by
    intro hnil
    rw [hnil] at hjoin
    have hpart := h [] (hjoin ▸ List.mem_singleton_self _)
    exact hpart.ne_nil rfl
  have hslash (t : Text) : pieces slash (slash :: t) = [] :: pieces slash t :=
    pieces_append [] t
  rw [toText, if_neg (by simp [hsome])]
  cases p.root with
  | relative => exact hjoin
  | single => exact (hslash _).trans (congrArg _ hjoin)
  | double => exact (hslash _).trans (congrArg _ ((hslash _).trans (congrArg _ hjoin)))

theorem partsOf_toText (h : p.Clean) : partsOf p.toText = p.parts := by
  by_cases hne : p.parts = []
  · obtain ⟨root, parts⟩ := p
    cases hne
    cases root <;> rfl
  · have hkeep : p.parts.filter (fun part => part != [] && part != dot) = p.parts :=
      List.filter_eq_self.mpr fun part hm => by simp [(h part hm).ne_nil, (h part hm).ne_dot]
    rw [partsOf, pieces_toText hne h, List.filter_append, hkeep]
    cases p.root <;> rfl

/-- A clean path is read back from its spelling. -/
theorem ofText_toText (h : p.Clean) : ofText p.toText = p := by
  rw [ofText, rootOf_toText h, partsOf_toText h]

end Path

-- ---------------------------------------------------------------------------
-- The system's view
-- ---------------------------------------------------------------------------

theorem toCharLossy_eq_slash (symbol : Symbol) : symbol.toCharLossy = slash.toCharLossy ↔
    symbol = slash := by
  cases symbol with
  | scalar c => simp [Symbol.toCharLossy, slash]
  | surrogate offset =>
    exact iff_of_false (by decide : '\ufffd' ≠ '/') (by simp [slash])

theorem Path.toString_ne (p : Path) : p.toString ≠ "" := by
  intro h
  have htext : p.toText = [] := List.map_eq_nil_iff.mp (String.ofList_injective h)
  unfold toText at htext
  dsimp only at htext
  split at htext
  · cases htext
  · contradiction

/-- A path from the root is spelled by a slash before each component, at least. -/
theorem Path.length_le_octets {p : Path} (h : p.isAbsolute = true) :
    p.parts.flatten.length + p.parts.length ≤ (Utf8.encodeString p.toString).length := by
  have hroot : 1 ≤ p.root.text.length := by
    cases hr : p.root with
    | relative => simp [isAbsolute, hr] at h
    | single | double => simp [PathRoot.text]
  have htext : p.toText = p.root.text ++ joinWith [slash] p.parts :=
    if_neg (List.append_ne_nil_of_left_ne_nil (List.length_pos_iff.mp hroot) _)
  have hoctets := Utf8.length_le_length_encode (p.toText.map Symbol.toCharLossy)
  rw [List.length_map, htext, List.length_append] at hoctets
  rw [Utf8.encodeString, toString, Text.toStringLossy, String.toList_ofList, htext]
  refine Nat.le_trans ?_ hoctets
  by_cases hne : p.parts = []
  · rw [hne]
    exact Nat.zero_le _
  · rw [← length_joinWith slash hne, Nat.add_comm]
    exact Nat.add_le_add_right hroot _

theorem Path.toString_getLast? {p : Path} (h : p.Clean) (hne : p.parts ≠ []) :
    p.toString.toList.getLast? ≠ some '/' := by
  have hpart := h _ (List.getLast_mem hne)
  have hchars : (p.parts.getLast hne).map Symbol.toCharLossy ≠ [] :=
    mt List.map_eq_nil_iff.mp hpart.ne_nil
  have hsplit : p =
      (⟨p.root, p.parts.dropLast⟩ : Path).join ⟨.relative, [p.parts.getLast hne]⟩ := by
    rw [join, List.dropLast_concat_getLast hne]
  rw [hsplit, toString, toText_join_component _ hpart.ne_nil, Text.toStringLossy,
    String.toList_ofList, List.map_append, List.getLast?_append,
    List.getLast?_eq_some_getLast hchars, Option.some_or]
  exact fun hl => Frontend.slash_not_mem_lossy hpart.slash_not_mem
    (Option.some.inj hl ▸ List.getLast_mem hchars)

namespace Files

variable {fs : Files} {here : Location} {p : Path} {follow : Bool}

/-- The components that the system visits are those of the path; where there is none, it stays. -/
theorem steps_toString (h : p.Clean) : steps p.toString =
    if p.parts = [] then ["."] else p.parts.map Text.toStringLossy := by
  by_cases hne : p.parts = []
  · obtain ⟨root, parts⟩ := p
    cases hne
    cases root <;> decide
  have hpieces : pieces '/' (p.toText.map Symbol.toCharLossy) =
      (p.root.text.map (fun _ => []) ++ p.parts).map (List.map Symbol.toCharLossy) := by
    rw [← Path.pieces_toText hne h]
    exact pieces_map _ toCharLossy_eq_slash _
  have hkeep : (p.parts.map Text.toStringLossy).filter (· != "") =
      p.parts.map Text.toStringLossy := by
    refine List.filter_eq_self.mpr fun name hm => ?_
    obtain ⟨part, hp, rfl⟩ := List.mem_map.mp hm
    refine bne_iff_ne.mpr fun he => (h part hp).ne_nil ?_
    exact List.map_eq_nil_iff.mp (String.ofList_injective he)
  have hroot : ((p.root.text.map fun _ => ([] : Text)).map Text.toStringLossy).filter (· != "") =
      [] := by
    cases p.root <;> decide
  rw [if_neg hne, steps, if_neg (Path.toString_getLast? h hne), splitString, Path.toString,
    Text.toStringLossy, String.toList_ofList, hpieces, List.map_map, List.map_append,
    List.filter_append]
  have hspell : String.ofList ∘ List.map Symbol.toCharLossy = Text.toStringLossy := rfl
  rw [hspell, hroot, hkeep, List.nil_append]

theorem startOf_toString (h : p.Clean) : startOf here p.toString =
    if p.isAbsolute then [] else here := by
  cases ha : p.isAbsolute with
  | true => rw [startOf, Path.toString_head? ha, if_pos rfl, if_pos rfl]
  | false =>
    have hroot : p.root = .relative := by simpa [Path.isAbsolute] using ha
    have hhead : p.toString.toList.head? ≠ some '/' := by
      obtain ⟨root, parts⟩ := p
      cases hroot
      cases parts with
      | nil => decide
      | cons part rest =>
        obtain ⟨first, more, rfl, hfirst⟩ := h.cons
        obtain ⟨tail, ht⟩ := Path.joinWith_cons first more rest
        have hother : first.toCharLossy ≠ '/' := mt (toCharLossy_eq_slash first).mp hfirst
        simpa [Path.toString, Path.toText, PathRoot.text, ht, Text.toStringLossy] using hother
    rw [startOf, if_neg hhead, if_neg Bool.false_ne_true]

theorem resolve_toString (h : p.Clean) : fs.resolve here follow p.toString =
    if (Utf8.encodeString p.toString).length > pathLimit then .error .nameTooLong
    else fs.walk follow linkLimit (if p.isAbsolute then [] else here)
      (if p.parts = [] then ["."] else p.parts.map Text.toStringLossy) := by
  rw [resolve, if_neg (Path.toString_ne p), startOf_toString h, steps_toString h]

theorem stat_long (h : p.Clean) (hlong : pathLimit < (Utf8.encodeString p.toString).length) :
    fs.stat here p.toString = .error .nameTooLong := by
  rw [stat, resolve_toString h, if_pos hlong]
  rfl

end Files

end Treewire
