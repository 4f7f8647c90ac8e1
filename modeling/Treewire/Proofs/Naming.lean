import Treewire.Proofs.Calling
import Treewire.Proofs.Places
import Treewire.Proofs.Utf8

/-!
# Names in a directory

The way to a name in a directory is the way to the directory, and then the name. The paths that one
frontend picks for outputs differ in their last component alone. It is a name of 46 octets in ASCII,
so the system goes the same way along all these paths, up to the last component.
-/

namespace Treewire

-- ---------------------------------------------------------------------------
-- Cutting
-- ---------------------------------------------------------------------------

section
variable {α : Type} [DecidableEq α] {separator : α}

theorem pieces_of_not_mem {xs : List α} (h : separator ∉ xs) : pieces separator xs = [xs] := by
  induction xs with
  | nil => rfl
  | cons x rest ih =>
    rw [List.mem_cons, not_or] at h
    simp only [pieces, ih h.2, if_neg (Ne.symm h.1)]

theorem not_mem_of_mem_pieces {piece xs : List α} (h : piece ∈ pieces separator xs) :
    separator ∉ piece := by
  induction xs generalizing piece with
  | nil =>
    rw [pieces, List.mem_singleton] at h
    exact h ▸ List.not_mem_nil
  | cons x rest ih =>
    rw [pieces] at h
    cases hp : pieces separator rest with
    | nil => exact absurd hp (pieces_ne_nil separator rest)
    | cons first more =>
      rw [hp] at h ih
      dsimp only at h
      split at h
      · rcases List.mem_cons.mp h with rfl | hm
        · exact List.not_mem_nil
        · exact ih hm
      · rename_i hx
        rcases List.mem_cons.mp h with rfl | hm
        · rw [List.mem_cons, not_or]
          exact ⟨Ne.symm hx, ih (List.mem_cons_self ..)⟩
        · exact ih (List.mem_cons_of_mem _ hm)

theorem pieces_append (xs ys : List α) :
    pieces separator (xs ++ separator :: ys) = pieces separator xs ++ pieces separator ys := by
  induction xs with
  | nil =>
    cases hp : pieces separator ys with
    | nil => exact absurd hp (pieces_ne_nil separator ys)
    | cons piece more => simp [pieces, hp]
  | cons x rest ih =>
    simp only [List.cons_append, pieces, ih]
    cases hp : pieces separator rest with
    | nil => exact absurd hp (pieces_ne_nil separator rest)
    | cons piece more =>
      simp only [List.cons_append]
      split <;> rfl

omit [DecidableEq α] in
theorem joinWith_append_singleton (xs : List (List α)) (last : List α) :
    joinWith [separator] (xs ++ [last]) = xs.flatMap (· ++ [separator]) ++ last := by
  induction xs with
  | nil => rfl
  | cons x rest ih =>
    have hcons : joinWith [separator] (x :: rest ++ [last]) =
        x ++ [separator] ++ joinWith [separator] (rest ++ [last]) := by
      cases rest <;> rfl
    rw [hcons, ih, List.flatMap_cons]
    simp only [List.append_assoc]

end

-- ---------------------------------------------------------------------------
-- Spelling
-- ---------------------------------------------------------------------------

namespace Path

/-- A text without slashes is one component. -/
theorem ofText_of_slash_not_mem (h : slash ∉ t) (hne : t ≠ []) (hdot : t ≠ dot) :
    ofText t = ⟨.relative, [t]⟩ := by
  have hroot : rootOf t = .relative := by
    rcases t with _ | ⟨a, _ | ⟨b, _ | ⟨c, rest⟩⟩⟩
    · rfl
    all_goals
      rw [List.mem_cons, not_or] at h
      exact if_neg (Ne.symm h.1)
  have hparts : partsOf t = [t] := by
    rw [partsOf, pieces_of_not_mem h]
    exact List.filter_cons_of_pos (by simp [hne, hdot])
  rw [ofText, hroot, hparts]

theorem toText_join_component (p : Path) (hne : t ≠ []) :
    (p.join ⟨.relative, [t]⟩).toText = p.root.text ++ p.parts.flatMap (· ++ [slash]) ++ t := by
  have hsome : p.root.text ++ p.parts.flatMap (· ++ [slash]) ++ t ≠ [] := by simp [hne]
  rw [toText, join, joinWith_append_singleton, ← List.append_assoc, if_neg hsome]

end Path

-- ---------------------------------------------------------------------------
-- The way to the last component
-- ---------------------------------------------------------------------------

namespace Files

variable {fs : Files} {follow : Bool} {links : Nat} {here : Location} {name : String}

theorem stride_front (fs : Files) (follow : Bool) (links : Nat) (here : Location) (name : String)
    (front : List String) :
    (∃ e, ∀ last, fs.stride follow links here name (front ++ [last]) = .error e) ∨
      ∃ links' here' front', ∀ last,
        fs.stride follow links here name (front ++ [last]) = .ok (links', here', front' ++ [last]) := by
  have hmore (last : String) : (front ++ [last]).isEmpty = false := by simp
  simp only [stride, hmore]
  by_cases hin : fs.isDirectory here = false
  · exact .inl ⟨_, fun last => if_pos hin⟩
  by_cases hd : name = "."
  · exact .inr ⟨links, here, front, fun last => by rw [if_neg hin, if_pos hd]⟩
  by_cases hdd : name = ".."
  · exact .inr ⟨links, here.dropLast, front, fun last => by
      rw [if_neg hin, if_neg hd, if_pos hdd]⟩
  by_cases hlong : (Utf8.encodeString name).length > nameLimit
  · exact .inl ⟨.nameTooLong, fun last => by
      rw [if_neg hin, if_neg hd, if_neg hdd, if_pos hlong]⟩
  simp only [if_neg hin, if_neg hd, if_neg hdd, if_neg hlong]
  cases fs.get? (here ++ [name]) with
  | none => exact .inl ⟨.noEntry, fun last => rfl⟩
  | some entry =>
    cases entry with
    | link target =>
      cases links with
      | zero => exact .inl ⟨.tooManyLinks, fun last => rfl⟩
      | succ links =>
        exact .inr ⟨links, startOf here target, steps target ++ front, fun last => by simp⟩
    | _ => exact .inr ⟨links, here ++ [name], front, fun last => rfl⟩

/-- Up to its last component, a walk does not depend on that component. -/
theorem walk_front (fs : Files) (follow : Bool) (links : Nat) (here : Location)
    (front : List String) :
    (∃ e, ∀ last, fs.walk follow links here (front ++ [last]) = .error e) ∨
      ∃ links' d, ∀ last,
        fs.walk follow links here (front ++ [last]) = fs.walk follow links' d [last] := by
  -- The walk with some last component; what it does before that one is what all of them do.
  generalize htodo : front ++ ["."] = todo
  induction links, here, todo using walk_induction fs follow generalizing front with
  | nil => exact absurd htodo (by simp)
  | stop links here name rest e hs =>
    cases front with
    | nil => exact .inr ⟨links, here, fun last => rfl⟩
    | cons first front =>
      obtain ⟨rfl, rfl⟩ := List.cons.inj (List.cons_append ▸ htodo)
      rcases stride_front fs follow links here first front with ⟨e', he⟩ | ⟨_, _, _, hgo⟩
      · exact .inl ⟨e', fun last => by rw [List.cons_append, walk_cons, he]⟩
      · rw [hgo] at hs
        cases hs
  | go links here name rest links' here' todo' hs ih =>
    cases front with
    | nil => exact .inr ⟨links, here, fun last => rfl⟩
    | cons first front =>
      obtain ⟨rfl, rfl⟩ := List.cons.inj (List.cons_append ▸ htodo)
      rcases stride_front fs follow links here first front with ⟨e', he⟩ | ⟨_, _, front', hgo⟩
      · rw [he] at hs
        cases hs
      · rw [hgo] at hs
        cases hs
        simp only [List.cons_append, walk_of_stride (hgo _)]
        exact ih front' rfl

/-- A last component that is a short name, and not followed, leads to its place in a directory. -/
theorem walk_last (hd : name ≠ ".") (hdd : name ≠ "..")
    (hshort : (Utf8.encodeString name).length ≤ nameLimit) :
    fs.walk false links here [name] =
      if fs.isDirectory here = false then
        .error (if (fs.get? here).isSome then .notDirectory else .noEntry)
      else .ok (here ++ [name]) := by
  have hstride : fs.stride false links here name [] =
      if fs.isDirectory here = false then
        .error (if (fs.get? here).isSome then .notDirectory else .noEntry)
      else .ok (links, here ++ [name], []) := by
    rw [stride, if_neg hd, if_neg hdd, if_neg (Nat.not_lt.mpr hshort)]
    rcases fs.get? (here ++ [name]) with _ | _ | _ | _ | _ | _ <;> rfl
  rw [walk_cons, hstride]
  by_cases hin : fs.isDirectory here = false
  · rw [if_pos hin, if_pos hin]
  · rw [if_neg hin, if_neg hin]
    exact walk_nil

theorem isDirectory_of_walk (h : fs.walk follow links here (name :: rest) = .ok loc) :
    fs.isDirectory here = true := by
  obtain ⟨_, _, _, hs, -⟩ := walk_ok h
  exact isDirectory_of_stride hs

end Files

-- ---------------------------------------------------------------------------
-- Names
-- ---------------------------------------------------------------------------

namespace Frontend

/-- What the name of each output starts with, and what it ends in. -/
def nameFront : List Char := "00000000-0000-4000-8000-".toList

def nameEnding : List Char := ".ast.proto".toList

/-- The name of an output. -/
def outputName (serial : Nat) : List Char := nameFront ++ Text.hexDigits 12 serial ++ nameEnding

theorem nameOf_eq (serial : Nat) :
    Machine.nameOf serial = String.ofList (nameFront ++ Text.hexDigits 12 serial) := by
  have hfront : Machine.hexText 8 0 ++ "-" ++ Machine.hexText 4 0 ++ "-4" ++ Machine.hexText 3 0 ++
      "-8" ++ Machine.hexText 3 0 ++ "-" = String.ofList nameFront := by
    decide
  rw [String.ofList_append, ← hfront]
  rfl

theorem outputName_eq (serial : Nat) :
    Text.ofString (Machine.nameOf serial) ++ outputEnding = (outputName serial).map .scalar := by
  have hending : outputEnding = nameEnding.map .scalar := rfl
  rw [nameOf_eq, Text.ofString, Text.ofChars, String.toList_ofList, outputName, hending,
    ← List.map_append]

theorem hexDigit_plain (n : Nat) : (Json.hexDigit n).toNat < 0x80 ∧ Json.hexDigit n ≠ '/' := by
  have all : ∀ m < 16, (Nat.digitChar m).toNat < 0x80 ∧ Nat.digitChar m ≠ '/' := by decide
  exact all _ (Nat.mod_lt _ (by decide))

theorem outputName_plain (serial : Nat) : ∀ c ∈ outputName serial, c.toNat < 0x80 ∧ c ≠ '/' := by
  have hfront : nameFront.all (fun c => c.toNat < 0x80 && c != '/') = true := by rfl
  have hending : nameEnding.all (fun c => c.toNat < 0x80 && c != '/') = true := by rfl
  intro c hc
  rcases List.mem_append.mp hc with hc | hc
  · rcases List.mem_append.mp hc with hc | hc
    · simpa using List.all_eq_true.mp hfront c hc
    · obtain ⟨i, -, rfl⟩ := List.mem_map.mp hc
      exact hexDigit_plain _
  · simpa using List.all_eq_true.mp hending c hc

theorem slash_not_mem_scalars (serial : Nat) : slash ∉ (outputName serial).map Symbol.scalar := by
  intro h
  obtain ⟨c, hc, he⟩ := List.mem_map.mp h
  exact (outputName_plain serial c hc).2 (Symbol.scalar.inj he)

theorem outputName_length (serial : Nat) : (outputName serial).length = 46 := by
  have hdigits : (Text.hexDigits 12 serial).length = 12 := by
    rw [Text.hexDigits, List.length_map, List.length_reverse, List.length_range]
  have hfront : nameFront.length = 24 := by rfl
  have hending : nameEnding.length = 10 := by rfl
  rw [outputName, List.length_append, List.length_append, hdigits, hfront, hending]

theorem outputName_octets (serial : Nat) : (Utf8.encode (outputName serial)).length = 46 := by
  rw [Utf8.length_encode_of_ascii fun c hc => (outputName_plain serial c hc).1, outputName_length]

/-- The name of an output is none of the short names that mean something. -/
theorem outputName_ne (serial : Nat) (h : cs.length < 46) : outputName serial ≠ cs := by
  rintro rfl
  exact Nat.lt_irrefl 46 (outputName_length serial ▸ h)

theorem outputString_ne (serial : Nat) (h : text.toList.length < 46) :
    String.ofList (outputName serial) ≠ text := by
  rintro rfl
  rw [String.toList_ofList] at h
  exact outputName_ne serial h rfl

theorem outputString_octets (serial : Nat) :
    (Utf8.encodeString (String.ofList (outputName serial))).length = 46 := by
  rw [Utf8.encodeString, String.toList_ofList, outputName_octets]

theorem outputString_short (serial : Nat) :
    (Utf8.encodeString (String.ofList (outputName serial))).length ≤ Files.nameLimit := by
  rw [outputString_octets]
  decide

theorem nameOf_eq_of_outputName_eq (h : outputName i = outputName j) :
    Machine.nameOf i = Machine.nameOf j := by
  rw [nameOf_eq, nameOf_eq, List.append_cancel_right h]

-- ---------------------------------------------------------------------------
-- Paths
-- ---------------------------------------------------------------------------

/-- What stands before the name in the path of an output. -/
def outputFront (directory : Path) : List Char :=
  (directory.root.text ++ directory.parts.flatMap (· ++ [slash])).map Symbol.toCharLossy

theorem outputFront_cases (directory : Path) : outputFront directory = [] ∨
    ∃ front, outputFront directory = front ++ ['/'] := by
  rcases directory with ⟨root, parts⟩
  rcases List.eq_nil_or_concat parts with rfl | ⟨parts, last, rfl⟩
  · cases root with
    | relative => exact .inl rfl
    | single => exact .inr ⟨[], rfl⟩
    | double => exact .inr ⟨['/'], rfl⟩
  · right
    refine ⟨(root.text ++ (parts.flatMap (· ++ [slash]) ++ last)).map Symbol.toCharLossy, ?_⟩
    simp only [outputFront, List.concat_eq_append, List.flatMap_append, List.flatMap_cons,
      List.flatMap_nil, List.append_nil, List.map_append, List.append_assoc]
    rfl

/-- A name after a slash, or after nothing, is the last component. -/
theorem components_append (hfront : front = [] ∨ ∃ above, front = above ++ ['/'])
    (hname : '/' ∉ name) (hne : name ≠ []) :
    ((pieces '/' (front ++ name)).map String.ofList).filter (· != "") =
      ((pieces '/' front).map String.ofList).filter (· != "") ++ [String.ofList name] := by
  have hkeep : [String.ofList name].filter (· != "") = [String.ofList name] :=
    List.filter_cons_of_pos (bne_iff_ne.mpr fun h => hne (String.ofList_injective h))
  have hdrop : [String.ofList []].filter (· != "") = [] := by decide
  rcases hfront with rfl | ⟨above, rfl⟩
  · rw [List.nil_append, pieces_of_not_mem hname]
    exact hkeep
  · rw [List.append_assoc, List.singleton_append, pieces_append, pieces_append,
      pieces_of_not_mem hname]
    simp only [pieces, List.map_append, List.filter_append, List.map_cons, List.map_nil, hkeep,
      hdrop, List.append_nil]

/-- The components of a directory. -/
def stepsTo (directory : Path) : List String :=
  ((pieces '/' (outputFront directory)).map String.ofList).filter (· != "")

/-- Where the way to a directory starts. -/
def startTo (here : Location) (directory : Path) : Location :=
  if (outputFront directory).head? = some '/' then [] else here

section
variable {name : Text}

theorem slash_not_mem_lossy (h : slash ∉ name) : '/' ∉ name.map Symbol.toCharLossy := by
  intro hm
  obtain ⟨symbol, hs, he⟩ := List.mem_map.mp hm
  cases symbol with
  | scalar c =>
    obtain rfl : c = '/' := he
    exact h hs
  | surrogate offset => exact absurd he (by decide : '\ufffd' ≠ '/')

theorem component_toString (directory : Path) (hne : name ≠ []) :
    (directory.join ⟨.relative, [name]⟩).toString =
      String.ofList (outputFront directory ++ name.map Symbol.toCharLossy) := by
  rw [Path.toString, Path.toText_join_component _ hne, Text.toStringLossy, List.map_append,
    outputFront]

theorem component_ne (directory : Path) (hne : name ≠ []) :
    (directory.join ⟨.relative, [name]⟩).toString ≠ "" := by
  intro h
  rw [component_toString _ hne] at h
  have hl := congrArg String.toList h
  rw [String.toList_ofList] at hl
  exact hne (List.map_eq_nil_iff.mp (List.append_eq_nil_iff.mp hl).2)

theorem component_octets (directory : Path) (hne : name ≠ []) :
    (Utf8.encodeString (directory.join ⟨.relative, [name]⟩).toString).length =
      (Utf8.encode (outputFront directory)).length +
        (Utf8.encodeString name.toStringLossy).length := by
  rw [component_toString _ hne, Utf8.encodeString, String.toList_ofList, Utf8.encode,
    List.flatMap_append, List.length_append, Utf8.encodeString, Text.toStringLossy,
    String.toList_ofList]
  rfl

theorem startOf_component (directory : Path) (here : Location) (hs : slash ∉ name)
    (hne : name ≠ []) :
    Files.startOf here (directory.join ⟨.relative, [name]⟩).toString = startTo here directory := by
  have hhead : (name.map Symbol.toCharLossy).head? ≠ some '/' :=
    fun h => slash_not_mem_lossy hs (List.mem_of_head? h)
  have hstart : (outputFront directory ++ name.map Symbol.toCharLossy).head? = some '/' ↔
      (outputFront directory).head? = some '/' := by
    generalize name.map Symbol.toCharLossy = cs at hhead
    rw [List.head?_append]
    cases (outputFront directory).head? <;> simp [hhead]
  simp only [component_toString _ hne, Files.startOf, String.toList_ofList, hstart, startTo]

theorem steps_component (directory : Path) (hs : slash ∉ name) (hne : name ≠ []) :
    Files.steps (directory.join ⟨.relative, [name]⟩).toString =
      stepsTo directory ++ [name.toStringLossy] := by
  have hne : name.map Symbol.toCharLossy ≠ [] := fun h => hne (List.map_eq_nil_iff.mp h)
  have hlast : (outputFront directory ++ name.map Symbol.toCharLossy).getLast? ≠ some '/' := by
    rw [List.getLast?_append, List.getLast?_eq_some_getLast hne, Option.some_or]
    exact fun h => slash_not_mem_lossy hs (Option.some.inj h ▸ List.getLast_mem hne)
  simp only [component_toString _ (mt (congrArg _) hne), Files.steps, String.toList_ofList,
    if_neg hlast, splitString]
  exact components_append (outputFront_cases directory) (slash_not_mem_lossy hs) hne

/-- The way to a name in a directory: the way to the directory, and then the name. -/
theorem resolve_component (fs : Files) (here : Location) (directory : Path) (hs : slash ∉ name)
    (hne : name ≠ []) :
    fs.resolve here false (directory.join ⟨.relative, [name]⟩).toString =
      if (Utf8.encode (outputFront directory)).length +
          (Utf8.encodeString name.toStringLossy).length > Files.pathLimit then .error .nameTooLong
      else fs.walk false Files.linkLimit (startTo here directory)
        (stepsTo directory ++ [name.toStringLossy]) := by
  rw [Files.resolve, if_neg (component_ne _ hne), component_octets _ hne,
    startOf_component _ _ hs hne, steps_component _ hs hne]

end

/-! The paths of outputs in one directory are alike up to the name. -/

/-- An output is a component of its directory. -/
theorem fileIn_eq (directory : Path) (serial : Nat) : fileIn directory serial outputEnding =
    directory.join ⟨.relative, [(outputName serial).map .scalar]⟩ := by
  have hlong (t : Text) (h : t.length < 46) : (outputName serial).map .scalar ≠ t := by
    rintro rfl
    rw [List.length_map, outputName_length] at h
    exact Nat.lt_irrefl 46 h
  rw [fileIn, outputName_eq, Path.ofText_of_slash_not_mem (slash_not_mem_scalars serial)
    (hlong _ (by decide)) (hlong _ (by decide))]

theorem outputName_scalars (serial : Nat) :
    Text.toStringLossy ((outputName serial).map .scalar) = String.ofList (outputName serial) := by
  have hsame : Symbol.toCharLossy ∘ Symbol.scalar = id := rfl
  rw [Text.toStringLossy, List.map_map, hsame, List.map_id]

theorem scalars_ne_nil (serial : Nat) : (outputName serial).map Symbol.scalar ≠ [] :=
  fun h => outputName_ne serial (by decide) (List.map_eq_nil_iff.mp h)

theorem fileIn_toString (directory : Path) (serial : Nat) :
    (fileIn directory serial outputEnding).toString =
      String.ofList (outputFront directory ++ outputName serial) := by
  have hsame : Symbol.toCharLossy ∘ Symbol.scalar = id := rfl
  rw [fileIn_eq, component_toString _ (scalars_ne_nil serial), List.map_map, hsame, List.map_id]

/-- Either all outputs in a directory have a place there, each its own, or none has any. -/
theorem resolve_fileIn (fs : Files) (here : Location) (directory : Path) :
    (∃ e, ∀ serial,
      fs.resolve here false (fileIn directory serial outputEnding).toString = .error e) ∨
    ∃ d, ∀ serial, fs.resolve here false (fileIn directory serial outputEnding).toString =
      .ok (d ++ [String.ofList (outputName serial)]) := by
  have hresolve (serial : Nat) :
      fs.resolve here false (fileIn directory serial outputEnding).toString =
        if (Utf8.encode (outputFront directory)).length + 46 > Files.pathLimit then
          .error .nameTooLong
        else fs.walk false Files.linkLimit (startTo here directory)
          (stepsTo directory ++ [String.ofList (outputName serial)]) := by
    rw [fileIn_eq, resolve_component fs here directory (slash_not_mem_scalars serial)
      (scalars_ne_nil serial), outputName_scalars, outputString_octets]
  by_cases hlong : (Utf8.encode (outputFront directory)).length + 46 > Files.pathLimit
  · refine .inl ⟨.nameTooLong, fun serial => ?_⟩
    rw [hresolve, if_pos hlong]
  simp only [hresolve, if_neg hlong]
  rcases Files.walk_front fs false Files.linkLimit _ (stepsTo directory) with
    ⟨e, he⟩ | ⟨links, d, hgo⟩
  · exact .inl ⟨e, fun serial => he _⟩
  have hlast (serial : Nat) :
      fs.walk false links d [String.ofList (outputName serial)] = _ :=
    Files.walk_last (outputString_ne serial (by decide)) (outputString_ne serial (by decide))
      (outputString_short serial)
  by_cases hin : fs.isDirectory d = false
  · refine .inl ⟨if (fs.get? d).isSome then .notDirectory else .noEntry, fun serial => ?_⟩
    rw [hgo, hlast, if_pos hin]
  · refine .inr ⟨d, fun serial => ?_⟩
    rw [hgo, hlast, if_neg hin]

end Frontend

end Treewire
