import Treewire.Proofs.FirstMatch

/-!
# Names on the way down

Where a path from the root leads is told by names, each of an entry in the directory before. So the
path that spells a location visits just these names, and the directory of a file that is there is
there too.
-/

namespace Treewire

-- ---------------------------------------------------------------------------
-- Names on the way
-- ---------------------------------------------------------------------------

namespace Files

variable {fs : Files} {here loc : Location} {path name : String}

/-- A component that a path can have. -/
structure IsStep (name : String) : Prop where
  ne_nil : name ≠ ""
  slash_not_mem : '/' ∉ name.toList

/-- A component that leads further down. -/
structure IsDescent (name : String) : Prop extends IsStep name where
  ne_dot : name ≠ "."
  ne_dots : name ≠ ".."

/-- Locations are made of such components. -/
def Descends (loc : Location) : Prop := ∀ name ∈ loc, IsDescent name

theorem isStep_steps (path : String) : ∀ name ∈ steps path, IsStep name := by
  have hparts : ∀ name ∈ (splitString '/' path).filter (· != ""), IsStep name := by
    intro name hm
    obtain ⟨hm, hne⟩ := List.mem_filter.mp hm
    obtain ⟨piece, hp, rfl⟩ := List.mem_map.mp hm
    refine ⟨bne_iff_ne.mp hne, ?_⟩
    rw [String.toList_ofList]
    exact not_mem_of_mem_pieces hp
  unfold steps
  dsimp only
  split
  · intro name hm
    rcases List.mem_append.mp hm with hm | hm
    · exact hparts name hm
    · rw [List.mem_singleton.mp hm]
      exact ⟨by decide, by decide⟩
  · exact hparts

theorem descends_nil : Descends [] := List.forall_mem_nil _

theorem Descends.append (h : Descends loc) (hs : IsStep name) (hd : name ≠ ".")
    (hdd : name ≠ "..") : Descends (loc ++ [name]) := by
  intro other hm
  rcases List.mem_append.mp hm with hm | hm
  · exact h other hm
  · rw [List.mem_singleton.mp hm]
    exact ⟨hs, hd, hdd⟩

theorem Descends.dropLast (h : Descends loc) : Descends loc.dropLast :=
  fun name hm => h name (List.mem_of_mem_dropLast hm)

theorem Descends.startOf (h : Descends loc) (path : String) : Descends (startOf loc path) := by
  unfold Files.startOf
  split
  · exact descends_nil
  · exact h

theorem Descends.spell (h : Descends loc) {todo : List String} (ht : ∀ name ∈ todo, IsStep name) :
    Descends (spell loc todo) := by
  induction todo generalizing loc with
  | nil => exact h
  | cons name rest ih =>
    rw [List.forall_mem_cons] at ht
    rw [Files.spell, List.foldl_cons, ← Files.spell]
    refine ih ?_ ht.2
    split
    · exact h
    · split
      · exact h.dropLast
      · exact h.append ht.1 ‹_› ‹_›

theorem Descends.follow (h : Descends loc) {met : List Location} {todo : List String}
    (ht : ∀ name ∈ todo, IsStep name) : Descends (fs.follow met loc todo).1 := by
  fun_induction fs.follow met loc todo with
  | case1 => exact h
  | case2 _ _ _ ih => exact ih h (List.forall_mem_cons.mp ht).2
  | case3 _ _ _ _ ih => exact ih h.dropLast (List.forall_mem_cons.mp ht).2
  | case4 met here name rest hd hdd target hg hm =>
    obtain ⟨hs, hrest⟩ := List.forall_mem_cons.mp ht
    exact (h.append hs hd hdd).spell hrest
  | case5 met here name rest hd hdd target hg hm loc hloc ihlink ih =>
    rw [hloc] at ihlink
    exact ih (ihlink (h.startOf target) (isStep_steps target)) (List.forall_mem_cons.mp ht).2
  | case6 met here name rest hd hdd target hg hm loc hloc ihlink =>
    rw [hloc] at ihlink
    exact (ihlink (h.startOf target) (isStep_steps target)).spell (List.forall_mem_cons.mp ht).2
  | case7 met here name rest hd hdd hl ih =>
    obtain ⟨hs, hrest⟩ := List.forall_mem_cons.mp ht
    exact ih (h.append hs hd hdd) hrest

/-- Where a path from the root leads, the way is spelled by the names on it. -/
theorem descends_canonical (ha : path.toList.head? = some '/')
    (h : fs.canonical? here path = some loc) : Descends loc := by
  have hfollow : Descends (fs.follow [] (startOf here path) (steps path)).1 := by
    rw [startOf, if_pos ha]
    exact descends_nil.follow (isStep_steps path)
  unfold canonical? at h
  generalize fs.follow [] (startOf here path) (steps path) = followed at h hfollow
  obtain ⟨found, whole⟩ := followed
  cases whole with
  | true =>
    cases h
    exact hfollow
  | false =>
    dsimp only at h
    split at h
    · cases h
    · cases h
      exact hfollow

end Files

-- ---------------------------------------------------------------------------
-- The directory and the name
-- ---------------------------------------------------------------------------

namespace Location

/-- The directory of a file, as the compiler is told of it. -/
def directory (file : Location) : String := Location.path file.dropLast

/-- The name of a file in its directory. -/
def fileName (file : Location) : String := file.getLast?.getD ""

theorem exists_append {file : Location} (h : file ≠ []) :
    ∃ (above : Location) (name : String), file = above ++ [name] :=
  ⟨_, _, (List.dropLast_concat_getLast h).symm⟩

theorem directory_append (above : Location) (name : String) :
    directory (above ++ [name]) = above.path := by
  rw [directory, List.dropLast_concat]

theorem fileName_append (above : Location) (name : String) :
    fileName (above ++ [name]) = name := by
  rw [fileName, List.getLast?_append, List.getLast?_singleton, Option.some_or, Option.getD_some]

theorem intercalate_concat {α : Type} (separator : List α) {parts : List (List α)}
    (hne : parts ≠ []) (last : List α) : separator.intercalate (parts ++ [last]) =
      separator.intercalate parts ++ separator ++ last := by
  induction parts with
  | nil => exact absurd rfl hne
  | cons part rest ih =>
    cases rest with
    | nil => simp
    | cons next rest =>
      rw [List.cons_append, List.cons_append, List.intercalate_cons_cons, ← List.cons_append,
        ih (by simp), List.intercalate_cons_cons]
      simp only [List.append_assoc]

/-- Below the root, a slash between the directory and the name makes up the path. -/
theorem path_append {above : Location} (hne : above ≠ []) (name : String) :
    Location.path (above ++ [name]) = above.path ++ "/" ++ name := by
  have hnames : above.map String.toList ≠ [] := mt List.map_eq_nil_iff.mp hne
  rw [← String.toList_inj, path, path]
  simp only [String.toList_append, String.toList_intercalate, List.map_append, List.map_singleton,
    intercalate_concat _ hnames, List.append_assoc]

end Location

namespace Files

variable {fs : Files} {here loc : Location} {name : String} {content : Bytes} {mode : Nat}
  {entry : Entry} {links links' : Nat} {front rest todo : List String} {follow : Bool}

theorem length_encodeString_append (s t : String) : (Utf8.encodeString (s ++ t)).length =
    (Utf8.encodeString s).length + (Utf8.encodeString t).length := by
  simp only [Utf8.encodeString, Utf8.encode, String.toList_append, List.flatMap_append,
    List.length_append]

theorem length_le_of_resolve {path : String} (h : fs.resolve here follow path = .ok loc) :
    (Utf8.encodeString path).length ≤ pathLimit := by
  refine Nat.not_lt.mp fun hlong => ?_
  rw [resolve, if_pos hlong] at h
  split at h <;> cases h

theorem Descends.clean (h : Descends loc) (root : PathRoot) :
    Path.Clean ⟨root, loc.map Text.ofString⟩ := by
  intro part hm
  obtain ⟨name, hn, rfl⟩ := List.mem_map.mp hm
  have hname := h name hn
  exact isPart_ofString hname.ne_nil hname.ne_dot hname.slash_not_mem

/-- Names that lead down are the components to visit. -/
theorem steps_names (h : Descends loc) (root : PathRoot) :
    steps (Path.toString ⟨root, loc.map Text.ofString⟩) = if loc = [] then ["."] else loc := by
  have hnames : (loc.map Text.ofString).map Text.toStringLossy = loc := by
    simp [List.map_map, Function.comp_def, Text.toStringLossy_ofString]
  rw [steps_toString (h.clean root), hnames]
  simp only [List.map_eq_nil_iff]

theorem startOf_names (h : Descends loc) (hr : root ≠ .relative) :
    startOf here (Path.toString ⟨root, loc.map Text.ofString⟩) = [] := by
  rw [startOf_toString (h.clean root)]
  exact if_pos (bne_iff_ne.mpr hr)

theorem resolve_names (h : Descends loc) (hr : root ≠ .relative) {path : String}
    (hp : path = Path.toString ⟨root, loc.map Text.ofString⟩)
    (hshort : (Utf8.encodeString path).length ≤ pathLimit) : fs.resolve here follow path =
      fs.walk follow linkLimit [] (if loc = [] then ["."] else loc) := by
  subst hp
  rw [resolve, if_neg (Path.toString_ne _), if_neg (Nat.not_lt.mpr hshort), startOf_names h hr,
    steps_names h]

theorem path_eq (loc : Location) : loc.path = Path.toString ⟨.single, loc.map Text.ofString⟩ := by
  rw [Path.toString, ← Location.ofString_path, Text.toStringLossy_ofString]

/-- The path of a location visits the names in it, from the root. -/
theorem resolve_path (h : Descends loc)
    (hshort : (Utf8.encodeString loc.path).length ≤ pathLimit) : fs.resolve here follow loc.path =
      fs.walk follow linkLimit [] (if loc = [] then ["."] else loc) :=
  resolve_names h (by decide) (path_eq loc) hshort

theorem stat_root : fs.stat here (Location.path []) = .ok ([], .directory) := by
  refine stat_ok.mpr ⟨?_, rfl⟩
  rw [resolve_path descends_nil (by decide), if_pos rfl,
    walk_dot (by simp [isDirectory, get?_root]), walk_nil]

/-- The root is no file. -/
theorem ne_root_of_file {file : Location}
    (h : fs.stat here file.path = .ok (loc, .file content mode)) : file ≠ [] := by
  rintro rfl
  cases stat_root.symm.trans h

/-- A stride does the same whether or not one will stay where the way ends. -/
theorem stride_dot
    (h : fs.stride true links here name (rest ++ ["."]) = .ok (links', here', todo)) :
    ∃ rest', todo = rest' ++ ["."] ∧
      fs.stride true links here name rest = .ok (links', here', rest') := by
  have hmore : (rest ++ ["."]).isEmpty = false := by simp
  simp only [stride, hmore] at h ⊢
  by_cases hin : fs.isDirectory here = false
  · rw [if_pos hin] at h
    cases h
  by_cases hd : name = "."
  · rw [if_neg hin, if_pos hd] at h ⊢
    cases h
    exact ⟨rest, rfl, rfl⟩
  by_cases hdd : name = ".."
  · rw [if_neg hin, if_neg hd, if_pos hdd] at h ⊢
    cases h
    exact ⟨rest, rfl, rfl⟩
  by_cases hlong : (Utf8.encodeString name).length > nameLimit
  · rw [if_neg hin, if_neg hd, if_neg hdd, if_pos hlong] at h
    cases h
  simp only [if_neg hin, if_neg hd, if_neg hdd, if_neg hlong] at h ⊢
  cases hg : fs.get? (here ++ [name]) with
  | none =>
    rw [hg] at h
    cases h
  | some entry =>
    rw [hg] at h
    cases entry with
    | link target =>
      cases links with
      | zero => cases h
      | succ links =>
        cases h
        exact ⟨steps target ++ rest, (List.append_assoc ..).symm, by simp⟩
    | _ =>
      cases h
      exact ⟨rest, rfl, rfl⟩

/-- Where one can stay, one gets to. -/
theorem walk_of_dot (h : fs.walk true links here (front ++ ["."]) = .ok loc) :
    fs.walk true links here front = .ok loc := by
  generalize htodo : front ++ ["."] = todo at h
  induction links, here, todo using walk_induction fs true generalizing front with
  | nil => exact absurd htodo (by simp)
  | stop links here name rest e hs =>
    rw [walk_cons, hs] at h
    cases h
  | go links here name rest links' here' todo hs ih =>
    cases front with
    | nil =>
      obtain ⟨rfl, rfl⟩ := List.cons.inj htodo
      rw [walk_dot (isDirectory_of_stride hs)] at h
      exact h
    | cons first front =>
      obtain ⟨rfl, rfl⟩ := List.cons.inj (List.cons_append ▸ htodo)
      obtain ⟨front', rfl, hgo⟩ := stride_dot hs
      rw [walk_of_stride hs] at h
      rw [walk_of_stride hgo]
      exact ih rfl h

/-- The directory that a file is in is there. -/
theorem stat_directory {file : Location} (hd : Descends file)
    (h : fs.stat here file.path = .ok (loc, .file content mode)) :
    ∃ found, fs.stat here file.directory = .ok found := by
  obtain ⟨above, name, rfl⟩ := Location.exists_append (ne_root_of_file h)
  rw [Location.directory_append]
  by_cases hne : above = []
  · subst hne
    exact ⟨_, stat_root⟩
  have hshorter : (Utf8.encodeString above.path).length ≤
      (Utf8.encodeString (Location.path (above ++ [name]))).length := by
    rw [Location.path_append hne, String.append_assoc, length_encodeString_append]
    exact Nat.le_add_right ..
  have hr := (stat_ok.mp h).1
  have hshort := length_le_of_resolve hr
  have hsome : above ++ [name] ≠ [] := by simp
  rw [resolve_path hd hshort, if_neg hsome] at hr
  rcases walk_front fs true linkLimit [] above with ⟨e, he⟩ | ⟨links', d, hall⟩
  · cases (he name).symm.trans hr
  have hin : fs.isDirectory d = true := isDirectory_of_walk ((hall name).symm.trans hr)
  have hwalk : fs.walk true linkLimit [] above = .ok d :=
    walk_of_dot ((hall ".").trans ((walk_dot hin).trans walk_nil))
  have hget : fs.get? d = some .directory := by simpa [isDirectory] using hin
  refine ⟨_, stat_ok.mpr ⟨?_, hget⟩⟩
  have habove : Descends above := fun name hm => hd name (List.mem_append_left _ hm)
  rw [resolve_path habove (Nat.le_trans hshorter hshort), if_neg hne, hwalk]

theorem Descends.fileName {file : Location} (h : Descends file) (hne : file ≠ []) :
    IsDescent file.fileName := by
  obtain ⟨above, name, rfl⟩ := Location.exists_append hne
  rw [Location.fileName_append]
  exact h name (by simp)

theorem IsName.isDescent (h : IsName name) : IsDescent name :=
  ⟨⟨h.ne_nil, h.slash_not_mem⟩, h.ne_dot, h.ne_dots⟩

theorem Stands.descends {above : Location} (h : fs.Stands above) (hn : IsName name) :
    Descends (above ++ [name]) := by
  intro other hm
  rcases List.mem_append.mp hm with hm | hm
  · exact (h.names other hm).isDescent
  · exact List.mem_singleton.mp hm ▸ hn.isDescent

end Files
end Treewire
