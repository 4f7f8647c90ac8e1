import Mathlib.Data.List.Infix
import Treewire.Proofs.Moving
import Treewire.Proofs.Searching
import Treewire.Proofs.Spelling

/-!
# The first match wins

A search that is refused nowhere finds the first of its places that holds an executable file, and
gives its path as it is seen from the root. That path leads to the file from everywhere, if the
system takes a path so long; what `locate_first` says of it is not true of longer ones.
-/

namespace Treewire

-- ---------------------------------------------------------------------------
-- Where one stands
-- ---------------------------------------------------------------------------

namespace Files

/-- A name that an entry of a directory may have. -/
structure IsName (name : String) : Prop where
  ne_nil : name ≠ ""
  ne_dot : name ≠ "."
  ne_dots : name ≠ ".."
  slash_not_mem : '/' ∉ name.toList
  short : (Utf8.encodeString name).length ≤ nameLimit

/-- A location to which directories lead, each by its name. -/
structure Stands (fs : Files) (loc : Location) : Prop where
  names : ∀ name ∈ loc, IsName name
  directories : ∀ above, above <+: loc → fs.isDirectory above = true

variable {fs : Files} {above below here : Location} {follow : Bool} {links : Nat} {name : String}
  {rest : List String}

theorem isPart_ofString (hne : name ≠ "") (hd : name ≠ ".") (hs : '/' ∉ name.toList) :
    Path.IsPart (Text.ofString name) where
  ne_nil he := hne (Text.ofString_injective (b := "") he)
  ne_dot he := hd (Text.ofString_injective (b := ".") he)
  slash_not_mem hm := by
    obtain ⟨c, hc, he⟩ := List.mem_map.mp hm
    cases he
    exact hs hc

theorem IsName.isPart (h : IsName name) : Path.IsPart (Text.ofString name) :=
  isPart_ofString h.ne_nil h.ne_dot h.slash_not_mem

/-- A plain name leads to what has it, unless that is a link. -/
theorem walk_name (h : IsName name) (hin : fs.isDirectory here = true)
    (hg : fs.get? (here ++ [name]) = some entry) (hl : ∀ target, entry ≠ .link target) :
    fs.walk follow links here (name :: rest) = fs.walk follow links (here ++ [name]) rest := by
  refine walk_of_stride ?_
  rw [stride, if_neg (by simp [hin]), if_neg h.ne_dot, if_neg h.ne_dots,
    if_neg (Nat.not_lt.mpr h.short), hg]
  cases entry with
  | link target => exact absurd rfl (hl target)
  | _ => rfl

/-- The names of directories lead down to them. -/
theorem Stands.walk (above : Location) (h : fs.Stands (above ++ below)) :
    fs.walk follow links above (below ++ rest) = fs.walk follow links (above ++ below) rest := by
  induction below generalizing above with
  | nil => rw [List.append_nil, List.nil_append]
  | cons name below ih =>
    have hsplit : above ++ name :: below = above ++ [name] ++ below := by simp
    have hin : fs.isDirectory above = true := h.directories _ (List.prefix_append ..)
    have hnext : fs.isDirectory (above ++ [name]) = true :=
      h.directories _ (hsplit ▸ List.prefix_append ..)
    have hget : fs.get? (above ++ [name]) = some .directory := by simpa [isDirectory] using hnext
    rw [List.cons_append, walk_name (h.names name (by simp)) hin hget (by simp), hsplit]
    exact ih _ (hsplit ▸ h)

theorem Stands.walk_root (h : fs.Stands here) :
    fs.walk follow links [] (here ++ rest) = fs.walk follow links here rest :=
  Stands.walk [] h

theorem Stands.isDirectory (h : fs.Stands here) : fs.isDirectory here = true :=
  h.directories _ (List.prefix_refl _)

/-- To stay is to visit a dot. -/
theorem walk_dot (hin : fs.isDirectory here = true) :
    fs.walk follow links here ["."] = fs.walk follow links here [] := by
  refine walk_of_stride ?_
  rw [stride, if_neg (by simp [hin]), if_pos rfl]

end Files

/-- A location is spelled by the names in it. -/
theorem Location.ofString_path (loc : Location) : Text.ofString loc.path =
    Path.toText ⟨.single, loc.map Text.ofString⟩ := by
  have hjoin : Text.ofString ("/".intercalate loc) = joinWith [slash] (loc.map Text.ofString) := by
    rw [Text.ofString, Text.ofChars, String.toList_intercalate, ← joinWith_eq_intercalate]
    induction loc with
    | nil => rfl
    | cons name more ih =>
      cases more with
      | nil => rfl
      | cons next more => simpa [joinWith, Text.ofString, Text.ofChars, slash] using ih
  rw [path, Path.toText, ← hjoin, Text.ofString, String.toList_append]
  rfl

namespace Machine

variable {m : Machine} {p : Path}

/-- The working directory is spelled by its names. -/
theorem herePath_eq (h : ∀ name ∈ m.here, Files.IsName name) :
    m.herePath = ⟨.single, m.here.map Text.ofString⟩ := by
  have hclean : Path.Clean ⟨.single, m.here.map Text.ofString⟩ := fun part hm => by
    obtain ⟨name, hn, rfl⟩ := List.mem_map.mp hm
    exact (h name hn).isPart
  rw [herePath, Path.ofString, Location.ofString_path, Path.ofText_toText hclean]

theorem clean_absolute (h : p.Clean) : (m.absolute p).Clean := (Path.clean_ofText _).join h

theorem absolute_of_relative (h : ∀ name ∈ m.here, Files.IsName name)
    (ha : p.isAbsolute = false) :
    m.absolute p = ⟨.single, m.here.map Text.ofString ++ p.parts⟩ := by
  rw [absolute, Path.join_of_relative _ ha, herePath_eq h]

/-- A path that leads somewhere from a working directory leads there from everywhere, once it is
seen from the root, unless it is then too long. -/
theorem resolve_absolute (h : m.files.Stands m.here) (hp : p.Clean)
    (hlong : (Utf8.encodeString (m.absolute p).toString).length ≤ Files.pathLimit)
    (hshort : (Utf8.encodeString p.toString).length ≤ Files.pathLimit) (here : Location) :
    m.files.resolve here true (m.absolute p).toString =
      m.files.resolve m.here true p.toString := by
  cases ha : p.isAbsolute with
  | true =>
    rw [m.absolute_of_isAbsolute ha]
    exact Files.resolve_of_isAbsolute ha here m.here true
  | false =>
    have hseen := absolute_of_relative h.names ha
    have hclean : (m.absolute p).Clean := clean_absolute hp
    have hnames : (m.here.map Text.ofString).map Text.toStringLossy = m.here := by
      simp [List.map_map, Function.comp_def, Text.toStringLossy_ofString]
    have hdown (rest : List String) : m.files.walk true Files.linkLimit [] (m.here ++ rest) =
        m.files.walk true Files.linkLimit m.here rest := h.walk_root
    rw [Files.resolve_toString hclean, Files.resolve_toString hp, if_neg (Nat.not_lt.mpr hlong),
      if_neg (Nat.not_lt.mpr hshort), m.absolute_isAbsolute, if_pos rfl, ha,
      if_neg Bool.false_ne_true, hseen]
    dsimp only
    rw [List.map_append, hnames]
    by_cases hparts : p.parts = []
    · rw [if_pos hparts, hparts, List.append_nil, List.map_nil, List.append_nil,
        Files.walk_dot h.isDirectory, ← hdown, List.append_nil]
      split
      · rename_i hnil
        rw [List.map_eq_nil_iff.mp hnil, Files.walk_dot rfl]
      · rfl
    · rw [if_neg hparts, if_neg (by simp [hparts]), hdown]

/-- What a path leads to, it leads to from everywhere. -/
theorem stat_absolute (h : m.files.Stands m.here)
    (hlong : (Utf8.encodeString (m.absolute p).toString).length ≤ Files.pathLimit)
    (hp : p.Clean) (hstat : m.files.stat m.here p.toString = .ok (loc, entry)) (here : Location) :
    m.files.stat here (m.absolute p).toString = m.files.stat m.here p.toString := by
  have hshort : (Utf8.encodeString p.toString).length ≤ Files.pathLimit := by
    refine Nat.le_of_not_lt fun hover => ?_
    rw [Files.stat_eq, Files.resolve_toString hp, if_pos hover] at hstat
    cases hstat
  rw [Files.stat_eq, Files.stat_eq, resolve_absolute h hp hlong hshort]

end Machine

namespace Search

open Treewire.Configuration

variable {m : Machine} {p : Path} {ps qs : List Path} {i : Nat} {vars : Variables}
  {binary : Text} {fallbacks : List Text}

-- ---------------------------------------------------------------------------
-- The first place
-- ---------------------------------------------------------------------------

/-- The least position at which a place qualifies. -/
def FirstAt (m : Machine) (ps : List Path) (i : Nat) (p : Path) : Prop :=
  ps[i]? = some p ∧ Qualifies m p ∧ ∀ j q, j < i → ps[j]? = some q → ¬Qualifies m q

/-- Where nothing is refused, everything before the first match is passed over. -/
theorem FirstAt.split (h : FirstAt m ps i p) (hlook : ∀ q ∈ ps, ∀ e, ¬Refuses m q e) :
    ∃ before after, ps = before ++ p :: after ∧ before.length = i ∧
      ∀ q ∈ before, PassedOver m q := by
  obtain ⟨hget, -, hleast⟩ := h
  obtain ⟨hi, rfl⟩ := List.getElem?_eq_some_iff.mp hget
  refine ⟨ps.take i, ps.drop (i + 1), by rw [← List.drop_eq_getElem_cons, List.take_append_drop],
    List.length_take_of_le hi.le, fun q hq => ?_⟩
  obtain ⟨j, hj, rfl⟩ := List.mem_take_iff_getElem.mp hq
  have hless : j < i := (Nat.lt_min.mp hj).1
  have hnot := hleast j ps[j] hless (List.getElem?_eq_getElem _)
  rcases looks m ps[j] with hqualifies | hpassed | ⟨e, hrefuses⟩
  · exact absurd hqualifies hnot
  · exact hpassed
  · exact absurd hrefuses (hlook _ (List.getElem_mem _) e)

theorem FirstAt.comesTo (h : FirstAt m ps i p) (hlook : ∀ q ∈ ps, ∀ e, ¬Refuses m q e) :
    ComesTo m ps p := by
  obtain ⟨before, after, hps, -, hbefore⟩ := h.split hlook
  exact ⟨before, after, hps, hbefore⟩

theorem ComesTo.firstAt (h : ComesTo m ps p) (hq : Qualifies m p) : ∃ i, FirstAt m ps i p := by
  obtain ⟨before, after, rfl, hbefore⟩ := h
  refine ⟨before.length, by simp, hq, fun j q hj hget => ?_⟩
  rw [List.getElem?_append_left hj] at hget
  exact (hbefore q (List.mem_of_getElem? hget)).not_qualifies

/-- What comes after the first match may be anything. -/
theorem FirstAt.first_eq (h : FirstAt m ps i p) (hlook : ∀ q ∈ ps, ∀ e, ¬Refuses m q e)
    (hsame : qs.take (i + 1) = ps.take (i + 1)) : first m qs = .ok (some p) := by
  obtain ⟨before, after, rfl, rfl, hbefore⟩ := h.split hlook
  have htake : (before ++ p :: after).take (before.length + 1) = before ++ [p] :=
    List.take_length_add_append 1
  rw [← qs.take_append_drop (before.length + 1), hsame, htake, List.append_assoc,
    List.singleton_append, first_append, first_of_passedOver hbefore]
  exact first_cons_of_qualifies h.2.1

/-- What was looked at before is passed over again. -/
theorem first_eraseDups (m : Machine) : ∀ ps : List Path, first m ps.eraseDups = first m ps
  | [] => rfl
  | p :: rest => by
    have hshorter : (rest.filter fun q => !q == p).length < rest.length + 1 :=
      Nat.lt_succ_of_le (List.length_filter_le _ _)
    rw [List.eraseDups_cons]
    rcases looks m p with h | h | ⟨e, h⟩
    · rw [first_cons_of_qualifies h, first_cons_of_qualifies h]
    · rw [first_cons_of_passedOver h, first_cons_of_passedOver h, first_eraseDups m,
        first_filter fun q _ hq => ?_]
      have hsame : q = p := by simpa using hq
      exact hsame ▸ h
    · rw [first_cons_of_refuses h, first_cons_of_refuses h]
  termination_by ps => ps.length

-- ---------------------------------------------------------------------------
-- Laws of searches
-- ---------------------------------------------------------------------------

/-- In a search that is refused nowhere: without a search path nothing is found, whatever follows
it; otherwise the first place is found that holds an executable file, seen from the root, and
nothing if none does. A search path of two parts is searched one after the other. Empty components,
places that come again and whatever follows the match make no difference. The path that is found
means the same from everywhere, and leads from everywhere to what was found, if it started at the
root or is short enough. -/
theorem locate_first (s : Session) (vars : Variables) (binary : Text) (fallbacks : List Text)
    (hlook : ∀ p ∈ places vars binary fallbacks, ∀ e, ¬Refuses s.machine p e) :
    (∃ found?, (locate vars binary fallbacks s).1 = .ok found?) ∧
    (vars.lookup "PATH" = none → ∀ others, (locate vars binary others s).1 = .ok none) ∧
    ((locate vars binary fallbacks s).1 = .ok none ↔
      ∀ p ∈ places vars binary fallbacks, ¬Qualifies s.machine p) ∧
    (∀ found, (locate vars binary fallbacks s).1 = .ok (some found) ↔
      ∃ i p, FirstAt s.machine (places vars binary fallbacks) i p ∧
        found = s.machine.absolute p) ∧
    (∀ front back path more, vars.lookup "PATH" = some (path ++ ":" ++ more) →
      front.lookup "PATH" = some path → back.lookup "PATH" = some more →
      (locate vars binary fallbacks s).1 =
        match (locate front binary [] s).1 with
        | .ok none => (locate back binary fallbacks s).1
        | found => found) ∧
    (∀ other path path' front back, vars.lookup "PATH" = some path →
      other.lookup "PATH" = some path' →
      pieces (.scalar ':') (Text.ofString path) = front ++ back →
      pieces (.scalar ':') (Text.ofString path') = front ++ [] :: back →
      (locate other binary fallbacks s).1 = (locate vars binary fallbacks s).1) ∧
    (∀ other others,
      (places other binary others).eraseDups = (places vars binary fallbacks).eraseDups →
      (locate other binary others s).1 = (locate vars binary fallbacks s).1) ∧
    ∀ i p, FirstAt s.machine (places vars binary fallbacks) i p →
      (∀ other others,
        (places other binary others).take (i + 1) = (places vars binary fallbacks).take (i + 1) →
        (locate other binary others s).1 = (locate vars binary fallbacks s).1) ∧
      (s.machine.absolute p).isAbsolute = true ∧
      (∀ here there, s.machine.files.stat here (s.machine.absolute p).toString =
        s.machine.files.stat there (s.machine.absolute p).toString) ∧
      (p.isAbsolute = true ∨ s.machine.files.Stands s.machine.here ∧
          (Utf8.encodeString (s.machine.absolute p).toString).length ≤ Files.pathLimit →
        ∃ loc entry, s.machine.files.stat s.machine.here p.toString = .ok (loc, entry) ∧
          entry.isProgram = true ∧ ∀ here,
            s.machine.files.stat here (s.machine.absolute p).toString = .ok (loc, entry)) := by
  simp only [locate_fst]
  have hnone : outcome s.machine (places vars binary fallbacks) = .ok none ↔
      ∀ p ∈ places vars binary fallbacks, ¬Qualifies s.machine p := by
    rw [outcome_eq_none, first_eq_none]
    refine forall₂_congr fun p hp => ⟨PassedOver.not_qualifies, fun hnot => ?_⟩
    exact ((looks s.machine p).resolve_left hnot).resolve_right fun ⟨e, he⟩ => hlook p hp e he
  have hsome (found : Path) : outcome s.machine (places vars binary fallbacks) = .ok (some found) ↔
      ∃ i p, FirstAt s.machine (places vars binary fallbacks) i p ∧
        found = s.machine.absolute p := by
    simp only [outcome_eq_some, first_eq_some]
    constructor
    · rintro ⟨p, ⟨hp, hq⟩, rfl⟩
      obtain ⟨i, hi⟩ := hp.firstAt hq
      exact ⟨i, p, hi, rfl⟩
    · rintro ⟨i, p, hi, rfl⟩
      exact ⟨p, ⟨hi.comesTo hlook, hi.2.1⟩, rfl⟩
  refine ⟨?_, fun h others => ?_, hnone, hsome, fun front back path more h hf hb => ?_,
    fun other path path' front back h h' hp hp' => ?_, fun other others hsame => ?_,
    fun i p hi => ⟨fun other others hsame => ?_, s.machine.absolute_isAbsolute p,
      fun here there => Files.stat_of_isAbsolute (s.machine.absolute_isAbsolute p) here there,
      fun hplace => ?_⟩⟩
  · cases ho : outcome s.machine (places vars binary fallbacks) with
    | ok found? => exact ⟨found?, rfl⟩
    | error failure =>
      obtain ⟨e, -, p, hp, hrefuses⟩ := outcome_eq_error.mp ho
      exact absurd hrefuses (hlook p hp.mem e)
  · rw [places_of_none h]
    rfl
  · rw [places_of_path h, places_of_path hf, places_of_path hb, onPath_append, List.append_nil,
      List.append_assoc, List.map_append]
    exact outcome_append _ _
  · have hsame : onPath path' = onPath path := by
      rw [onPath, onPath, hp, hp', List.filter_append, List.filter_append]
      rfl
    rw [places_of_path h, places_of_path h', hsame]
  · rw [outcome, outcome, ← first_eraseDups, hsame, first_eraseDups]
  · rw [outcome, hi.first_eq hlook hsame, outcome, hi.first_eq hlook rfl]
  · obtain ⟨-, loc, entry, hstat, hprogram⟩ := hi.2.1
    refine ⟨loc, entry, hstat, hprogram, fun here => ?_⟩
    rw [← hstat]
    rcases hplace with ha | ⟨hstands, hshort⟩
    · rw [s.machine.absolute_of_isAbsolute ha]
      exact Files.stat_of_isAbsolute ha here s.machine.here
    · have hclean : p.Clean := clean_of_mem_places (List.mem_of_getElem? hi.1)
      exact Machine.stat_absolute hstands hshort hclean hstat here

-- ---------------------------------------------------------------------------
-- A runtime in the working directory
-- ---------------------------------------------------------------------------

/-- A session where the search path leads to a runtime in the working directory, the root. -/
def beside : Session :=
  Session.start { (default : Machine) with
    files := ⟨[(["node"], .file [] 0o755)]⟩
    vars := [("PATH", "::.:/")] } default

theorem stat_beside (here : Location) : beside.machine.files.stat here "/node" =
    .ok (["node"], .file [] 0o755) := by
  have hrooted : Files.Rooted "/node" "node" :=
    ⟨by decide, by decide, rfl, rfl, by decide, by decide⟩
  exact hrooted.stat rfl nofun

theorem qualifies_beside : Qualifies beside.machine (Path.ofString "node") := by
  refine ⟨by decide, ["node"], .file [] 0o755, ?_, by decide⟩
  rw [← stat_beside beside.machine.here]
  rfl

/-- It is found, and not lost in any other working directory. -/
theorem locate_first_beside :
    (∀ p ∈ places beside.machine.vars (Text.ofString "node") [], ∀ e,
      ¬Refuses beside.machine p e) ∧
    (locate beside.machine.vars (Text.ofString "node") [] beside).1 =
      .ok (some (Path.ofString "/node")) ∧
    ∃ loc entry, entry.isProgram = true ∧
      ∀ here, beside.machine.files.stat here "/node" = .ok (loc, entry) := by
  have hplaces : places beside.machine.vars (Text.ofString "node") [] =
      [Path.ofString "node", Path.ofString "/node"] := by decide
  have hlook : ∀ p ∈ places beside.machine.vars (Text.ofString "node") [], ∀ e,
      ¬Refuses beside.machine p e := by
    simp only [hplaces, List.forall_mem_cons, List.not_mem_nil, false_imp_iff, implies_true,
      and_true]
    refine ⟨fun e he => ?_, fun e he => ?_⟩
    · cases (isExecutable_true.mpr qualifies_beside).symm.trans (isExecutable_error.mpr he)
    · cases (stat_beside beside.machine.here).symm.trans he.2.1
  have hfirst : FirstAt beside.machine (places beside.machine.vars (Text.ofString "node") []) 0
      (Path.ofString "node") := ⟨congrArg (·[0]?) hplaces, qualifies_beside, nofun⟩
  obtain ⟨-, -, -, hsome, -, -, -, hstays⟩ :=
    locate_first beside beside.machine.vars (Text.ofString "node") [] hlook
  obtain ⟨-, -, -, hfile⟩ := hstays 0 _ hfirst
  have hstands : beside.machine.files.Stands beside.machine.here :=
    ⟨nofun, fun above h => List.prefix_nil.mp h ▸ rfl⟩
  obtain ⟨loc, entry, -, hprogram, hstat⟩ := hfile (.inr ⟨hstands, by decide⟩)
  exact ⟨hlook, (hsome _).mpr ⟨0, _, hfirst, by decide⟩, loc, entry, hprogram, hstat⟩

-- ---------------------------------------------------------------------------
-- A runtime too deep
-- ---------------------------------------------------------------------------

/-- A name as long as a name may be. -/
def deepName : String := String.ofList (List.replicate Files.nameLimit 'd')

theorem isName_deepName : Files.IsName deepName := by
  have hchars : deepName.toList = List.replicate Files.nameLimit 'd' := String.toList_ofList
  have hne (other : String) (h : other.toList.length < Files.nameLimit) : deepName ≠ other := by
    rintro rfl
    rw [hchars, List.length_replicate] at h
    exact Nat.lt_irrefl _ h
  refine ⟨hne _ (by decide), hne _ (by decide), hne _ (by decide), fun h => ?_, ?_⟩
  · rw [hchars] at h
    exact absurd (List.eq_of_mem_replicate h) (by decide)
  · rw [Utf8.encodeString, hchars, Utf8.length_encode_of_ascii fun c hc => ?_,
      List.length_replicate]
    rw [List.eq_of_mem_replicate hc]
    decide

/-- A directory so deep that its path leaves no room for another such name. -/
def deepHere : Location := List.replicate 15 deepName

/-- A session there, with a runtime of that name. -/
def deep : Session :=
  Session.start { (default : Machine) with
    files := ⟨(deepHere ++ [deepName], .file [] 0o755) ::
      deepHere.inits.map fun above => (above, .directory)⟩
    here := deepHere
    vars := [("PATH", ".")] } default

/-- The runtime as the search looks for it. -/
def deepPath : Path := ⟨.relative, [Text.ofString deepName]⟩

theorem places_deep : places deep.machine.vars (Text.ofString deepName) [] = [deepPath] := by
  have hpath : Path.ofText (Text.ofString deepName) = deepPath :=
    Path.ofText_of_slash_not_mem isName_deepName.isPart.slash_not_mem
      isName_deepName.isPart.ne_nil isName_deepName.isPart.ne_dot
  have hplaces : places deep.machine.vars (Text.ofString deepName) [] =
      (onPath "." ++ []).map (placeIn (Text.ofString deepName)) := places_of_path rfl
  have hdirectories : onPath "." = [dot] := by decide
  have hdot : Path.ofText dot = ⟨.relative, []⟩ := by decide
  rw [hplaces, hdirectories, List.append_nil, List.map_singleton,
    placeIn, hpath, hdot]
  rfl

theorem clean_deepPath : deepPath.Clean :=
  fun _ hm => List.mem_singleton.mp hm ▸ isName_deepName.isPart

theorem toText_single {t : Text} (h : t ≠ []) : Path.toText ⟨.relative, [t]⟩ = t := if_neg h

theorem lookup_directories {locs : List Location} (h : loc ∈ locs) :
    (locs.map fun above => (above, Entry.directory)).lookup loc = some .directory := by
  induction locs with
  | nil => cases h
  | cons first rest ih =>
    rw [List.map_cons, List.lookup_cons]
    cases hb : loc == first with
    | true => rfl
    | false => exact ih ((List.mem_cons.mp h).resolve_left (ne_of_beq_false hb))

theorem stands_deep : deep.machine.files.Stands deep.machine.here := by
  refine ⟨fun name hm => List.eq_of_mem_replicate hm ▸ isName_deepName, fun above h => ?_⟩
  by_cases hroot : above = []
  · rw [hroot]
    rfl
  have hother : (above == deepHere ++ [deepName]) = false := by
    refine beq_eq_false_iff_ne.mpr fun he => ?_
    have hlength := h.length_le
    rw [he, List.length_append] at hlength
    exact absurd hlength (Nat.not_succ_le_self _)
  have hget : deep.machine.files.get? above = some .directory := by
    have hentries : deep.machine.files.entries = (deepHere ++ [deepName], .file [] 0o755) ::
        deepHere.inits.map fun above => (above, .directory) := rfl
    rw [Files.get?, if_neg hroot, hentries, List.lookup_cons, hother]
    exact lookup_directories ((List.mem_inits _ _).mpr h)
  rw [Files.isDirectory, hget]
  rfl

theorem deepPath_toText : deepPath.toText = Text.ofString deepName :=
  toText_single isName_deepName.isPart.ne_nil

theorem octets_deepPath : (Utf8.encodeString deepPath.toString).length ≤ Files.pathLimit := by
  have hshort := isName_deepName.short
  rw [Path.toString, deepPath_toText, Text.toStringLossy_ofString]
  exact hshort.trans (by decide)

theorem get?_deep : deep.machine.files.get? (deepHere ++ [deepName]) =
    some (.file [] 0o755) := by
  rw [Files.get?, if_neg (List.append_ne_nil_of_right_ne_nil _ (List.cons_ne_nil _ _))]
  exact List.lookup_cons_self

/-- The runtime is there. -/
theorem stat_deepPath : deep.machine.files.stat deep.machine.here deepPath.toString =
    .ok (deepHere ++ [deepName], .file [] 0o755) := by
  have hname : deepPath.parts.map Text.toStringLossy = [deepName] :=
    congrArg (fun name => [name]) (Text.toStringLossy_ofString deepName)
  have hparts : deepPath.parts ≠ [] := List.cons_ne_nil _ _
  have hrelative : deepPath.isAbsolute = false := rfl
  have hwalk : deep.machine.files.walk true Files.linkLimit deep.machine.here [deepName] =
      .ok (deepHere ++ [deepName]) :=
    (Files.walk_name isName_deepName stands_deep.isDirectory get?_deep nofun).trans Files.walk_nil
  rw [Files.stat_eq, Files.resolve_toString clean_deepPath,
    if_neg (Nat.not_lt.mpr octets_deepPath), if_neg hparts, hname, hrelative,
    if_neg Bool.false_ne_true, hwalk]
  dsimp only
  rw [get?_deep]

theorem qualifies_deepPath : Qualifies deep.machine deepPath := by
  have htell : isTellable deepPath = true := by
    have hchars : Text.ofString deepName = List.replicate Files.nameLimit (.scalar 'd') := by
      rw [Text.ofString, deepName, String.toList_ofList, Text.ofChars, List.map_replicate]
    rw [isTellable, deepPath_toText, hchars, List.all_replicate, List.contains_replicate]
    decide
  exact ⟨htell, _, _, stat_deepPath, by decide⟩

/-- But its path from the root is too long. -/
theorem octets_absolute_deepPath :
    Files.pathLimit < (Utf8.encodeString (deep.machine.absolute deepPath).toString).length := by
  have hseen : deep.machine.absolute deepPath =
      ⟨.single, deepHere.map Text.ofString ++ [Text.ofString deepName]⟩ :=
    Machine.absolute_of_relative stands_deep.names rfl
  have hname : (Text.ofString deepName).length = Files.nameLimit := by
    rw [Text.ofString, deepName, String.toList_ofList, Text.ofChars, List.length_map,
      List.length_replicate]
  have hparts : (deep.machine.absolute deepPath).parts =
      List.replicate 16 (Text.ofString deepName) := by
    rw [hseen, deepHere, List.map_replicate, ← List.replicate_succ']
  have hflat : (List.replicate 16 (Text.ofString deepName)).flatten.length =
      16 * Files.nameLimit := by
    rw [List.length_flatten, List.map_replicate, List.sum_replicate_nat, hname]
  have hoctets := Path.length_le_octets (deep.machine.absolute_isAbsolute deepPath)
  rw [hparts, hflat, List.length_replicate] at hoctets
  exact Nat.lt_of_lt_of_le (by decide) hoctets

/-- So a path that is found need not lead to the file that was found. -/
theorem locate_strays : ¬∀ (s : Session) (vars : Variables) (binary : Text)
    (fallbacks : List Text) (found : Path),
    (∀ p ∈ places vars binary fallbacks, ∀ e, ¬Refuses s.machine p e) →
    s.machine.files.Stands s.machine.here →
    (locate vars binary fallbacks s).1 = .ok (some found) →
    ∃ loc entry, entry.isProgram = true ∧
      ∀ here, s.machine.files.stat here found.toString = .ok (loc, entry) := by
  intro h
  have hlook : ∀ p ∈ places deep.machine.vars (Text.ofString deepName) [], ∀ e,
      ¬Refuses deep.machine p e := by
    rw [places_deep]
    rintro p hp e ⟨-, he, -⟩
    rw [List.mem_singleton.mp hp, stat_deepPath] at he
    cases he
  have hlocate : (locate deep.machine.vars (Text.ofString deepName) [] deep).1 =
      .ok (some (deep.machine.absolute deepPath)) := by
    rw [locate_fst, places_deep, outcome_eq_some]
    exact ⟨deepPath, first_cons_of_qualifies qualifies_deepPath, rfl⟩
  obtain ⟨loc, entry, -, hstat⟩ := h _ _ _ _ _ hlook stands_deep hlocate
  have hclean : (deep.machine.absolute deepPath).Clean := Machine.clean_absolute clean_deepPath
  cases (hstat []).symm.trans (Files.stat_long hclean octets_absolute_deepPath)

end Search

end Treewire
