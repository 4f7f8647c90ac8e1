import Treewire.Proofs.Loading
import Treewire.Proofs.Spelling

/-!
# Where configured paths lead

A path that is set is filled in with a home directory, if it asks for one, and then seen from the
base directory, unless it starts at the root. Each of the four paths is resolved by itself. Their
spellings, set again, mean the same paths, whatever the base directory and the homes are then.
-/

namespace Treewire

/-- The path that is set under a key. -/
def ToolPaths.under (paths : ToolPaths) (key : String) : Option Path :=
  ([(Configuration.nodePathKey, paths.node), (Configuration.temporaryKey, paths.temporary),
    (Configuration.scriptKey, paths.script), (Configuration.schemaKey, paths.schema)].lookup
      key).join

namespace Configuration

variable {homes : Homes} {base : Option Path} {entries : Entries} {key : String} {p q : Path}
  {t : Text}

/-- A key is absent, or set to nothing. -/
def Unset (entries : Entries) (key : String) : Prop :=
  setting? entries key = none ∨ setting? entries key = some (.atom .null)

/-- A key is set to the spelling of a path, or unset if there is none. -/
def Spells (entries : Entries) (key : String) : Option Path → Prop
  | none => Unset entries key
  | some p => setting? entries key = some (.atom (.text p.toText))

theorem forall_pathKeys {P : String → Prop} : (∀ key ∈ pathKeys, P key) ↔
    P nodePathKey ∧ P temporaryKey ∧ P scriptKey ∧ P schemaKey := by
  simp only [pathKeys, List.forall_mem_cons, List.not_mem_nil, false_imp_iff, implies_true,
    and_true]

theorem pathText_none : pathText entries key = .ok none ↔ Unset entries key := by
  unfold pathText Unset
  split <;> simp_all

-- ---------------------------------------------------------------------------
-- One path
-- ---------------------------------------------------------------------------

/-- A path from the root is what it is, whatever it is resolved against. -/
theorem resolvePath_toText (hp : p.Clean) (ha : p.isAbsolute = true) :
    resolvePath homes base p.toText = .ok p := by
  have hexpand : homes.expand p = .ok p := by
    unfold Homes.expand
    split
    · rename_i hroot _
      simp [Path.isAbsolute, hroot] at ha
    · rfl
  rw [resolvePath, Path.ofText_toText hp, hexpand]
  cases base with
  | none => rfl
  | some base => exact congrArg Except.ok (Path.join_of_isAbsolute base ha)

/-- A path below a home directory that can be told comes to a clean path, from the root if the base
is. -/
theorem resolvePath_ok {b : Text} (hb : (Path.ofText b).isAbsolute = true)
    (hq : homes.expand (Path.ofText t) = .ok q) :
    ∃ p, resolvePath homes (some (Path.ofText b)) t = .ok p ∧ p.Clean ∧ p.isAbsolute = true ∧
      p = if q.isAbsolute then q else (Path.ofText b).join q := by
  have hclean : q.Clean := (Path.clean_ofText t).expand hq
  refine ⟨(Path.ofText b).join q, by rw [resolvePath, hq], (Path.clean_ofText b).join hclean,
    Path.join_isAbsolute _ _ hb, ?_⟩
  cases ha : q.isAbsolute with
  | true => exact Path.join_of_isAbsolute _ ha
  | false => rfl

end Configuration

-- ---------------------------------------------------------------------------
-- All settings
-- ---------------------------------------------------------------------------

namespace Settings

open Treewire.Configuration

variable {homes : Homes} {base : Option Path} {entries : Entries} {key : String} {s : Settings}

/-- The further directories to search, as a mapping gives them. -/
def furtherDirs (entries : Entries) : Except ConfigurationFault (List Yaml.Value) :=
  match setting? entries "fallback_dirs" with
  | none => .ok (defaultFallbacks.map fun t => .atom (.text t))
  | some v => itemsOf v

theorem pathOf_eq {text : Option Text} (h : pathText entries key = .ok text) :
    pathOf homes base entries key = resolvePath? homes base text := by
  rw [pathOf, h]

theorem ofEntries_ok : ofEntries homes base entries = .ok s ↔
    (∀ key ∈ pathKeys, pathOf homes base entries key = .ok (s.paths.under key)) ∧
      furtherDirs entries = .ok s.fallbackDirs ∧
      s.nodeBinary = (setting? entries "node_binary").getD (.atom (.text defaultBinary)) ∧
      s.timeout = (setting? entries "timeout").getD (.atom defaultTimeout.toAtom) := by
  have hpaths : (∀ key ∈ pathKeys, pathOf homes base entries key = .ok (s.paths.under key)) ↔
      pathOf homes base entries nodePathKey = .ok s.paths.node ∧
        pathOf homes base entries temporaryKey = .ok s.paths.temporary ∧
        pathOf homes base entries scriptKey = .ok s.paths.script ∧
        pathOf homes base entries schemaKey = .ok s.paths.schema := forall_pathKeys
  have hsteps : ofEntries homes base entries = (do
      let node ← pathOf homes base entries nodePathKey
      let temporary ← pathOf homes base entries temporaryKey
      let script ← pathOf homes base entries scriptKey
      let schema ← pathOf homes base entries schemaKey
      let fallbackDirs ← furtherDirs entries
      return {
        nodeBinary := (setting? entries "node_binary").getD (.atom (.text defaultBinary))
        fallbackDirs
        timeout := (setting? entries "timeout").getD (.atom defaultTimeout.toAtom)
        paths := ⟨node, temporary, script, schema⟩ }) := by
    unfold ofEntries furtherDirs
    cases setting? entries "fallback_dirs" <;> rfl
  rw [hsteps, hpaths]
  simp only [step_ok]
  constructor
  · rintro ⟨node, hn, temporary, ht, script, hs, schema, hc, dirs, hd, hr⟩
    cases hr
    exact ⟨⟨hn, ht, hs, hc⟩, hd, rfl, rfl⟩
  · rintro ⟨⟨hn, ht, hs, hc⟩, hd, hb, hl⟩
    refine ⟨_, hn, _, ht, _, hs, _, hc, _, hd, ?_⟩
    rw [← hb, ← hl]
    rfl

/-- Where the four paths and the further directories can be read, so can all. -/
theorem exists_ofEntries {dirs : List Yaml.Value}
    (hpaths : ∀ key ∈ pathKeys, ∃ path, pathOf homes base entries key = .ok path)
    (hdirs : furtherDirs entries = .ok dirs) : ∃ s, ofEntries homes base entries = .ok s := by
  obtain ⟨⟨node, hn⟩, ⟨temporary, ht⟩, ⟨script, hs⟩, ⟨schema, hc⟩⟩ := forall_pathKeys.mp hpaths
  exact ⟨⟨_, dirs, _, ⟨node, temporary, script, schema⟩⟩,
    ofEntries_ok.mpr ⟨forall_pathKeys.mpr ⟨hn, ht, hs, hc⟩, hdirs, rfl, rfl⟩⟩

/-- Paths that are texts, below home directories that can be told, are resolved each by itself. -/
theorem pathOf_ok {b : Text} (hb : (Path.ofText b).isAbsolute = true)
    (hpath : Sets entries key IsPath)
    (hhome : ∀ t, setting? entries key = some (.atom (.text t)) → ¬Homeless homes t) :
    Unset entries key ∧ pathOf homes (some (Path.ofText b)) entries key = .ok none ∨
      ∃ t q p, setting? entries key = some (.atom (.text t)) ∧
        homes.expand (Path.ofText t) = .ok q ∧
        pathOf homes (some (Path.ofText b)) entries key = .ok (some p) ∧
        p.Clean ∧ p.isAbsolute = true ∧ p = if q.isAbsolute then q else (Path.ofText b).join q := by
  obtain ⟨text, ht⟩ := pathText_ok.mpr hpath
  rw [pathOf_eq ht]
  cases text with
  | none => exact .inl ⟨pathText_none.mp ht, rfl⟩
  | some t =>
    have hset := pathText_some.mp ht
    cases hq : homes.expand (Path.ofText t) with
    | error fault => exact absurd ⟨fault, hq⟩ (hhome t hset)
    | ok q =>
      obtain ⟨p, hp, hclean, habsolute, he⟩ := resolvePath_ok hb hq
      have hresolve : resolvePath? homes (some (Path.ofText b)) (some t) = .ok (some p) := by
        rw [resolvePath?, hp]
        rfl
      exact .inr ⟨t, q, p, hset, hq, hresolve, hclean, habsolute, he⟩

/-- A path from the root that is set by its spelling is that path. -/
theorem pathOf_spelled {path : Option Path}
    (hp : ∀ p, path = some p → p.Clean ∧ p.isAbsolute = true)
    (h : Spells entries key path) : pathOf homes base entries key = .ok path := by
  cases path with
  | none => rw [pathOf_eq (pathText_none.mpr h), resolvePath?]
  | some p =>
    obtain ⟨hclean, habsolute⟩ := hp p rfl
    rw [pathOf_eq (pathText_some.mpr h), resolvePath?, resolvePath_toText hclean habsolute]
    rfl

/-- What passes the checks is resolved alike. -/
theorem resolve_of_check {file : Path} {choices : Choices} (hc : check file entries = .ok choices)
    (hs : ofEntries homes base entries = .ok s) :
    ∃ c, choices.resolve homes base = .ok c ∧ c.paths = s.paths := by
  obtain ⟨-, -, -, -, hp⟩ := check_ok.mp hc
  obtain ⟨hpaths, -⟩ := ofEntries_ok.mp hs
  simp only [pathKeys, Choices.paths, List.map_cons, List.map_nil, List.cons.injEq, and_true] at hp
  obtain ⟨hn, ht, hsc, hsch⟩ := hp
  rw [forall_pathKeys, pathOf_eq hn, pathOf_eq ht, pathOf_eq hsc, pathOf_eq hsch] at hpaths
  obtain ⟨hn, ht, hsc, hsch⟩ := hpaths
  refine ⟨⟨choices.nodeBinary, choices.fallbackDirs, choices.timeout, s.paths⟩, ?_, rfl⟩
  rw [Choices.resolve, hn, ht, hsc, hsch]
  rfl

/-- Two mappings with the same settings give the same paths and the same of everything else, each by
itself. -/
theorem ofEntries_congr {other : Entries} {s' : Settings} (h : ofEntries homes base entries = .ok s)
    (h' : ofEntries homes base other = .ok s') :
    (∀ key ∈ pathKeys, setting? other key = setting? entries key →
      s'.paths.under key = s.paths.under key) ∧
    ((∀ key, key ∉ pathKeys → setting? other key = setting? entries key) →
      s' = { s with paths := s'.paths }) := by
  obtain ⟨hpaths, hdirs, hbinary, htimeout⟩ := ofEntries_ok.mp h
  obtain ⟨hpaths', hdirs', hbinary', htimeout'⟩ := ofEntries_ok.mp h'
  constructor
  · intro key hkey hsame
    have hpath : pathOf homes base other key = pathOf homes base entries key := by
      rw [pathOf, pathText, hsame, ← pathText, ← pathOf]
    rw [hpaths key hkey, hpaths' key hkey] at hpath
    exact Except.ok.inj hpath
  · intro hsame
    rw [furtherDirs, hsame _ (by decide), ← furtherDirs, hdirs] at hdirs'
    rw [hsame _ (by decide), ← hbinary] at hbinary'
    rw [hsame _ (by decide), ← htimeout] at htimeout'
    obtain ⟨binary', dirs', timeout', paths'⟩ := s'
    cases hdirs'
    cases hbinary'
    cases htimeout'
    rfl

/-- For a base directory from the root and texts below home directories that can be told: the four
paths are there exactly where they are set, and each is its text filled in, if that starts at the
root, or else that below the base. They have no say in each other or in anything else; checked or
not, they come to the same; and their spellings come to them again, against any base. -/
theorem ofEntries_anchors {b : Text} (hb : (Path.ofText b).isAbsolute = true)
    (hpaths : ∀ key ∈ pathKeys, Sets entries key IsPath) (hhomes : ¬SetsHomeless homes entries) :
    ((∃ s, ofEntries homes (some (Path.ofText b)) entries = .ok s) ↔
      ∃ dirs, furtherDirs entries = .ok dirs) ∧
    ∀ s, ofEntries homes (some (Path.ofText b)) entries = .ok s →
      (∀ key ∈ pathKeys, (s.paths.under key = none ↔ Unset entries key) ∧
        ∀ p, s.paths.under key = some p → p.isAbsolute = true ∧
          ∃ t q, setting? entries key = some (.atom (.text t)) ∧
            homes.expand (Path.ofText t) = .ok q ∧
            p = if q.isAbsolute then q else (Path.ofText b).join q) ∧
      (∀ other s', ofEntries homes (some (Path.ofText b)) other = .ok s' →
        (∀ key ∈ pathKeys, setting? other key = setting? entries key →
          s'.paths.under key = s.paths.under key) ∧
        ((∀ key, key ∉ pathKeys → setting? other key = setting? entries key) →
          s' = { s with paths := s'.paths })) ∧
      (∀ file choices, check file entries = .ok choices →
        ∃ c, choices.resolve homes (some (Path.ofText b)) = .ok c ∧ c.paths = s.paths) ∧
      ∀ homes' base other, (∀ key ∈ pathKeys, Spells other key (s.paths.under key)) →
        (∀ key, key ∉ pathKeys → setting? other key = setting? entries key) →
        ofEntries homes' base other = .ok s := by
  have hpath (key : String) (hkey : key ∈ pathKeys) :=
    pathOf_ok hb (hpaths key hkey) fun t ht hless => hhomes ⟨key, hkey, t, ht, hless⟩
  refine ⟨⟨fun ⟨s, hs⟩ => ⟨_, (ofEntries_ok.mp hs).2.1⟩, fun ⟨dirs, hd⟩ => ?_⟩, fun s hs => ?_⟩
  · refine exists_ofEntries (fun key hkey => ?_) hd
    rcases hpath key hkey with ⟨-, h⟩ | ⟨-, -, p, -, -, h, -⟩
    · exact ⟨none, h⟩
    · exact ⟨some p, h⟩
  obtain ⟨hunder, hdirs, hbinary, htimeout⟩ := ofEntries_ok.mp hs
  have hkind (key : String) (hkey : key ∈ pathKeys) :
      Unset entries key ∧ s.paths.under key = none ∨
        ∃ t q p, setting? entries key = some (.atom (.text t)) ∧
          homes.expand (Path.ofText t) = .ok q ∧ s.paths.under key = some p ∧ p.Clean ∧
          p.isAbsolute = true ∧ p = if q.isAbsolute then q else (Path.ofText b).join q := by
    have hsame := hunder key hkey
    rcases hpath key hkey with ⟨hunset, h⟩ | ⟨t, q, p, hset, hq, h, hrest⟩
    · exact .inl ⟨hunset, Except.ok.inj (hsame.symm.trans h)⟩
    · exact .inr ⟨t, q, p, hset, hq, Except.ok.inj (hsame.symm.trans h), hrest⟩
  refine ⟨fun key hkey => ?_, fun other s' h' => ofEntries_congr hs h',
    fun file choices hc => resolve_of_check hc hs, fun homes' base other hspells hsame => ?_⟩
  · rcases hkind key hkey with ⟨hunset, hnone⟩ | ⟨t, q, p, hset, hq, hsome, -, habsolute, he⟩
    · refine ⟨iff_of_true hnone hunset, fun p hp => ?_⟩
      cases hnone.symm.trans hp
    · refine ⟨iff_of_false (by simp [hsome]) (by simp [Unset, hset]), fun p' hp' => ?_⟩
      cases hsome.symm.trans hp'
      exact ⟨habsolute, t, q, hset, hq, he⟩
  · refine ofEntries_ok.mpr ⟨fun key hkey => pathOf_spelled (fun p hp => ?_) (hspells key hkey), ?_⟩
    · rcases hkind key hkey with ⟨-, hnone⟩ | ⟨-, -, p', -, -, hsome, hclean, habsolute, -⟩
      · cases hnone.symm.trans hp
      · cases hsome.symm.trans hp
        exact ⟨hclean, habsolute⟩
    · rw [furtherDirs, hsame _ (by decide), ← furtherDirs, hsame _ (by decide),
        hsame _ (by decide)]
      exact ⟨hdirs, hbinary, htimeout⟩

-- ---------------------------------------------------------------------------
-- Three paths
-- ---------------------------------------------------------------------------

/-- A setting with a text. -/
def textEntry (key value : String) : Yaml.Atom × Yaml.Value :=
  (.text (Text.ofString key), .atom (.text (Text.ofString value)))

theorem lookup_cons_key {other : String} (h : key ≠ other) (v : Yaml.Value) (rest : Entries) :
    List.lookup (.text (Text.ofString key)) ((.text (Text.ofString other), v) :: rest) =
      rest.lookup (.text (Text.ofString key)) := by
  have hne : Yaml.Atom.text (Text.ofString key) ≠ .text (Text.ofString other) :=
    fun he => h (Text.ofString_injective (Yaml.Atom.text.inj he))
  rw [List.lookup_cons, beq_eq_false_iff_ne.mpr hne]

/-- A path below the home directory, one below the base, one with a root of its own, and none. -/
def located : Entries :=
  [textEntry nodePathKey "~/bin//node", textEntry scriptKey "./p/../s.js",
    textEntry schemaKey "//a/./b", (.text (Text.ofString temporaryKey), .atom .null),
    (.text (Text.ofString "timeout"), .atom (.int 5))]

/-- The same with the paths as they are spelled then. -/
def relocated : Entries :=
  [textEntry nodePathKey "/h/bin/node", textEntry scriptKey "/base/p/../s.js",
    textEntry schemaKey "//a/b", (.text (Text.ofString "timeout"), .atom (.int 5))]

def locatedHomes : Homes := ⟨some "/h/", "/root", []⟩

def locatedSettings : Settings where
  nodeBinary := .atom (.text defaultBinary)
  fallbackDirs := defaultFallbacks.map fun t => .atom (.text t)
  timeout := .atom (.int 5)
  paths :=
    { node := some (Path.ofString "/h/bin/node")
      script := some (Path.ofString "/base/p/../s.js")
      schema := some (Path.ofString "//a/b") }

theorem located_anchored :
    (Path.ofText (Text.ofString "/base")).isAbsolute = true ∧
    (∀ key ∈ pathKeys, Sets located key IsPath) ∧ ¬SetsHomeless locatedHomes located ∧
    ofEntries locatedHomes (some (Path.ofText (Text.ofString "/base"))) located =
      .ok locatedSettings ∧
    ofEntries ⟨none, "/", []⟩ (some (Path.ofString "elsewhere")) relocated =
      .ok locatedSettings := by
  have hb : (Path.ofText (Text.ofString "/base")).isAbsolute = true := rfl
  have hpaths : ∀ key ∈ pathKeys, Sets located key IsPath :=
    forall_pathKeys.mpr ⟨(sets_iff rfl).mpr (.inr ⟨_, rfl⟩), (sets_iff rfl).mpr (.inl rfl),
      (sets_iff rfl).mpr (.inr ⟨_, rfl⟩), (sets_iff rfl).mpr (.inr ⟨_, rfl⟩)⟩
  have hhomes : ¬SetsHomeless locatedHomes located := by
    rintro ⟨key, hkey, t, ht, fault, hf⟩
    simp only [pathKeys, List.mem_cons, List.not_mem_nil, or_false] at hkey
    rcases hkey with rfl | rfl | rfl | rfl <;> cases ht <;> cases hf
  have hs : ofEntries locatedHomes (some (Path.ofText (Text.ofString "/base"))) located =
      .ok locatedSettings := rfl
  obtain ⟨-, hall⟩ := ofEntries_anchors hb hpaths hhomes
  obtain ⟨-, -, -, hagain⟩ := hall _ hs
  refine ⟨hb, hpaths, hhomes, hs, hagain _ _ relocated ?_ ?_⟩
  · exact forall_pathKeys.mpr ⟨rfl, .inl rfl, rfl, rfl⟩
  · intro key hkey
    simp only [pathKeys, List.mem_cons, List.not_mem_nil, or_false, not_or] at hkey
    obtain ⟨hnode, htemporary, hscript, hschema⟩ := hkey
    rw [setting?, setting?, relocated, located, textEntry, textEntry,
      textEntry, textEntry, textEntry, textEntry, lookup_cons_key hnode, lookup_cons_key hscript,
      lookup_cons_key hschema, lookup_cons_key hnode, lookup_cons_key hscript,
      lookup_cons_key hschema, lookup_cons_key htemporary]

end Settings

end Treewire
