import Treewire.Proofs.Launching
import Treewire.Proofs.Rooted

/-!
# Loading a configuration

Most contents of a file that make no configuration are blamed on it, with a message of their own.
`Breaks` lists the others: contents on which the reader, a check or the search for a home directory
gives up in its own way. `load_breaks_iff` says that there are no more, and `configuration_outcome`
what comes of them when a frontend is set up.
-/

namespace Treewire

-- ---------------------------------------------------------------------------
-- Faults without a message
-- ---------------------------------------------------------------------------

/-- Whether something fails in a way that is not blamed on the configuration. -/
def GivesUp (x : Except ConfigurationFault α) : Prop :=
  ∃ fault, x = .error fault ∧ fault.message? = none

namespace GivesUp

variable {x : Except ConfigurationFault α} {fault : ConfigurationFault}

@[simp] theorem ok (a : α) : ¬GivesUp (.ok a : Except ConfigurationFault α) := nofun

@[simp] theorem pure (a : α) : ¬GivesUp (Pure.pure a : Except ConfigurationFault α) := nofun

@[simp] theorem error : GivesUp (.error fault : Except ConfigurationFault α) ↔
    fault.message? = none := by
  constructor
  · rintro ⟨_, h, hm⟩
    cases h
    exact hm
  · exact fun hm => ⟨fault, rfl, hm⟩

/-- A step gives up, or a later one does on its outcome. -/
theorem bind {next : α → Except ConfigurationFault β} :
    GivesUp (x >>= next) ↔ GivesUp x ∨ ∃ a, x = .ok a ∧ GivesUp (next a) := by
  cases x with
  | error fault =>
    have hrun : ((.error fault : Except ConfigurationFault α) >>= next) = .error fault := rfl
    simp [hrun]
  | ok a =>
    have hrun : ((.ok a : Except ConfigurationFault α) >>= next) = next a := rfl
    simp [hrun]

/-- What follows a step may not depend on its outcome. -/
theorem bind_iff {next : α → Except ConfigurationFault β} (hn : ∀ a, GivesUp (next a) ↔ q) :
    GivesUp (x >>= next) ↔ GivesUp x ∨ (∃ a, x = .ok a) ∧ q := by
  simp only [bind, hn, exists_and_right]

/-- A step that fails only by giving up makes no difference to those after it. -/
theorem bind_or {next : α → Except ConfigurationFault β} (hx : GivesUp x ∨ ∃ a, x = .ok a)
    (hn : ∀ a, GivesUp (next a) ↔ q) : GivesUp (x >>= next) ↔ GivesUp x ∨ q := by
  rw [bind_iff hn]
  constructor
  · exact Or.imp_right And.right
  · rintro (h | h)
    · exact .inl h
    · exact hx.imp_right fun hok => ⟨hok, h⟩

theorem bind_not {next : α → Except ConfigurationFault β} (hx : ¬GivesUp x)
    (hn : ∀ a, ¬GivesUp (next a)) : ¬GivesUp (x >>= next) := by
  rw [bind_iff fun a => iff_false_intro (hn a)]
  simpa using hx

end GivesUp

namespace Configuration

variable {fs : Files} {here : Location} {homes : Homes} {file : Path} {octets : Bytes}
  {entries : Entries} {key : String}

-- ---------------------------------------------------------------------------
-- What settings must be
-- ---------------------------------------------------------------------------

/-- A setting is as it must be, if it is there. -/
def Sets (entries : Entries) (key : String) (must : Yaml.Value → Prop) : Prop :=
  ∀ v, setting? entries key = some v → must v

def IsText (v : Yaml.Value) : Prop := ∃ t, v = .atom (.text t)

def IsTexts (v : Yaml.Value) : Prop :=
  ∃ ts : List Text, v = .list (ts.map fun t => .atom (.text t))

/-- A time limit is nothing or a positive number, or what is no number at all. -/
def IsLimit (v : Yaml.Value) : Prop :=
  v = .atom .null ∨ ∃ d, durationOf? v = some d ∧ d.isNotPositive = false

def IsPath (v : Yaml.Value) : Prop := v = .atom .null ∨ IsText v

/-- Entries in which everything is as it must be that is checked before the time limit. -/
structure Orderly (entries : Entries) : Prop where
  known : ∀ e ∈ entries, ∃ k ∈ knownKeys, e.1 = .text (Text.ofString k)
  binary : Sets entries "node_binary" IsText
  fallbacks : Sets entries "fallback_dirs" IsTexts

/-- Entries in which everything is as it must be. -/
structure Valid (entries : Entries) : Prop extends Orderly entries where
  timeout : Sets entries "timeout" IsLimit
  paths : ∀ key ∈ pathKeys, Sets entries key IsPath

/-- A text for a path below a home directory that cannot be told. -/
def Homeless (homes : Homes) (t : Text) : Prop :=
  ∃ fault, homes.expand (Path.ofText t) = .error fault

/-- A path is set that is below such a home directory. -/
def SetsHomeless (homes : Homes) (entries : Entries) : Prop :=
  ∃ key ∈ pathKeys, ∃ t, setting? entries key = some (.atom (.text t)) ∧ Homeless homes t

/-- The octets of a file hold a mapping. -/
def Holds (octets : Bytes) (entries : Entries) : Prop :=
  ∃ cs d, Utf8.decode? octets = some cs ∧ Yaml.Document.read (unifyBreaks cs) = .ok d ∧
    d.entries? = some entries

/-- Contents of a file on which loading gives up. -/
inductive Breaks (homes : Homes) (octets : Bytes) : Prop where
  | notUtf8 (h : Utf8.decode? octets = none)
  /-- A scalar or an escape that stands for nothing. -/
  | badNode (hc : Utf8.decode? octets = some cs)
      (hr : Yaml.Document.read (unifyBreaks cs) = .error fault) (hf : fault ≠ .malformed)
  /-- A key that is no text. -/
  | badKey {entries : Entries} (h : Holds octets entries) (he : e ∈ entries)
      (hk : ∀ t, e.1 ≠ .text t)
  /-- A time limit that is wrong and cannot be shown. -/
  | badTimeout {entries : Entries} (h : Holds octets entries) (ho : Orderly entries)
      (hs : setting? entries "timeout" = some v) (hl : ¬IsLimit v) (hw : v.isWritable = false)
  | homeless {entries : Entries} (h : Holds octets entries) (hv : Valid entries)
      (hs : SetsHomeless homes entries)

-- ---------------------------------------------------------------------------
-- Checking
-- ---------------------------------------------------------------------------

/-- The keys that are not known. -/
def strangers (entries : Entries) : List Yaml.Atom :=
  (entries.map (·.1)).filter fun k => !knownKeys.any fun name => k = .text (Text.ofString name)

def keyText? : Yaml.Atom → Option Text
  | .text t => some t
  | _ => none

theorem checkKeys_eq : checkKeys file entries =
    if strangers entries = [] then .ok ()
    else if ((strangers entries).filterMap keyText?).length < (strangers entries).length then
      .error .keyNotText
    else .error (.unknownKeys file (sorted ((strangers entries).filterMap keyText?))) := by
  unfold checkKeys
  dsimp only
  by_cases h : strangers entries = []
  · rw [if_pos h]
    unfold strangers at h
    rw [h]
  · rw [if_neg h]
    split
    · rename_i he
      exact absurd he h
    · rfl

theorem strangers_eq_nil : strangers entries = [] ↔
    ∀ e ∈ entries, ∃ k ∈ knownKeys, e.1 = .text (Text.ofString k) := by
  simp [strangers, List.filter_eq_nil_iff]

theorem checkKeys_ok : (∃ u, checkKeys file entries = .ok u) ↔
    ∀ e ∈ entries, ∃ k ∈ knownKeys, e.1 = .text (Text.ofString k) := by
  rw [checkKeys_eq, ← strangers_eq_nil]
  split
  · simp [*]
  · split <;> simp [*]

theorem keyText?_isSome (k : Yaml.Atom) : (keyText? k).isSome = true ↔ ∃ t, k = .text t := by
  cases k <;> simp [keyText?]

/-- Known keys are texts, so a key that is none is among those that are not known. -/
theorem badKey_iff : (∃ k ∈ strangers entries, keyText? k = none) ↔
    ∃ e ∈ entries, ∀ t, e.1 ≠ .text t := by
  constructor
  · rintro ⟨k, hk, hn⟩
    obtain ⟨e, he, rfl⟩ := List.mem_map.mp (List.mem_filter.mp hk).1
    refine ⟨e, he, fun t ht => ?_⟩
    rw [ht] at hn
    cases hn
  · rintro ⟨e, he, hn⟩
    refine ⟨e.1, List.mem_filter.mpr ⟨List.mem_map.mpr ⟨e, he, rfl⟩, ?_⟩, ?_⟩
    · simp [hn]
    · cases h : keyText? e.1 with
      | none => rfl
      | some t =>
        obtain ⟨t, ht⟩ := (keyText?_isSome e.1).mp (by rw [h]; rfl)
        exact absurd ht (hn t)

theorem checkKeys_givesUp :
    GivesUp (checkKeys file entries) ↔ ∃ e ∈ entries, ∀ t, e.1 ≠ .text t := by
  have hle := List.length_filterMap_le keyText? (strangers entries)
  have hall : ((strangers entries).filterMap keyText?).length = (strangers entries).length ↔
      ∀ k ∈ strangers entries, (keyText? k).isSome := List.filterMap_length_eq_length
  rw [checkKeys_eq, ← badKey_iff]
  by_cases h : strangers entries = []
  · simp [h]
  rw [if_neg h]
  by_cases hlt : ((strangers entries).filterMap keyText?).length < (strangers entries).length
  · rw [if_pos hlt]
    have hne := mt hall.mpr (Nat.ne_of_lt hlt)
    simpa [ConfigurationFault.message?] using hne
  · rw [if_neg hlt]
    have hsome := hall.mp (Nat.le_antisymm hle (Nat.not_lt.mp hlt))
    simp only [GivesUp.error, ConfigurationFault.message?, reduceCtorEq, false_iff]
    rintro ⟨k, hk, hn⟩
    have := hsome k hk
    rw [hn] at this
    cases this

-- ---------------------------------------------------------------------------
-- Settings
-- ---------------------------------------------------------------------------

theorem sets_of_none {must : Yaml.Value → Prop} (h : setting? entries key = none) :
    Sets entries key must := by
  simp [Sets, h]

theorem sets_iff {must : Yaml.Value → Prop} (h : setting? entries key = some v) :
    Sets entries key must ↔ must v := by
  simp [Sets, h]

theorem textOf?_eq_some (v : Yaml.Value) : textOf? v = some t ↔ v = .atom (.text t) := by
  cases v with
  | atom a => cases a <;> simp [textOf?]
  | _ => simp [textOf?]

theorem mapM_textOf? (items : List Yaml.Value) : items.mapM textOf? = some ts ↔
    items = ts.map fun t => .atom (.text t) := by
  induction items generalizing ts with
  | nil => cases ts <;> simp
  | cons v rest ih =>
    rw [List.mapM_cons, Option.bind_eq_bind, Option.bind_eq_some_iff]
    simp only [textOf?_eq_some, Option.bind_eq_bind, Option.bind_eq_some_iff, ih]
    cases ts <;> simp

theorem binary_ok : (∃ b, binary entries = .ok b) ↔ Sets entries "node_binary" IsText := by
  unfold binary
  cases h : setting? entries "node_binary" with
  | none => simp [sets_of_none h]
  | some v =>
    rw [sets_iff h]
    cases v with
    | atom a => cases a <;> simp [IsText]
    | _ => simp [IsText]

theorem binary_givesUp : ¬GivesUp (binary entries) := by
  unfold binary
  split <;> simp [ConfigurationFault.message?]

theorem fallbacks_ok : (∃ dirs, fallbacks entries = .ok dirs) ↔
    Sets entries "fallback_dirs" IsTexts := by
  unfold fallbacks
  cases h : setting? entries "fallback_dirs" with
  | none => simp [sets_of_none h]
  | some v =>
    rw [sets_iff h]
    cases v with
    | list items =>
      simp only [IsTexts, Yaml.Value.list.injEq, ← mapM_textOf?]
      cases items.mapM textOf? <;> simp
    | _ => simp [IsTexts]

theorem fallbacks_givesUp : ¬GivesUp (fallbacks entries) := by
  unfold fallbacks
  split
  · simp
  · split <;> simp [ConfigurationFault.message?]
  · simp [ConfigurationFault.message?]

theorem refuse_givesUp (v : Yaml.Value) : GivesUp (timeLimit.refuse v) ↔ v.isWritable = false := by
  unfold timeLimit.refuse
  split <;> simp_all [ConfigurationFault.message?]

/-- A limit is taken as it is, and anything else is refused. -/
theorem timeLimit_eq (h : setting? entries "timeout" = some v) :
    IsLimit v ∧ (∃ l, timeLimit entries = .ok l) ∨
      ¬IsLimit v ∧ timeLimit entries = timeLimit.refuse v := by
  unfold timeLimit
  rw [h]
  split
  · rename_i hs
    cases hs
  · rename_i hs
    cases hs
    exact .inl ⟨.inl rfl, _, rfl⟩
  · rename_i w hw hs
    cases hs
    have hn : v ≠ .atom .null := fun hn => hw (hn ▸ rfl)
    cases hd : durationOf? v with
    | none => exact .inr ⟨by simp [IsLimit, hn, hd], rfl⟩
    | some d =>
      cases hp : d.isNotPositive with
      | true => exact .inr ⟨by simp [IsLimit, hn, hd, hp], if_pos hp⟩
      | false => exact .inl ⟨.inr ⟨d, hd, hp⟩, some d, if_neg (by simp [hp])⟩

theorem timeLimit_ok : (∃ l, timeLimit entries = .ok l) ↔ Sets entries "timeout" IsLimit := by
  cases h : setting? entries "timeout" with
  | none => simp [sets_of_none h, timeLimit, h]
  | some v =>
    rw [sets_iff h]
    rcases timeLimit_eq h with ⟨hl, hok⟩ | ⟨hl, he⟩
    · simp [hl, hok]
    · simp [hl, he, timeLimit.refuse]

theorem timeLimit_givesUp : GivesUp (timeLimit entries) ↔
    ∃ v, setting? entries "timeout" = some v ∧ ¬IsLimit v ∧ v.isWritable = false := by
  cases h : setting? entries "timeout" with
  | none => simp [timeLimit, h]
  | some v =>
    rcases timeLimit_eq h with ⟨hl, l, hok⟩ | ⟨hl, he⟩
    · simp [hl, hok]
    · simp [hl, he, refuse_givesUp]

theorem pathText_some : pathText entries key = .ok (some t) ↔
    setting? entries key = some (.atom (.text t)) := by
  unfold pathText
  split <;> simp_all

theorem pathText_ok : (∃ p, pathText entries key = .ok p) ↔ Sets entries key IsPath := by
  unfold pathText
  cases h : setting? entries key with
  | none => simp [sets_of_none h]
  | some v =>
    rw [sets_iff h]
    cases v with
    | atom a => cases a <;> simp [IsPath, IsText]
    | _ => simp [IsPath, IsText]

theorem pathText_givesUp : ¬GivesUp (pathText entries key) := by
  unfold pathText
  split <;> simp [ConfigurationFault.message?]

-- ---------------------------------------------------------------------------
-- All settings
-- ---------------------------------------------------------------------------

theorem orderly_iff (file : Path) :
    (∃ u, checkKeys file entries = .ok u) ∧ (∃ b, binary entries = .ok b) ∧
      (∃ dirs, fallbacks entries = .ok dirs) ↔ Orderly entries := by
  rw [checkKeys_ok, binary_ok, fallbacks_ok]
  exact ⟨fun ⟨hk, hb, hf⟩ => ⟨hk, hb, hf⟩, fun ⟨hk, hb, hf⟩ => ⟨hk, hb, hf⟩⟩

theorem check_givesUp : GivesUp (check file entries) ↔
    (∃ e ∈ entries, ∀ t, e.1 ≠ .text t) ∨ Orderly entries ∧
      ∃ v, setting? entries "timeout" = some v ∧ ¬IsLimit v ∧ v.isWritable = false := by
  have hpath (key : String) : ¬GivesUp (pathText entries key) := pathText_givesUp
  have hsteps : GivesUp (check file entries) ↔ GivesUp (checkKeys file entries) ∨
      (∃ u, checkKeys file entries = .ok u) ∧ (GivesUp (binary entries) ∨
        (∃ b, binary entries = .ok b) ∧ (GivesUp (fallbacks entries) ∨
          (∃ dirs, fallbacks entries = .ok dirs) ∧ (GivesUp (timeLimit entries) ∨
            (∃ l, timeLimit entries = .ok l) ∧ False))) := by
    refine GivesUp.bind_iff fun _ => GivesUp.bind_iff fun _ => GivesUp.bind_iff fun _ =>
      GivesUp.bind_iff fun _ => iff_false_intro ?_
    exact GivesUp.bind_not (hpath _) fun _ => GivesUp.bind_not (hpath _) fun _ =>
      GivesUp.bind_not (hpath _) fun _ => GivesUp.bind_not (hpath _) fun _ => GivesUp.pure _
  rw [hsteps, ← orderly_iff file, checkKeys_givesUp, timeLimit_givesUp]
  simp only [binary_givesUp, fallbacks_givesUp, and_false, or_false, false_or, and_assoc]

/-- The texts of the paths that a mapping asks for. -/
def Choices.paths (c : Choices) : List (Option Text) := [c.node, c.temporary, c.script, c.schema]

theorem step_ok {x : Except ConfigurationFault α} {next : α → Except ConfigurationFault β} :
    x >>= next = .ok b ↔ ∃ a, x = .ok a ∧ next a = .ok b := by
  cases x <;> simp [bind, Except.bind]

theorem check_ok : check file entries = .ok c ↔
    (∃ u, checkKeys file entries = .ok u) ∧ binary entries = .ok c.nodeBinary ∧
      fallbacks entries = .ok c.fallbackDirs ∧ timeLimit entries = .ok c.timeout ∧
      pathKeys.map (pathText entries) = c.paths.map .ok := by
  have hpaths : pathKeys.map (pathText entries) = c.paths.map .ok ↔
      pathText entries nodePathKey = .ok c.node ∧ pathText entries temporaryKey = .ok c.temporary ∧
        pathText entries scriptKey = .ok c.script ∧ pathText entries schemaKey = .ok c.schema := by
    simp [pathKeys, Choices.paths]
  rw [hpaths]
  simp only [check, step_ok]
  constructor
  · rintro ⟨u, hu, b, hb, dirs, hd, l, hl, node, hn, temporary, ht, script, hs, schema, hc, hr⟩
    cases hr
    exact ⟨⟨u, hu⟩, hb, hd, hl, hn, ht, hs, hc⟩
  · rintro ⟨⟨u, hu⟩, hb, hd, hl, hn, ht, hs, hc⟩
    exact ⟨u, hu, _, hb, _, hd, _, hl, _, hn, _, ht, _, hs, _, hc, rfl⟩

theorem valid_iff (file : Path) : (∃ c, check file entries = .ok c) ↔ Valid entries := by
  constructor
  · rintro ⟨c, hc⟩
    obtain ⟨hk, hb, hd, hl, hp⟩ := check_ok.mp hc
    refine ⟨(orderly_iff file).mp ⟨hk, ⟨_, hb⟩, _, hd⟩, timeLimit_ok.mp ⟨_, hl⟩, fun key hkey => ?_⟩
    have hmem : pathText entries key ∈ c.paths.map .ok := hp ▸ List.mem_map_of_mem hkey
    obtain ⟨t, -, ht⟩ := List.mem_map.mp hmem
    exact pathText_ok.mp ⟨t, ht.symm⟩
  · rintro ⟨ho, hl, hp⟩
    obtain ⟨hk, ⟨b, hb⟩, dirs, hd⟩ := (orderly_iff file).mpr ho
    obtain ⟨l, hl⟩ := timeLimit_ok.mpr hl
    simp only [pathKeys, List.forall_mem_cons, ← pathText_ok] at hp
    obtain ⟨⟨node, hn⟩, ⟨temporary, ht⟩, ⟨script, hs⟩, ⟨schema, hc⟩, -⟩ := hp
    refine ⟨⟨b, dirs, l, node, temporary, script, schema⟩, check_ok.mpr ⟨hk, hb, hd, hl, ?_⟩⟩
    simp only [pathKeys, Choices.paths, List.map_cons, List.map_nil, hn, ht, hs, hc]

-- ---------------------------------------------------------------------------
-- Homes
-- ---------------------------------------------------------------------------

theorem resolvePath?_givesUp (base : Option Path) (t : Option Text) :
    GivesUp (resolvePath? homes base t) ↔ ∃ x, t = some x ∧ Homeless homes x := by
  cases t with
  | none => simp [resolvePath?]
  | some x =>
    cases hx : homes.expand (Path.ofText x) with
    | error fault =>
      simp [resolvePath?, resolvePath, Homeless, hx, Except.map, ConfigurationFault.message?]
    | ok p => cases base <;> simp [resolvePath?, resolvePath, Homeless, hx, Except.map]

/-- A path is resolved unless its resolution gives up. -/
theorem resolvePath?_total (homes : Homes) (base : Option Path) (t : Option Text) :
    GivesUp (resolvePath? homes base t) ∨ ∃ p, resolvePath? homes base t = .ok p := by
  cases t with
  | none => exact .inr ⟨none, rfl⟩
  | some x =>
    rw [resolvePath?_givesUp]
    cases hx : homes.expand (Path.ofText x) with
    | error fault => exact .inl ⟨x, rfl, fault, hx⟩
    | ok p => cases base <;> simp [resolvePath?, resolvePath, hx, Except.map]

theorem resolve_givesUp (base : Option Path) (c : Choices) :
    GivesUp (c.resolve homes base) ↔ ∃ t, some t ∈ c.paths ∧ Homeless homes t := by
  have htotal := resolvePath?_total homes base
  have hsteps : GivesUp (c.resolve homes base) ↔ GivesUp (resolvePath? homes base c.node) ∨
      GivesUp (resolvePath? homes base c.temporary) ∨ GivesUp (resolvePath? homes base c.script) ∨
        GivesUp (resolvePath? homes base c.schema) ∨ False :=
    GivesUp.bind_or (htotal _) fun _ => GivesUp.bind_or (htotal _) fun _ =>
      GivesUp.bind_or (htotal _) fun _ => GivesUp.bind_or (htotal _) fun _ =>
        iff_false_intro (GivesUp.pure _)
  simp only [hsteps, resolvePath?_givesUp, Choices.paths, List.mem_cons, List.not_mem_nil,
    or_and_right, exists_or, eq_comm (a := some _), false_and, exists_false]

-- ---------------------------------------------------------------------------
-- Files
-- ---------------------------------------------------------------------------

theorem document_givesUp : GivesUp (document file octets) ↔ Utf8.decode? octets = none ∨
    ∃ cs fault, Utf8.decode? octets = some cs ∧
      Yaml.Document.read (unifyBreaks cs) = .error fault ∧ fault ≠ .malformed := by
  unfold document
  cases hc : Utf8.decode? octets with
  | none => simp [ConfigurationFault.message?]
  | some cs =>
    cases hr : Yaml.Document.read (unifyBreaks cs) with
    | ok d => simp [hr]
    | error fault => cases fault <;> simp [hr, ConfigurationFault.message?]

theorem document_ok : document file octets = .ok d ↔ ∃ cs, Utf8.decode? octets = some cs ∧
    Yaml.Document.read (unifyBreaks cs) = .ok d := by
  unfold document
  cases hc : Utf8.decode? octets with
  | none => simp
  | some cs =>
    cases hr : Yaml.Document.read (unifyBreaks cs) with
    | ok d => simp [hr]
    | error fault => cases fault <;> simp [hr]

/-- A mapping that counts as nothing has no entries. -/
theorem entries?_of_isEmpty {d : Yaml.Document} (hd : d.isEmpty = true)
    (he : d.entries? = some entries) : entries = [] := by
  unfold Yaml.Document.isEmpty at hd
  unfold Yaml.Document.entries? at he
  cases hr : d.root with
  | atom a => simp [hr] at he
  | container id =>
    simp only [hr] at hd he
    cases hc : d.container id <;> simp_all

theorem resolve_check (hc : check file entries = .ok c) (base : Option Path) :
    GivesUp (c.resolve homes base) ↔ SetsHomeless homes entries := by
  obtain ⟨-, -, -, -, hp⟩ := check_ok.mp hc
  have hset (t : Text) : some t ∈ c.paths ↔
      ∃ key ∈ pathKeys, setting? entries key = some (.atom (.text t)) := by
    have hmem : some t ∈ c.paths ↔
        (.ok (some t) : Except ConfigurationFault _) ∈ c.paths.map .ok := by
      simp
    simp only [hmem, ← hp, List.mem_map, pathText_some]
  simp only [resolve_givesUp, hset, SetsHomeless]
  grind

theorem ofDocument_givesUp {d : Yaml.Document} : GivesUp (ofDocument homes file d) ↔
    ∃ entries, d.entries? = some entries ∧
      (GivesUp (check file entries) ∨ Valid entries ∧ SetsHomeless homes entries) := by
  unfold ofDocument
  by_cases hd : d.isEmpty = true
  · -- Nothing is asked for, and the only such mapping has nothing to give up on.
    rw [if_pos hd]
    refine iff_of_false (GivesUp.ok _) ?_
    rintro ⟨entries, he, h⟩
    cases entries?_of_isEmpty hd he
    rcases h with h | ⟨-, key, -, t, ht, -⟩
    · obtain ⟨e, he, -⟩ | ⟨-, v, hv, -⟩ := check_givesUp.mp h
      · cases he
      · cases hv
    · cases ht
  · rw [if_neg hd]
    cases he : d.entries? with
    | none => simp [ConfigurationFault.message?]
    | some entries =>
      simp only [Option.some.injEq, exists_eq_left', GivesUp.bind, ← valid_iff file]
      refine or_congr_right ⟨?_, ?_⟩
      · rintro ⟨c, hc, hg⟩
        exact ⟨⟨c, hc⟩, (resolve_check hc _).mp hg⟩
      · rintro ⟨⟨c, hc⟩, hs⟩
        exact ⟨c, hc, (resolve_check hc _).mpr hs⟩

/-- What a file holds is read and made a configuration of. -/
theorem load_of_document {c : Configuration} (hr : fs.read here file.toString = .ok octets)
    (hd : (document file octets >>= ofDocument homes file).toOption = some c) :
    load fs here homes file = .ok c := by
  rw [load, hr]
  dsimp only
  revert hd
  cases document file octets >>= ofDocument homes file with
  | error fault => rintro ⟨⟩
  | ok c => exact fun h => congrArg Except.ok (Option.some.inj h)

/-- Loading gives up exactly on a file that can be read and has one of those contents. -/
theorem load_breaks_iff : GivesUp (load fs here homes file) ↔
    ∃ octets, fs.read here file.toString = .ok octets ∧ Breaks homes octets := by
  unfold load
  cases fs.read here file.toString with
  | error e => simp [ConfigurationFault.message?]
  | ok octets =>
    simp only [GivesUp.bind, document_givesUp, document_ok, ofDocument_givesUp, check_givesUp,
      Except.ok.injEq, exists_eq_left']
    constructor
    · rintro ((h | ⟨cs, fault, hc, hr, hf⟩) | ⟨d, ⟨cs, hc, hr⟩, entries, he, h⟩)
      · exact .notUtf8 h
      · exact .badNode hc hr hf
      · have hh : Holds octets entries := ⟨cs, d, hc, hr, he⟩
        rcases h with (⟨e, hmem, hk⟩ | ⟨ho, v, hs, hl, hw⟩) | ⟨hv, hs⟩
        · exact .badKey hh hmem hk
        · exact .badTimeout hh ho hs hl hw
        · exact .homeless hh hv hs
    · intro h
      cases h with
      | notUtf8 h => exact .inl (.inl h)
      | badNode hc hr hf => exact .inl (.inr ⟨_, _, hc, hr, hf⟩)
      | badKey h he hk =>
        obtain ⟨cs, d, hc, hr, hd⟩ := h
        exact .inr ⟨d, ⟨cs, hc, hr⟩, _, hd, .inl (.inl ⟨_, he, hk⟩)⟩
      | badTimeout h ho hs hl hw =>
        obtain ⟨cs, d, hc, hr, hd⟩ := h
        exact .inr ⟨d, ⟨cs, hc, hr⟩, _, hd, .inl (.inr ⟨ho, _, hs, hl, hw⟩)⟩
      | homeless h hv hs =>
        obtain ⟨cs, d, hc, hr, hd⟩ := h
        exact .inr ⟨d, ⟨cs, hc, hr⟩, _, hd, .inr ⟨hv, hs⟩⟩

end Configuration

-- ---------------------------------------------------------------------------
-- Setting up
-- ---------------------------------------------------------------------------

/-- Whether a failure is blamed on the configuration. -/
def Failure.blamesConfiguration : Failure → Bool
  | .configuration fault => fault.message?.isSome
  | _ => false

namespace Frontend

open Treewire.Configuration

variable {launcher : Launcher} {file : Path} {s after : Session} {failure : Failure}

/-- What is told before a configuration is read. -/
def loading (file : Path) : Log.Record :=
  ⟨configurationSource, .info, Text.ofString "Loading configuration from " ++ file.toText⟩

theorem run_loadConfiguration : loadConfiguration file s =
    (match Invocation.textFault? file.toText with
      | some fault => .error (.badText fault)
      | none => (load (s.record (loading file)).machine.files s.machine.here s.machine.homes
          file).mapError .configuration,
      s.record (loading file)) := by
  have hhere : (s.record (loading file)).machine.here = s.machine.here :=
    (Session.Logged.record s (loading file)).here
  have hhomes : (s.record (loading file)).machine.homes = s.machine.homes := by
    rw [(Session.Logged.record s (loading file)).rest]
    rfl
  rw [loadConfiguration, Act.run_bind, Act.run_tell]
  dsimp only
  rw [Act.run_bind, Invocation.run_passable]
  cases Invocation.textFault? file.toText with
  | some fault => rfl
  | none =>
    dsimp only
    rw [Act.run_bind, Act.run_get]
    dsimp only
    rw [Act.run_ofExcept, ← hhere, ← hhomes]
    rfl

/-- A configuration that cannot be loaded keeps a frontend from being set up. -/
theorem run_establish (hv : value? s.machine.vars fileVariable = some path)
    (hl : loadConfiguration (Path.ofString path) s = (.error failure, after)) :
    establish launcher none s = (.error failure, after) := by
  have hdefault : defaultConfiguration s.machine.vars s = (.error failure, after) := by
    rw [defaultConfiguration, hv]
    dsimp only
    rw [Act.run_bind, hl]
  rw [establish]
  dsimp only
  rw [Act.run_bind, Act.run_get]
  dsimp only
  rw [Act.run_bind, hdefault]

/-- Loading fails on the path or on the configuration. -/
theorem loading_failure (h : (loadConfiguration file s).1 = .error failure) :
    (∃ fault, failure = .badText fault) ∨ ∃ fault, failure = .configuration fault := by
  rw [run_loadConfiguration] at h
  cases ht : Invocation.textFault? file.toText with
  | some fault =>
    rw [ht] at h
    cases h
    exact .inl ⟨fault, rfl⟩
  | none =>
    rw [ht] at h
    cases hl : load (s.record (loading file)).machine.files s.machine.here s.machine.homes file with
    | ok c =>
      rw [hl] at h
      cases h
    | error fault =>
      rw [hl] at h
      cases h
      exact .inr ⟨fault, rfl⟩

/-- Without a configuration there is no frontend, and that is all if the configuration is blamed. -/
theorem establish?_of_failure (hv : value? s.machine.vars fileVariable = some path)
    (hl : (loadConfiguration (Path.ofString path) s).1 = .error failure) :
    (establish? launcher none s).1 =
      if failure.blamesConfiguration then .ok none else .error failure := by
  have hrun : loadConfiguration (Path.ofString path) s =
      (.error failure, (loadConfiguration (Path.ofString path) s).2) := Prod.ext hl rfl
  rw [establish?, Act.run_bind, Act.run_attempt, run_establish hv hrun]
  obtain ⟨fault, rfl⟩ | ⟨fault, rfl⟩ := loading_failure hl
  · rfl
  · cases fault <;> rfl

theorem not_blamed_iff : (∃ failure, (loadConfiguration file s).1 = .error failure ∧
      failure.blamesConfiguration = false) ↔
    (Invocation.textFault? file.toText).isSome ∨
      GivesUp (load (s.record (loading file)).machine.files s.machine.here s.machine.homes
        file) := by
  rw [run_loadConfiguration]
  cases Invocation.textFault? file.toText with
  | some fault => simp [Failure.blamesConfiguration]
  | none =>
    cases load (s.record (loading file)).machine.files s.machine.here s.machine.homes file with
    | ok c =>
      refine iff_of_false ?_ (by simp)
      rintro ⟨failure, h, -⟩
      cases h
    | error fault =>
      have hrun : (Except.error fault : Except ConfigurationFault Configuration).mapError
          Failure.configuration = .error (.configuration fault) := rfl
      simp [hrun, Failure.blamesConfiguration]

/-- Exactly which files make the loading of a configuration fail without blame on it: those whose
path cannot be told to the system, and those with a content on which loading gives up. A frontend
that is to be set up from such a file fails with the same failure, where it only comes to nothing if
the configuration is blamed. -/
theorem configuration_outcome (launcher : Launcher) (s : Session) :
    (∀ file, (∃ failure, (loadConfiguration file s).1 = .error failure ∧
        failure.blamesConfiguration = false) ↔
      (Invocation.textFault? file.toText).isSome ∨
        ∃ octets, (s.record (loading file)).machine.files.read s.machine.here file.toString =
          .ok octets ∧ Breaks s.machine.homes octets) ∧
    ∀ path failure, value? s.machine.vars fileVariable = some path →
      (loadConfiguration (Path.ofString path) s).1 = .error failure →
      (establish? launcher none s).1 =
        if failure.blamesConfiguration then .ok none else .error failure := by
  refine ⟨fun file => ?_, fun path failure hv hl => establish?_of_failure hv hl⟩
  rw [not_blamed_iff, load_breaks_iff]

-- ---------------------------------------------------------------------------
-- A file that is no text
-- ---------------------------------------------------------------------------

/-- A session whose configuration is an octet that begins no character. -/
def garbled : Session :=
  Session.start { (default : Machine) with
    files := ⟨[(["c.yaml"], .file [0xFF] Files.usualMode)]⟩
    vars := [(fileVariable, "/c.yaml")] } default

theorem read_garbled : garbled.machine.files.read garbled.machine.here
    (Path.ofString "/c.yaml").toString = .ok [0xFF] := by
  have hrooted : Files.Rooted (Path.ofString "/c.yaml").toString "c.yaml" :=
    ⟨by decide, by decide, rfl, rfl, by decide, by decide⟩
  have hget : garbled.machine.files.get? ["c.yaml"] = some (.file [0xFF] Files.usualMode) := rfl
  rw [Files.read, hrooted.stat hget nofun]
  rfl

theorem decode?_garbled : Utf8.decode? [0xFF] = none := by
  simp [Utf8.decode?, Utf8.scan, Utf8.next, Utf8.lead?]

theorem load_garbled : (loadConfiguration (Path.ofString "/c.yaml") garbled).1 =
    .error (.configuration .notUtf8) := by
  have hrecord : garbled.record (loading (Path.ofString "/c.yaml")) = garbled := rfl
  have hpath : Invocation.textFault? (Path.ofString "/c.yaml").toText = none := rfl
  rw [run_loadConfiguration, hpath, hrecord]
  dsimp only
  have hdocument : document (Path.ofString "/c.yaml") [0xFF] = .error .notUtf8 := by
    rw [document, decode?_garbled]
  rw [load, read_garbled]
  dsimp only
  rw [hdocument]
  rfl

/-- Loading ends in a failure that is not blamed on the configuration, and so does the attempt to
set a frontend up. -/
theorem garbled_outcome :
    value? garbled.machine.vars fileVariable = some "/c.yaml" ∧
      (loadConfiguration (Path.ofString "/c.yaml") garbled).1 =
        .error (.configuration .notUtf8) ∧
      (∃ octets, (garbled.record (loading (Path.ofString "/c.yaml"))).machine.files.read
        garbled.machine.here (Path.ofString "/c.yaml").toString = .ok octets ∧
          Breaks garbled.machine.homes octets) ∧
      (establish? .idle none garbled).1 = .error (.configuration .notUtf8) := by
  have hvalue : value? garbled.machine.vars fileVariable = some "/c.yaml" := rfl
  obtain ⟨hiff, hnone⟩ := configuration_outcome .idle garbled
  refine ⟨hvalue, load_garbled, ?_, hnone _ _ hvalue load_garbled⟩
  refine ((hiff (Path.ofString "/c.yaml")).mp ⟨_, load_garbled, rfl⟩).resolve_left ?_
  exact Bool.false_ne_true

/-- Not every file that makes no configuration is blamed for it. -/
theorem not_always_blamed :
    ¬∀ (file : Path) (s : Session), Invocation.textFault? file.toText = none →
      (∃ c, (loadConfiguration file s).1 = .ok c) ∨
        ∃ failure, (loadConfiguration file s).1 = .error failure ∧
          failure.blamesConfiguration = true := by
  intro h
  rcases h (Path.ofString "/c.yaml") garbled rfl with ⟨c, hc⟩ | ⟨failure, hf, hb⟩
  · rw [load_garbled] at hc
    cases hc
  · rw [load_garbled] at hf
    cases hf
    cases hb

end Frontend

end Treewire
