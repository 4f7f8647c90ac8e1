import Mathlib.Data.List.Find
import Treewire.Proofs.Amid
import Treewire.Proofs.Establishing
import Treewire.Proofs.Memory
import Treewire.Proofs.Stepping

/-!
# From another working directory

A frontend outlives the working directory in which it was set up. Its runtime is seen from the root
from the start; its script, its schema and its directory for temporary files are seen from wherever
one is when they are used, unless their paths start at the root. For a frontend whose configuration
comes from a file, `chdir_moves` says which of them move with the working directory: those that the
file sets to relative paths, if the path of the file is relative too.
-/

namespace Treewire

-- ---------------------------------------------------------------------------
-- Paths that lead to the same place from everywhere
-- ---------------------------------------------------------------------------

namespace Files

variable {fs : Files} {p : Path}

theorem resolve_of_isAbsolute (h : p.isAbsolute = true) (here other : Location) (follow : Bool) :
    fs.resolve here follow p.toString = fs.resolve other follow p.toString := by
  simp only [resolve, startOf, Path.toString_head? h, if_true]

/-- An entry below the root, by another path that leads there. -/
theorem Rooted.stat_same {path name other : String} {here : Location} {entry : Entry}
    (hr : Rooted path name) (hg : fs.get? [name] = some entry) (hl : ∀ target, entry ≠ .link target)
    (h : fs.resolve here true other = fs.resolve here true path) :
    fs.stat here other = .ok ([name], entry) := by
  rw [stat_eq, h, ← stat_eq]
  exact hr.stat hg hl

theorem stat_of_isAbsolute (h : p.isAbsolute = true) (here other : Location) :
    fs.stat here p.toString = fs.stat other p.toString := by
  simp only [stat, resolve_of_isAbsolute h here other]

end Files

/-- A machine with another working directory. -/
def Machine.moved (m : Machine) (here : Location) : Machine := { m with here }

/-- A session with another working directory. -/
def Session.moved (s : Session) (here : Location) : Session :=
  { s with machine := s.machine.moved here }

/-- A path and the same path elsewhere are one place exactly if the path starts at the root or one
is not elsewhere. -/
theorem Machine.absolute_eq_iff {m m' : Machine} {p : Path} :
    m'.absolute p = m.absolute p ↔ p.isAbsolute = true ∨ m'.herePath = m.herePath := by
  cases ha : p.isAbsolute with
  | true => simp [Machine.absolute_of_isAbsolute _ ha]
  | false =>
    have hjoin (m : Machine) : m.absolute p = ⟨m.herePath.root, m.herePath.parts ++ p.parts⟩ :=
      Path.join_of_relative _ ha
    have hparts (q r : Path) : q = r ↔ q.root = r.root ∧ q.parts = r.parts := by
      cases q
      cases r
      exact Path.mk.injEq _ _ _ _ ▸ Iff.rfl
    simp [hjoin, hparts]

-- ---------------------------------------------------------------------------
-- The directory for temporary files
-- ---------------------------------------------------------------------------

namespace Machine

variable {m : Machine}

/-- The directories that are tried before the working directory. -/
def namedCandidates (m : Machine) : List String :=
  ["TMPDIR", "TEMP", "TMP"].filterMap (Configuration.value? m.vars) ++
    ["/tmp", "/var/tmp", "/usr/tmp"]

/-- Some directory for temporary files is there before one comes to the working directory, and the
variables that ask for one name it from the root. -/
structure OffersTemporary (m : Machine) : Prop where
  absolute : ∀ d ∈ m.namedCandidates, (Path.ofString d).isAbsolute = true
  found : ∃ d ∈ m.namedCandidates, ∃ loc,
    m.files.stat m.here (m.plain (Path.ofString d)).toString = .ok (loc, .directory)

theorem plain_of_isAbsolute {p : Path} (h : p.isAbsolute = true) :
    m.plain p = ⟨p.root, plainParts [] p.parts⟩ := by
  rw [plain, absolute_of_isAbsolute m h]

theorem plain_isAbsolute (m : Machine) (p : Path) : (m.plain p).isAbsolute = true :=
  m.absolute_isAbsolute p

theorem moved_stat {p : Path} {here : Location} (h : p.isAbsolute = true) :
    (m.moved here).files.stat (m.moved here).here p.toString = m.files.stat m.here p.toString :=
  Files.stat_of_isAbsolute h here m.here

/-- Then it is found from everywhere. -/
theorem OffersTemporary.temporaryDirectory?_eq (h : m.OffersTemporary) (here : Location) :
    (m.moved here).temporaryDirectory? = m.temporaryDirectory? := by
  have hsplit (n : Machine) : n.temporaryCandidates = n.namedCandidates ++ [n.here.path] := by
    rw [temporaryCandidates, namedCandidates, List.append_assoc]
    rfl
  have hplain : m.namedCandidates.map (fun d => (m.moved here).plain
      (Path.ofString d)) = m.namedCandidates.map fun d => m.plain (Path.ofString d) :=
    List.map_congr_left fun d hd => by
      rw [plain_of_isAbsolute (h.absolute d hd), plain_of_isAbsolute (h.absolute d hd)]
  obtain ⟨d, hd, loc, hstat⟩ := h.found
  have hmem : m.plain (Path.ofString d) ∈
      m.namedCandidates.map fun d => m.plain (Path.ofString d) := List.mem_map_of_mem hd
  rw [temporaryDirectory?, temporaryDirectory?, hsplit, hsplit, List.map_append, List.map_append,
    List.find?_append, List.find?_append]
  have hnamed : (m.moved here).namedCandidates = m.namedCandidates := rfl
  rw [hnamed, hplain, Option.or_of_isSome, Option.or_of_isSome]
  · refine List.find?_congr fun p hp => ?_
    obtain ⟨d, -, rfl⟩ := List.mem_map.mp hp
    rw [moved_stat (m.plain_isAbsolute _)]
  · exact List.find?_isSome.mpr ⟨_, hmem, by rw [hstat]⟩
  · refine List.find?_isSome.mpr ⟨_, hmem, ?_⟩
    rw [moved_stat (m.plain_isAbsolute _), hstat]

end Machine

-- ---------------------------------------------------------------------------
-- What a configuration file sets
-- ---------------------------------------------------------------------------

namespace Configuration

variable {homes : Homes} {file : Path} {m : Machine} {c : Configuration}

/-- The choices of a file that asks for nothing. -/
def Choices.none : Choices :=
  ⟨defaultBinary, defaultFallbacks, some defaultTimeout, .none, .none, .none, .none⟩

/-- A file on a machine asks for some choices. -/
def Choices.AskedIn (choices : Choices) (file : Path) (m : Machine) : Prop :=
  ∃ octets d, m.files.read m.here file.toString = .ok octets ∧ document file octets = .ok d ∧
    (d.isEmpty = true ∧ choices = .none ∨
      d.isEmpty = false ∧ ∃ entries, d.entries? = some entries ∧
        check file entries = .ok choices)

theorem ofDocument_asked {d : Yaml.Document} (h : ofDocument homes file d = .ok c) :
    ∃ choices : Choices, (d.isEmpty = true ∧ choices = .none ∨
      d.isEmpty = false ∧ ∃ entries, d.entries? = some entries ∧
        check file entries = .ok choices) ∧ choices.resolve homes (some file.parent) = .ok c := by
  unfold ofDocument at h
  cases he : d.isEmpty with
  | true =>
    rw [if_pos he] at h
    exact ⟨.none, .inl ⟨rfl, rfl⟩, h⟩
  | false =>
    rw [if_neg (by simp [he])] at h
    cases hm : d.entries? with
    | none =>
      rw [hm] at h
      cases h
    | some entries =>
      rw [hm] at h
      obtain ⟨choices, hc, hr⟩ := step_ok.mp h
      exact ⟨choices, .inr ⟨rfl, entries, rfl, hc⟩, hr⟩

theorem load_asked (h : load m.files m.here m.homes file = .ok c) :
    ∃ choices : Choices, choices.AskedIn file m ∧
      choices.resolve m.homes (some file.parent) = .ok c := by
  unfold load at h
  cases hr : m.files.read m.here file.toString with
  | error e =>
    rw [hr] at h
    cases h
  | ok octets =>
    rw [hr] at h
    obtain ⟨d, hd, hof⟩ := step_ok.mp h
    obtain ⟨choices, hasked, hresolve⟩ := ofDocument_asked hof
    exact ⟨choices, ⟨octets, d, hr, hd, hasked⟩, hresolve⟩

/-- A setting that means the same place from everywhere: where nothing is set, or the file is named
from the root, or the setting itself is. -/
def Fixed (homes : Homes) (file : Path) : Option Text → Prop
  | none => True
  | some t => file.isAbsolute = true ∨
      ∃ p, homes.expand (Path.ofText t) = .ok p ∧ p.isAbsolute = true

/-- What is set is a path from the root exactly if it means the same place from everywhere. -/
theorem resolvePath?_fixed {t : Text}
    (h : resolvePath? homes (some file.parent) (some t) = .ok q) :
    ∃ p, q = some p ∧ (p.isAbsolute = true ↔ Fixed homes file (some t)) := by
  simp only [resolvePath?, resolvePath] at h
  cases he : homes.expand (Path.ofText t) with
  | error fault =>
    rw [he] at h
    cases h
  | ok p =>
    rw [he] at h
    cases h
    refine ⟨_, rfl, ?_⟩
    simp only [Fixed, he, Except.ok.injEq, exists_eq_left']
    cases hp : p.isAbsolute with
    | true => simp [Path.join_of_isAbsolute _ hp, hp]
    | false => simp [Path.join_of_relative _ hp, Path.isAbsolute, Path.parent]

theorem resolve_paths {choices : Choices} (h : choices.resolve homes base = .ok c) :
    resolvePath? homes base choices.node = .ok c.paths.node ∧
      resolvePath? homes base choices.temporary = .ok c.paths.temporary ∧
      resolvePath? homes base choices.script = .ok c.paths.script ∧
      resolvePath? homes base choices.schema = .ok c.paths.schema := by
  simp only [Choices.resolve, step_ok] at h
  obtain ⟨node, hn, temporary, ht, script, hs, schema, hc, hr⟩ := h
  cases hr
  exact ⟨hn, ht, hs, hc⟩

/-- Variables have a say in the runtime only. -/
theorem withNode_paths {vars : Variables} {c' : Configuration}
    (h : withNode homes vars c = .ok c') :
    c'.paths = { c.paths with node := c'.paths.node } := by
  unfold withNode at h
  split at h
  · cases h
    rfl
  · split at h
    · cases h
    · cases h
      rfl

end Configuration

-- ---------------------------------------------------------------------------
-- Frontends whose configuration comes from a file
-- ---------------------------------------------------------------------------

namespace Frontend

open Treewire.Configuration

/-- A configuration from a file, given by hand or by the variable that names the file; the machine
is the one on which the file was read. -/
inductive FromFile : Path → Machine → Option Configuration → Session → Prop
  | byHand (h : loadConfiguration file s = (.ok c, t)) : FromFile file t.machine (some c) start
  | byVariable (hv : value? start.machine.vars fileVariable = some named)
      (h : loadConfiguration (Path.ofString named) start = (.ok c, t)) :
      FromFile (Path.ofString named) t.machine none start

variable {launcher : Launcher} {file : Path} {m : Machine} {c : Configuration}
  {start s t : Session} {f : Frontend} {configuration : Option Configuration}

theorem loadConfiguration_asked (h : loadConfiguration file s = (.ok c, t)) :
    ∃ choices : Choices, choices.AskedIn file t.machine ∧
      choices.resolve t.machine.homes (some file.parent) = .ok c := by
  have hrun : loadConfiguration file s = (do
      Act.passable file.toText
      let m := (← get).machine
      Act.ofExcept .configuration (Configuration.load m.files m.here m.homes file) : Act _)
        (s.record (loading file)) := rfl
  rw [hrun, Act.run_bind, Invocation.run_passable] at h
  cases hf : Invocation.textFault? file.toText with
  | some fault =>
    rw [hf] at h
    cases h
  | none =>
    rw [hf] at h
    dsimp only at h
    rw [Act.run_bind, Act.run_get] at h
    dsimp only at h
    rw [Act.run_ofExcept, Prod.mk.injEq] at h
    obtain ⟨hload, rfl⟩ := h
    apply load_asked
    revert hload
    cases load (s.record (loading file)).machine.files (s.record (loading file)).machine.here
      (s.record (loading file)).machine.homes file with
    | error fault => rintro ⟨⟩
    | ok c' =>
      rintro ⟨⟩
      rfl

/-- Whoever has it at hand, the configuration has the paths that the file asks for, but for the
runtime. -/
theorem FromFile.asked (h : FromFile file m configuration start)
    (hc : configured configuration start = (.ok c, s)) :
    ∃ choices : Choices, choices.AskedIn file m ∧
      resolvePath? m.homes (some file.parent) choices.temporary = .ok c.paths.temporary ∧
      resolvePath? m.homes (some file.parent) choices.script = .ok c.paths.script ∧
      resolvePath? m.homes (some file.parent) choices.schema = .ok c.paths.schema := by
  cases h with
  | byHand h =>
    obtain ⟨choices, hasked, hresolve⟩ := loadConfiguration_asked h
    cases hc
    exact ⟨choices, hasked, (resolve_paths hresolve).2⟩
  | @byVariable _ named t loaded hv h =>
    obtain ⟨choices, hasked, hresolve⟩ := loadConfiguration_asked h
    have hwith : (withNode t.machine.homes start.machine.vars loaded) = .ok c := by
      have hrun : configured none start =
          defaultConfiguration start.machine.vars start := rfl
      rw [hrun, defaultConfiguration, hv] at hc
      dsimp only at hc
      rw [Act.run_bind, h] at hc
      dsimp only at hc
      rw [Act.run_bind, Act.run_get] at hc
      dsimp only at hc
      rw [Act.run_ofExcept, Prod.mk.injEq] at hc
      revert hc
      cases withNode t.machine.homes start.machine.vars loaded with
      | error fault => rintro ⟨⟨⟩, -⟩
      | ok c' =>
        rintro ⟨⟨⟩, -⟩
        rfl
    obtain ⟨-, ht, hs, hc⟩ := resolve_paths hresolve
    refine ⟨choices, hasked, ?_⟩
    rw [withNode_paths hwith]
    exact ⟨ht, hs, hc⟩

theorem configured_logged (configuration : Option Configuration) (start : Session) :
    start.Logged (configured configuration start).2 := by
  cases configuration with
  | some c => exact .refl start
  | none =>
    have hrun : configured none start = defaultConfiguration start.machine.vars start := rfl
    rw [hrun, defaultConfiguration]
    cases hv : value? start.machine.vars fileVariable with
    | none =>
      dsimp only
      rw [pure_bind, Act.run_bind, Act.run_get]
      dsimp only
      rw [Act.run_ofExcept]
      exact .refl start
    | some named =>
      have hload : start.Logged (loadConfiguration (Path.ofString named) start).2 := by
        rw [run_loadConfiguration]
        exact .record _ _
      dsimp only
      rw [Act.run_bind]
      cases hl : loadConfiguration (Path.ofString named) start with
      | mk outcome t =>
        rw [hl] at hload
        cases outcome with
        | error e => exact hload
        | ok c =>
          dsimp only
          rw [Act.run_bind, Act.run_get]
          dsimp only
          rw [Act.run_ofExcept]
          exact hload

/-- What a frontend that was set up is made of. -/
theorem establish_ok (h : (establish launcher configuration start).1 = .ok f) :
    ∃ s, configured configuration start = (.ok f.configuration, s) ∧
      f.node.isAbsolute = true ∧
      f.script = f.configuration.paths.script.getD start.bundledScript := by
  rw [establish_eq, Act.run_bind] at h
  have hlogged := configured_logged configuration start
  cases hc : configured configuration start with
  | mk outcome s =>
    rw [hc] at h hlogged
    cases outcome with
    | error e => cases h
    | ok c =>
      dsimp only at h hlogged
      obtain ⟨found, hfound, hn⟩ := run_findNode c s
      generalize lookUp s.machine c = looked at hn
      rcases looked with e | (_ | node)
      · rw [establishWith, Act.run_bind, hn] at h
        cases h
      · rw [establishWith, Act.run_bind, hn] at h
        cases h
      · rw [run_establishWith hn] at h
        have hf : f = foundIn c node found := by
          revert h
          cases ((foundIn c node found).runScript launcher [] found).1 with
          | error failure => rintro ⟨⟩
          | ok output =>
            rintro ⟨⟩
            rfl
        subst hf
        refine ⟨s, rfl, found.machine.absolute_isAbsolute node, ?_⟩
        have hbundle : found.bundledScript = start.bundledScript := by
          rw [hfound.rest, hlogged.rest]
          rfl
        rw [foundIn, hbundle]

theorem establish?_some (h : (establish? launcher configuration start).1 = .ok (some f)) :
    (establish launcher configuration start).1 = .ok f := by
  rw [establish?, Act.run_bind, Act.run_attempt] at h
  cases ho : (establish launcher configuration start).1 with
  | ok g =>
    rw [ho] at h
    cases h
    rfl
  | error failure =>
    rw [ho] at h
    cases failure with
    | configuration fault =>
      dsimp only [Failure.message?] at h
      cases hm : fault.message? with
      | none =>
        rw [hm] at h
        cases h
      | some message =>
        rw [hm] at h
        cases h
    | _ => cases h

/-- A frontend that was set up, or that there is none if it cannot be. -/
def IsSetUp (f : Frontend) (configuration : Option Configuration) (start : Session) : Prop :=
  ∃ launcher, (establish launcher configuration start).1 = .ok f ∨
    (establish? launcher configuration start).1 = .ok (some f)

-- ---------------------------------------------------------------------------
-- What a frontend reaches
-- ---------------------------------------------------------------------------

/-- The files of a call to parse a file and the directory of its output, seen from the root. -/
structure Reach where
  tools : Info
  directory : Option Path

def reach (f : Frontend) (s : Session) : Reach where
  tools := ⟨s.machine.absolute f.node, s.machine.absolute f.script,
    s.machine.absolute (f.schemaIn s)⟩
  directory := (f.directoryIn s).map s.machine.absolute

theorem run_info (f : Frontend) (s : Session) : f.info s = (.ok (f.reach s).tools, s) := rfl

theorem temporaryPath_in {output : Path} (h : (f.temporaryPath ending s).1 = .ok output) :
    ∃ d, f.directoryIn s = some d ∧ output = fileIn d s.machine.serial ending := by
  rw [run_temporaryPath] at h
  unfold directoryIn Session.room?
  cases hc : f.configuration.paths.temporary with
  | some d =>
    rw [hc] at h
    cases h
    exact ⟨d, rfl, rfl⟩
  | none =>
    rw [hc] at h
    dsimp only at h
    rw [Option.none_or]
    cases hs : s.temporary.or s.machine.temporaryDirectory? with
    | none =>
      rw [hs] at h
      cases h
    | some d =>
      rw [hs] at h
      cases h
      exact ⟨d, rfl, rfl⟩

/-- A call to parse a file puts its output in that directory, and decodes it with that schema. -/
theorem parse_reaches (launcher : Launcher) (source : Text)
    (h : f.temporaryPath outputEnding s = (.ok output, picked)) :
    (∃ d, f.directoryIn s = some d ∧ output = fileIn d s.machine.serial outputEnding) ∧
      f.parse launcher source s =
        conclude (f.schemaIn s) output
          (f.produce launcher (f.schemaIn s) output source picked).1
          (f.produce launcher (f.schemaIn s) output source picked).2 := by
  refine ⟨temporaryPath_in (by rw [h]), ?_⟩
  rw [run_parse source h]
  rcases f.produce launcher (f.schemaIn s) output source picked with ⟨failure | data, done⟩ <;> rfl

end Frontend

-- ---------------------------------------------------------------------------
-- Going from directory to directory
-- ---------------------------------------------------------------------------

/-- The session after going from directory to directory; where there is none, one stays. -/
def Session.afterSteps (s : Session) (steps : List Path) : Session :=
  s.afterAll (steps.map fun p => .edit (·.enter p))

theorem Session.run_enter (s : Session) (p : Path) :
    ∃ here, (Event.edit (·.enter p)).run s = s.moved here := by
  have hstay : s = s.moved s.machine.here := rfl
  unfold Event.run Machine.enter
  dsimp only
  rcases s.machine.files.stat s.machine.here p.toString with e | ⟨loc, entry⟩
  · exact ⟨_, hstay⟩
  · cases entry <;> first | exact ⟨loc, rfl⟩ | exact ⟨_, hstay⟩

/-- Nothing changes but the working directory. -/
theorem Session.afterSteps_eq (s : Session) (steps : List Path) :
    ∃ here, s.afterSteps steps = s.moved here := by
  induction steps generalizing s with
  | nil => exact ⟨s.machine.here, rfl⟩
  | cons p rest ih =>
    obtain ⟨there, hstep⟩ := s.run_enter p
    obtain ⟨here, hrest⟩ := ih (s.moved there)
    refine ⟨here, ?_⟩
    have hcons : s.afterSteps (p :: rest) =
        ((Event.edit (·.enter p)).run s).afterSteps rest := rfl
    rw [hcons, hstep, hrest]
    rfl

namespace Frontend

open Treewire.Configuration

variable {launcher : Launcher} {file : Path} {m : Machine} {c : Configuration}
  {start s t : Session} {f : Frontend} {configuration : Option Configuration}

/-- A path that a file sets, or one that starts at the root if it sets none, moves with the working
directory unless it means the same place from everywhere. -/
theorem setting_moves {q : Option Path} {choice : Option Text} {fallback : Path}
    (h : resolvePath? m.homes (some file.parent) choice = .ok q)
    (hb : fallback.isAbsolute = true) (n n' : Machine) :
    n'.absolute (q.getD fallback) = n.absolute (q.getD fallback) ↔
      Fixed m.homes file choice ∨ n'.herePath = n.herePath := by
  rw [Machine.absolute_eq_iff]
  cases choice with
  | none =>
    cases h
    simp [Fixed, hb]
  | some text =>
    obtain ⟨p, rfl, hfixed⟩ := resolvePath?_fixed h
    rw [Option.getD_some, hfixed]

/-- A call to parse a file launches nothing but commands that begin with these three paths. -/
theorem parse_agree_paths (f : Frontend) (s : Session) {one other : Launcher} (h : Launcher.AgreeAfter
      ([f.node, f.script, f.schemaIn s].map Path.toString) one other) (source : Text) :
    f.parse one source s = f.parse other source s := by
  have hproduce (output : Path) :
      f.produce one (f.schemaIn s) output source = f.produce other (f.schemaIn s) output source := by
    have hrun : f.runScript one [(f.schemaIn s).toText, source, output.toText] =
        f.runScript other [(f.schemaIn s).toText, source, output.toText] :=
      @Invocation.run_agree _ _ [f.node.toText, f.script.toText, (f.schemaIn s).toText] h
        [source, output.toText] f.configuration.timeout
    simp only [produce, hrun]
  cases hp : f.temporaryPath outputEnding s with
  | mk outcome picked =>
    cases outcome with
    | error e => rw [run_parse_error source hp, run_parse_error source hp]
    | ok output => rw [run_parse source hp, run_parse source hp, hproduce]

theorem temporaryDirectory?_isAbsolute {m : Machine} (h : m.temporaryDirectory? = some d) :
    d.isAbsolute = true := by
  obtain ⟨candidate, -, rfl⟩ := List.mem_map.mp (List.mem_of_find?_eq_some h)
  exact m.plain_isAbsolute _

/-- A directory that is not set is found where it was before. -/
theorem directoryIn_stays (hunset : f.configuration.paths.temporary = none)
    (hsettled : (∃ d, t.temporary = some d ∧ d.isAbsolute = true) ∨
      t.temporary = none ∧ t.machine.OffersTemporary) (here : Location) :
    f.directoryIn (t.moved here) = f.directoryIn t ∧
      ∀ d, f.directoryIn t = some d → d.isAbsolute = true := by
  have hin (s : Session) :
      f.directoryIn s = s.temporary.or s.machine.temporaryDirectory? := by
    rw [directoryIn, hunset, Option.none_or, Session.room?]
  have hmoved : (t.moved here).temporary = t.temporary := rfl
  rw [hin, hin, hmoved]
  rcases hsettled with ⟨d, hd, ha⟩ | ⟨hnone, hoffers⟩
  · rw [hd, Option.some_or, Option.some_or]
    refine ⟨rfl, ?_⟩
    rintro _ ⟨⟩
    exact ha
  · rw [hnone, Option.none_or, Option.none_or]
    refine ⟨hoffers.temporaryDirectory?_eq here, fun d hd => ?_⟩
    exact temporaryDirectory?_isAbsolute hd

/-- What a frontend reaches from another working directory. Its runtime stays; a script, a schema or
a directory that its file sets moves with the working directory unless the setting means the same
place from everywhere, and a directory that is not set stays once it was settled on, or if there is
one that can be found from everywhere. -/
theorem chdir_moves (hb : start.bundle.isAbsolute = true)
    (hfrom : FromFile file m configuration start) (hf : f.IsSetUp configuration start)
    (ht : t.bundle = start.bundle) (steps : List Path) :
    (∀ s : Session, f.info s = (.ok (f.reach s).tools, s)) ∧
    (∀ launcher source s output picked, f.temporaryPath outputEnding s = (.ok output, picked) →
      (∃ d, f.directoryIn s = some d ∧ output = fileIn d s.machine.serial outputEnding) ∧
        f.parse launcher source s = conclude (f.schemaIn s) output
          (f.produce launcher (f.schemaIn s) output source picked).1
          (f.produce launcher (f.schemaIn s) output source picked).2) ∧
    (∀ one other, Launcher.AgreeAfter ([f.node, f.script, f.schemaIn t].map Path.toString)
        one other →
      ∀ source, f.parse one source (t.afterSteps steps) =
        f.parse other source (t.afterSteps steps)) ∧
    (f.reach (t.afterSteps steps)).tools.node = (f.reach t).tools.node ∧
    ∃ choices : Choices, choices.AskedIn file m ∧
      ((f.reach (t.afterSteps steps)).tools.script = (f.reach t).tools.script ↔
        Fixed m.homes file choices.script ∨
          (t.afterSteps steps).machine.herePath = t.machine.herePath) ∧
      ((f.reach (t.afterSteps steps)).tools.schema = (f.reach t).tools.schema ↔
        Fixed m.homes file choices.schema ∨
          (t.afterSteps steps).machine.herePath = t.machine.herePath) ∧
      (choices.temporary.isSome →
        ((f.reach (t.afterSteps steps)).directory = (f.reach t).directory ↔
          Fixed m.homes file choices.temporary ∨
            (t.afterSteps steps).machine.herePath = t.machine.herePath)) ∧
      (choices.temporary = none →
        ((∃ d, t.temporary = some d ∧ d.isAbsolute = true) ∨
          t.temporary = none ∧ t.machine.OffersTemporary) →
        (f.reach (t.afterSteps steps)).directory = (f.reach t).directory) := by
  obtain ⟨here, hafter⟩ := t.afterSteps_eq steps
  obtain ⟨launcher, hf⟩ := hf
  obtain ⟨s, hc, hnode, hscript⟩ := establish_ok (hf.elim id establish?_some)
  obtain ⟨choices, hasked, htemporary, hs, hschema⟩ := hfrom.asked hc
  have hbundled : t.bundledSchema.isAbsolute = true := by
    rw [Session.bundledSchema, ht]
    exact Path.join_isAbsolute _ _ hb
  rw [hafter]
  refine ⟨fun _ => rfl, fun launcher source s output picked h => parse_reaches launcher source h,
    fun one other h source => parse_agree_paths f (t.moved here) h source, ?_, choices, hasked,
    ?_, ?_, ?_, ?_⟩
  · exact Machine.absolute_eq_iff.mpr (.inl hnode)
  · have hbundled : start.bundledScript.isAbsolute = true := Path.join_isAbsolute _ _ hb
    have hmoves := setting_moves hs hbundled t.machine (t.machine.moved here)
    rw [← hscript] at hmoves
    exact hmoves
  · exact setting_moves hschema hbundled t.machine (t.machine.moved here)
  · intro hset
    obtain ⟨text, hset⟩ := Option.isSome_iff_exists.mp hset
    rw [hset] at htemporary ⊢
    obtain ⟨d, hd, hfixed⟩ := resolvePath?_fixed htemporary
    simp only [reach, directoryIn, hd, Option.some_or, Option.map_some, Option.some.injEq]
    rw [← hfixed]
    exact Machine.absolute_eq_iff
  · intro hset hsettled
    rw [hset] at htemporary
    have hunset : f.configuration.paths.temporary = none := (Except.ok.inj htemporary).symm
    have hsame := directoryIn_stays hunset hsettled here
    simp only [reach, hsame.1]
    cases hd : f.directoryIn t with
    | none => rfl
    | some d => exact congrArg some (Machine.absolute_eq_iff.mpr (.inl (hsame.2 d hd)))

-- ---------------------------------------------------------------------------
-- A script that moves
-- ---------------------------------------------------------------------------

/-- What a file holds that sets the runtime and, by a relative path, the script. -/
def settings : Bytes := Utf8.encodeString "node_path: /node\nparser_script: s.sh\n"

/-- A session at the root, where such a file lies beside a runtime and a directory. -/
def yard : Session :=
  Session.start { (default : Machine) with
    files := ⟨[(["node"], .file [] 0o755), (["c.yaml"], .file settings 0o644),
      (["d"], .directory)]⟩ } ⟨.single, []⟩

/-- The configuration in the file. -/
def settled : Configuration :=
  { Configuration.default with
    paths := { node := some (Path.ofString "/node"), script := some (Path.ofString "s.sh") } }

theorem read_yard : yard.machine.files.read yard.machine.here "c.yaml" = .ok settings := by
  have hrooted : Files.Rooted "/c.yaml" "c.yaml" :=
    ⟨by decide, by decide, rfl, rfl, by decide, by decide⟩
  have hget : yard.machine.files.get? ["c.yaml"] = some (.file settings 0o644) := rfl
  have hstat : yard.machine.files.stat yard.machine.here "c.yaml" =
      .ok (["c.yaml"], .file settings 0o644) := hrooted.stat_same hget nofun rfl
  rw [Files.read, hstat]
  rfl

theorem load_settled : load yard.machine.files yard.machine.here yard.machine.homes
    (Path.ofString "c.yaml") = .ok settled :=
  load_of_document read_yard (by decide +kernel)

theorem fromFile_yard :
    FromFile (Path.ofString "c.yaml") yard.machine (some settled) yard := by
  refine .byHand (s := yard) (t := yard) ?_
  have hrecord : yard.record (loading (Path.ofString "c.yaml")) = yard := rfl
  have hpath : Invocation.textFault? (Path.ofString "c.yaml").toText = none := rfl
  rw [run_loadConfiguration, hrecord, hpath]
  dsimp only
  rw [load_settled]
  rfl

/-- The frontend that is set up there. -/
def settler : Frontend := ⟨settled, Path.ofString "/node", Path.ofString "s.sh"⟩

theorem settler_isSetUp : settler.IsSetUp (some settled) yard := by
  have hcandidates : candidates yard.machine settled = [Path.ofString "/node"] := rfl
  have hnode : Search.isExecutable yard.machine (Path.ofString "/node") = .ok true :=
    isExecutable_node rfl
  have hlook : ∀ p ∈ candidates yard.machine settled, ∃ b,
      Search.isExecutable yard.machine p = .ok b := by
    rw [hcandidates]
    simp only [List.mem_singleton, forall_eq]
    exact ⟨true, hnode⟩
  have hlimit : ∀ d, settled.timeout = some d →
      ∀ fault, Invocation.watch d ≠ .fails fault := by
    rintro _ ⟨⟩ fault hw
    cases hw
  have hruntime : runtime? yard.machine settled = some (Path.ofString "/node") := by
    rw [runtime?, hcandidates, List.find?_cons, Search.isUsable, hnode]
    rfl
  have htell : ∀ t ∈ [(Path.ofString "/node").toText, (scriptIn settled yard).toText],
      t.Tellable := by
    rw [← Invocation.fault?_eq_none]
    rfl
  have hc : configured (some settled) yard = (.ok settled, yard) := rfl
  have hfound : Checks (exiting 0) settled yard (Path.ofString "/node") := by
    refine ⟨?_, [], rfl⟩
    rintro ⟨_, ⟨⟩, ho⟩
    cases ho
  have hestablish := establish_checked (exiting 0) hc hlook hlimit hruntime htell
  exact ⟨exiting 0, .inl (hestablish.resolve_right fun h => h.1 hfound).2⟩

theorem enter_yard :
    yard.afterSteps [Path.ofString "d"] = yard.moved ["d"] := by
  have hrooted : Files.Rooted "/d" "d" := ⟨by decide, by decide, rfl, rfl, by decide, by decide⟩
  have hget : yard.machine.files.get? ["d"] = some .directory := rfl
  have hstat : yard.machine.files.stat yard.machine.here (Path.ofString "d").toString =
      .ok (["d"], .directory) := hrooted.stat_same hget nofun rfl
  have hrun : yard.afterSteps [Path.ofString "d"] =
      (Event.edit (·.enter (Path.ofString "d"))).run yard := rfl
  rw [hrun, Event.run, Machine.enter, hstat]
  rfl

/-- From the directory below, the runtime is where it was, and the script is not. -/
theorem chdir_moves_yard :
    FromFile (Path.ofString "c.yaml") yard.machine (some settled) yard ∧
      settler.IsSetUp (some settled) yard ∧
      (settler.reach (yard.afterSteps [Path.ofString "d"])).tools.node =
        (settler.reach yard).tools.node ∧
      (settler.reach (yard.afterSteps [Path.ofString "d"])).tools.script ≠
        (settler.reach yard).tools.script := by
  have hbundle : yard.bundle.isAbsolute = true := rfl
  obtain ⟨-, -, -, hnode, -⟩ :=
    chdir_moves hbundle fromFile_yard settler_isSetUp rfl [Path.ofString "d"]
  refine ⟨fromFile_yard, settler_isSetUp, hnode, ?_⟩
  rw [enter_yard]
  decide

/-- So a frontend whose configuration comes from a file may be spoiled by another working
directory. -/
theorem chdir_spoils : ¬∀ (file : Path) (m : Machine) (configuration : Option Configuration)
    (start t : Session) (f : Frontend), start.bundle.isAbsolute = true →
      FromFile file m configuration start → f.IsSetUp configuration start →
      t.bundle = start.bundle → ∀ steps : List Path,
        (f.info (t.afterSteps steps)).1 = (f.info t).1 := by
  intro h
  have hinfo := h _ _ _ _ yard _ rfl fromFile_yard settler_isSetUp rfl [Path.ofString "d"]
  rw [enter_yard, run_info, run_info] at hinfo
  have hscript := congrArg Info.script (Except.ok.inj hinfo)
  exact absurd hscript (by decide)

end Frontend

end Treewire
