import Treewire.Proofs.Composing
import Treewire.Proofs.Moving
import Treewire.Proofs.Searching

/-!
# Setting up from elsewhere

A frontend is set up with a configuration file that is named from the root. The paths that the file
sets all start at the root then, so the working directory has a say in one place only: a further
directory to search may be relative, and is seen from wherever one is. `establishFrom_elsewhere`
says that nothing else depends on the working directory, and which searches come to such a place.
-/

namespace Treewire

/-- A launcher of programs that, called by paths from the root with paths from the root, do not look
at the working directory. -/
def Launcher.Placeless (launcher : Launcher) : Prop :=
  ∀ (m : Machine) (here : Location) (command : List String),
    (∀ word ∈ command, word.toList.head? = some '/') →
    launcher.run (m.moved here) command = launcher.run m command ∧
      ∀ n, launcher.runFor n (m.moved here) command = launcher.runFor n m command

theorem Launcher.Placeless.obey {launcher : Launcher} {command : List String}
    (h : launcher.Placeless) (limit : Option Duration) (m : Machine) (here : Location)
    (hwords : ∀ word ∈ command, word.toList.head? = some '/') :
    launcher.obey limit (m.moved here) command = launcher.obey limit m command := by
  obtain ⟨hrun, hrunFor⟩ := h m here command hwords
  unfold Launcher.obey
  rw [hrun]
  split
  · rfl
  · exact hrunFor _
  · exact hrunFor 0

-- ---------------------------------------------------------------------------
-- Acts from another working directory
-- ---------------------------------------------------------------------------

theorem Session.record_moved (s : Session) (here : Location) (r : Log.Record) :
    (s.moved here).record r = (s.record r).moved here := by
  have hadmits : (s.moved here).log.admits r.level = s.log.admits r.level := rfl
  rw [record, record, hadmits]
  cases s.log.admits r.level <;> rfl

/-- From another working directory an act comes to the same, and leaves the same behind. -/
def Act.SameFrom (here : Location) (act : Act α) (s : Session) : Prop :=
  act (s.moved here) = ((act s).1, (act s).2.moved here)

namespace Act.SameFrom

variable {here : Location} {s : Session}

theorem pure (a : α) : (Pure.pure a : Act α).SameFrom here s := rfl

theorem throw (e : Failure) : (MonadExcept.throw e : Act α).SameFrom here s := rfl

theorem tell (source : String) (level : Log.Level) (message : Text) :
    (Act.tell source level message).SameFrom here s := by
  rw [SameFrom, run_tell, run_tell, Session.record_moved]

theorem bind {act : Act α} {next : α → Act β} (ha : act.SameFrom here s)
    (hn : ∀ a t, act s = (.ok a, t) → (next a).SameFrom here t) :
    (act >>= next).SameFrom here s := by
  rw [SameFrom, run_bind, run_bind, ha]
  cases hr : act s with
  | mk outcome t =>
    cases outcome with
    | error e => rfl
    | ok a => exact hn a t hr

theorem attempt {act : Act α} (h : act.SameFrom here s) : act.attempt.SameFrom here s := by
  rw [SameFrom, run_attempt, run_attempt, h]

/-- An act that asks for the session, and makes the same of it from elsewhere. -/
theorem get {next : Session → Act α} (hs : next (s.moved here) = next s)
    (hn : (next s).SameFrom here s) : (MonadState.get >>= next).SameFrom here s := by
  rw [SameFrom, run_bind, run_bind, run_get, run_get]
  dsimp only
  rw [hs]
  exact hn

theorem ask {question : Machine → Except FileError α}
    (h : question (s.machine.moved here) = question s.machine) :
    (Act.ask question).SameFrom here s := by
  have hmoved : (s.moved here).machine = s.machine.moved here := rfl
  rw [SameFrom, run_ask, run_ask, hmoved, h]

theorem withFiles (files : Files) : (modify (·.withFiles files) : Act PUnit).SameFrom here s := rfl

/-- In any session: what an act made of earlier does not matter then. -/
theorem composes : Composes fun act => ∀ s, act.SameFrom here s where
  pure a _ := pure a
  throw e _ := throw e
  tell source level message _ := tell source level message
  bind ha hn s := bind (ha s) fun a t _ => hn a t
  attempt h s := attempt (h s)

end Act.SameFrom

theorem Invocation.run_sameFrom {launcher : Launcher} {command : List Text} {here : Location}
    (h : launcher.Placeless) (limit : Option Duration) (s : Session)
    (hwords : ∀ word ∈ command.map Text.toStringLossy, word.toList.head? = some '/') :
    (run launcher command limit).SameFrom here s := by
  rw [run_eq]
  refine .bind (.tell _ _ _) fun _ told htold => .bind ?_ fun _ t ht => .get ?_ ?_
  · rw [Act.SameFrom, run_forM_passable, run_forM_passable]
  · have hmoved : (t.moved here).machine = t.machine.moved here := rfl
    rw [hmoved, h.obey limit t.machine here hwords]
  · refine .bind (.withFiles _) fun _ u hu => ?_
    exact Act.SameFrom.composes.judge command limit _ u

-- ---------------------------------------------------------------------------
-- Searches from another working directory
-- ---------------------------------------------------------------------------

namespace Search

variable {m : Machine} {here : Location} {p : Path} {ps : List Path}

theorem isExecutable_moved (h : p.isAbsolute = true) :
    isExecutable (m.moved here) p = isExecutable m p := by
  rw [isExecutable_eq, isExecutable_eq, Machine.moved_stat h]

theorem ComesTo.cons {q : Path} (hp : PassedOver m p) (h : ComesTo m ps q) :
    ComesTo m (p :: ps) q := by
  obtain ⟨before, after, rfl, hbefore⟩ := h
  exact ⟨p :: before, after, rfl, List.forall_mem_cons.mpr ⟨hp, hbefore⟩⟩

/-- A search that comes to paths from the root only comes to the same from everywhere. -/
theorem first_moved (h : ∀ p, ComesTo m ps p → p.isAbsolute = true) :
    first (m.moved here) ps = first m ps := by
  induction ps with
  | nil => rfl
  | cons p rest ih =>
    have hp : p.isAbsolute = true := h p ⟨[], rest, rfl, nofun⟩
    rw [first, first, isExecutable_moved hp]
    cases hl : isExecutable m p with
    | error e => rfl
    | ok b =>
      cases b with
      | true => rfl
      | false => exact ih fun q hq => h q (hq.cons hl)

theorem locate_sameFrom {vars : Configuration.Variables} {binary : Text} {fallbacks : List Text}
    {s : Session} (h : find (s.machine.moved here) binary ((directories? vars fallbacks).getD []) =
      find s.machine binary ((directories? vars fallbacks).getD [])) :
    (locate vars binary fallbacks).SameFrom here s := by
  unfold locate
  cases hd : directories? vars fallbacks with
  | none => exact .bind (.tell _ _ _) fun _ _ _ => .pure _
  | some directories =>
    rw [hd] at h
    refine .bind (.ask h) fun found? _ _ => ?_
    cases found? with
    | none => exact .bind (.tell _ _ _) fun _ _ _ => .pure _
    | some found => exact .bind (.tell _ _ _) fun _ _ _ => .pure _

end Search

namespace Frontend

open Treewire.Configuration (Choices resolvePath? value? fileVariable nodeVariable Fixed
  resolvePath?_fixed step_ok)
open Treewire.Search

variable {launcher : Launcher} {c : Configuration} {s t : Session} {here : Location} {file : Path}
  {homes : Homes} {node : Path}

-- ---------------------------------------------------------------------------
-- Loading
-- ---------------------------------------------------------------------------

/-- A file that is named from the root is loaded alike from everywhere. -/
theorem loadConfiguration_sameFrom (h : file.isAbsolute = true) :
    (loadConfiguration file).SameFrom here s := by
  have hread (fs : Files) (homes : Homes) : Configuration.load fs here homes file =
      Configuration.load fs s.machine.here homes file := by
    rw [Configuration.load, Configuration.load, Files.read, Files.read,
      Files.stat_of_isAbsolute h here s.machine.here]
  have hhere : (s.moved here).machine.here = here := rfl
  have hhomes : (s.moved here).machine.homes = s.machine.homes := rfl
  have hfiles : ((s.record (loading file)).moved here).machine.files =
      (s.record (loading file)).machine.files := rfl
  rw [Act.SameFrom, run_loadConfiguration, run_loadConfiguration, Session.record_moved, hfiles,
    hhere, hhomes, hread]

theorem loadConfiguration_logged {result : Except Failure Configuration}
    (h : loadConfiguration file s = (result, t)) : s.Logged t := by
  rw [run_loadConfiguration] at h
  cases h
  exact .record _ _

/-- All paths that a configuration may set. -/
def pathsOf (c : Configuration) : List (Option Path) :=
  [c.paths.node, c.paths.temporary, c.paths.script, c.paths.schema]

/-- The paths that such a file sets start at the root. -/
theorem pathsOf_isAbsolute (h : file.isAbsolute = true)
    (hload : loadConfiguration file s = (.ok c, t)) :
    ∀ p, some p ∈ pathsOf c → p.isAbsolute = true := by
  obtain ⟨choices, -, hresolve⟩ := loadConfiguration_asked hload
  obtain ⟨hn, ht, hs, hc⟩ := Configuration.resolve_paths hresolve
  have hone {choice : Option Text} {path : Option Path} (p : Path)
      (hr : resolvePath? t.machine.homes (some file.parent) choice = .ok path)
      (hp : some p = path) : p.isAbsolute = true := by
    cases choice with
    | none =>
      cases hr
      cases hp
    | some text =>
      obtain ⟨q, rfl, hfixed⟩ := resolvePath?_fixed hr
      cases hp
      exact hfixed.mpr (.inl h)
  intro p hp
  simp only [pathsOf, List.mem_cons, List.not_mem_nil, or_false] at hp
  rcases hp with hp | hp | hp | hp
  · exact hone p hn hp
  · exact hone p ht hp
  · exact hone p hs hp
  · exact hone p hc hp

-- ---------------------------------------------------------------------------
-- Looking for the runtime
-- ---------------------------------------------------------------------------

theorem lookUp_isAbsolute {m : Machine} (h : lookUp m c = .ok (some node)) :
    node.isAbsolute = true := by
  rw [lookUp_eq_first] at h
  revert h
  rcases first m (candidates m c) with e | (_ | p)
  · rintro ⟨⟩
  · rintro ⟨⟩
  · rintro ⟨⟩
    exact m.absolute_isAbsolute p

theorem candidates_moved {m : Machine} (h : ∀ p, some p ∈ pathsOf c → p.isAbsolute = true) :
    candidates (m.moved here) c = candidates m c := by
  unfold candidates
  cases hn : c.paths.node with
  | none => rfl
  | some p =>
    have hp : p.isAbsolute = true := h p (by simp [pathsOf, hn])
    dsimp only
    rw [Machine.absolute_of_isAbsolute _ hp, Machine.absolute_of_isAbsolute _ hp]

/-- A search for a runtime that comes to paths from the root only finds the same from everywhere. -/
theorem lookUp_moved {m : Machine} (h : ∀ p, some p ∈ pathsOf c → p.isAbsolute = true)
    (hcomes : ∀ p, ComesTo m (candidates m c) p → p.isAbsolute = true) :
    lookUp (m.moved here) c = lookUp m c := by
  rw [lookUp_eq_first, lookUp_eq_first, candidates_moved h, first_moved hcomes]
  rcases hfirst : first m (candidates m c) with e | (_ | p)
  · rfl
  · rfl
  · have hp := hcomes p (first_eq_some.mp hfirst).1
    simp only [Except.map, Option.map_some, Machine.absolute_of_isAbsolute _ hp]

/-- Only a further directory to search, relative like the name of the program, makes a relative
candidate. -/
theorem candidates_relative {m : Machine} {p : Path}
    (hpath : ∀ path, m.vars.lookup "PATH" = some path →
      ∀ d ∈ onPath path, (Path.ofText d).isAbsolute = true)
    (hp : p ∈ candidates m c) (hrelative : p.isAbsolute = false) :
    c.paths.node = none ∧ (Path.ofText c.nodeBinary).isAbsolute = false ∧
      ∃ d ∈ c.fallbackDirs, (Path.ofText d).isAbsolute = false ∧ p = placeIn c.nodeBinary d := by
  cases hn : c.paths.node with
  | some node =>
    simp only [candidates, hn, List.mem_singleton] at hp
    rw [hp, m.absolute_isAbsolute] at hrelative
    cases hrelative
  | none =>
    rw [candidates_of_none hn] at hp
    cases hv : m.vars.lookup "PATH" with
    | none =>
      rw [places_of_none hv] at hp
      cases hp
    | some path =>
      rw [places_of_path hv] at hp
      obtain ⟨d, hd, rfl⟩ := List.mem_map.mp hp
      have hbinary : (Path.ofText c.nodeBinary).isAbsolute = false := by
        refine Bool.eq_false_iff.mpr fun ha => ?_
        rw [placeIn, Path.join_of_isAbsolute _ ha, ha] at hrelative
        cases hrelative
      have hdirectory : (Path.ofText d).isAbsolute = false := by
        refine Bool.eq_false_iff.mpr fun ha => ?_
        rw [placeIn, Path.join_isAbsolute _ _ ha] at hrelative
        cases hrelative
      refine ⟨rfl, hbinary, d, (List.mem_append.mp hd).resolve_left fun hon => ?_, hdirectory, rfl⟩
      rw [hpath path hv d hon] at hdirectory
      cases hdirectory

theorem findNode_sameFrom (hpaths : ∀ p, some p ∈ pathsOf c → p.isAbsolute = true)
    (h : lookUp (s.machine.moved here) c = lookUp s.machine c) :
    (findNode c).SameFrom here s := by
  unfold lookUp at h
  unfold findNode
  cases hn : c.paths.node with
  | none =>
    rw [hn] at h
    exact .get rfl (locate_sameFrom h)
  | some p =>
    have hp : p.isAbsolute = true := hpaths p (by simp [pathsOf, hn])
    refine .get ?_ (.bind (.ask ?_) fun usable _ _ => .pure _)
    · have hmoved : (s.moved here).machine = s.machine.moved here := rfl
      simp only [hmoved, Machine.absolute_of_isAbsolute _ hp]
    · exact isExecutable_moved (s.machine.absolute_isAbsolute p)

-- ---------------------------------------------------------------------------
-- Setting up
-- ---------------------------------------------------------------------------

/-- A path from the root, or else the one of a file that comes with the program. -/
theorem getD_isAbsolute {path : Option Path} {fallback : Path}
    (h : ∀ p, path = some p → p.isAbsolute = true) (hf : fallback.isAbsolute = true) :
    (path.getD fallback).isAbsolute = true := by
  cases path with
  | none => exact hf
  | some p => exact h p rfl

/-- A frontend is made alike from everywhere if its runtime is named from the root. -/
theorem make_sameFrom {node : Path} (h : node.isAbsolute = true) :
    (make c node none).SameFrom here s := by
  have hmoved : (s.moved here).machine = s.machine.moved here := rfl
  refine .get ?_ (.pure _)
  simp only [hmoved, Machine.absolute_of_isAbsolute _ h]
  rfl

/-- A self-check starts from nothing but the runtime and the script. -/
theorem selfCheck_sameFrom {f : Frontend} (hlauncher : launcher.Placeless)
    (hnode : f.node.isAbsolute = true) (hscript : f.script.isAbsolute = true) :
    (f.selfCheck launcher).SameFrom here s := by
  have hwords : ∀ word ∈ f.probe.map Text.toStringLossy, word.toList.head? = some '/' := by
    simp only [probe, List.map_cons, List.map_nil, List.forall_mem_cons, List.not_mem_nil,
      false_imp_iff, implies_true, and_true]
    exact ⟨Path.toString_head? hnode, Path.toString_head? hscript⟩
  exact Act.SameFrom.composes.selfCheck (fun s => Invocation.run_sameFrom hlauncher _ s hwords) s

/-- What was found is set up alike from everywhere. -/
theorem establishWith_sameFrom (hlauncher : launcher.Placeless)
    (hpaths : ∀ p, some p ∈ pathsOf c → p.isAbsolute = true) (hb : s.bundle.isAbsolute = true)
    (h : lookUp (s.machine.moved here) c = lookUp s.machine c) :
    (establishWith launcher c).SameFrom here s := by
  refine .bind (findNode_sameFrom hpaths h) fun found? found hfound => ?_
  cases found? with
  | none => exact .throw _
  | some node =>
    obtain ⟨hlogged, hlook⟩ := findNode_some hfound
    have hbundle : found.bundle = s.bundle := by rw [hlogged.rest]
    refine .bind (make_sameFrom (lookUp_isAbsolute hlook)) fun f t hf => ?_
    have hmake : make c node none found = (.ok (foundIn c node found), found) := rfl
    obtain ⟨hf, rfl⟩ := Prod.mk.inj (hmake.symm.trans hf)
    cases hf
    have hscript : (foundIn c node found).script.isAbsolute = true :=
      getD_isAbsolute (fun p hp => hpaths p (by simp [pathsOf, hp]))
        (Path.join_isAbsolute _ _ (hbundle ▸ hb))
    exact .bind (selfCheck_sameFrom hlauncher (found.machine.absolute_isAbsolute node) hscript)
      fun _ _ _ => .bind (.tell _ _ _) fun _ _ _ => .pure _

/-- Loads a configuration, and sets a frontend up with it. -/
def establishFrom (launcher : Launcher) (file : Path) : Act Frontend := do
  establish launcher (some (← loadConfiguration file))

theorem establishFrom_eq : establishFrom launcher file =
    loadConfiguration file >>= establishWith launcher := by
  refine bind_congr fun c => ?_
  rw [establish_eq]
  exact pure_bind _ _

theorem run_establishFrom (h : loadConfiguration file s = (.ok c, t)) :
    establishFrom launcher file s = establish launcher (some c) t := by
  rw [establishFrom, Act.run_bind_ok h]

/-- The variable that names a file asks for just that, unless another names the runtime. -/
theorem establish_none {named : String} (hv : value? s.machine.vars fileVariable = some named)
    (hn : value? s.machine.vars nodeVariable = none) :
    establish launcher none s = establishFrom launcher (Path.ofString named) s := by
  have hrun : configured none s = defaultConfiguration s.machine.vars s := rfl
  rw [establish_eq, Act.run_bind, hrun, defaultConfiguration, hv, establishFrom_eq, Act.run_bind]
  dsimp only
  rw [Act.run_bind]
  cases hl : loadConfiguration (Path.ofString named) s with
  | mk outcome t =>
    cases outcome with
    | error failure => rfl
    | ok c =>
      have hwith : Configuration.withNode t.machine.homes s.machine.vars c = .ok c := by
        rw [Configuration.withNode, hn]
      dsimp only
      rw [Act.run_bind, Act.run_get]
      dsimp only
      rw [hwith]
      rfl

/-- What a frontend that was set up shows of itself does not move. -/
theorem info_stays (hload : loadConfiguration file s = (.ok c, t)) (hfile : file.isAbsolute = true)
    (hb : s.bundle.isAbsolute = true) {f : Frontend}
    (hf : (establishFrom launcher file s).1 = .ok f) {u : Session} (hu : u.bundle = s.bundle)
    (there : Location) : (f.info (u.moved there)).1 = (f.info u).1 := by
  rw [run_establishFrom hload] at hf
  obtain ⟨_, ⟨⟩, hnode, hscript⟩ := establish_ok hf
  have hpaths := pathsOf_isAbsolute hfile hload
  have hbundle : t.bundle = s.bundle := by rw [(loadConfiguration_logged hload).rest]
  have ha : f.script.isAbsolute = true := by
    rw [hscript]
    exact getD_isAbsolute (fun p hp => hpaths p (by simp [pathsOf, hp]))
      (Path.join_isAbsolute _ _ (hbundle ▸ hb))
  have hschema : (f.schemaIn u).isAbsolute = true :=
    getD_isAbsolute (fun p hp => hpaths p (by simp [pathsOf, hp]))
      (Path.join_isAbsolute _ _ (hu ▸ hb))
  have hmoved : f.schemaIn (u.moved there) = f.schemaIn u := rfl
  rw [run_info, run_info, reach, reach, hmoved, Machine.absolute_of_isAbsolute _ hnode,
    Machine.absolute_of_isAbsolute _ hnode, Machine.absolute_of_isAbsolute _ ha,
    Machine.absolute_of_isAbsolute _ ha, Machine.absolute_of_isAbsolute _ hschema,
    Machine.absolute_of_isAbsolute _ hschema]

/-- A configuration file named from the root, read with a search path from the root, comes to the
same from everywhere, and sets nothing but paths from the root. So does the frontend that is set up
with it, but for where the search for its runtime comes to a relative directory among those that
follow the search path. Wherever the search comes to the same, so does all; and two frontends that
were set up in different places differ in their runtimes at most. -/
theorem establishFrom_elsewhere (launcher : Launcher) (file : Path) (s : Session) (here : Location)
    (hlauncher : launcher.Placeless) (hfile : file.isAbsolute = true)
    (hb : s.bundle.isAbsolute = true)
    (hpath : ∀ path, s.machine.vars.lookup "PATH" = some path →
      ∀ d ∈ onPath path, (Path.ofText d).isAbsolute = true) :
    (loadConfiguration file).SameFrom here s ∧
    (∀ failure t, loadConfiguration file s = (.error failure, t) →
      (establishFrom launcher file).SameFrom here s) ∧
    (∀ named, value? s.machine.vars fileVariable = some named →
      value? s.machine.vars nodeVariable = none → file = Path.ofString named →
      establish launcher none s = establishFrom launcher file s) ∧
    ∀ c t, loadConfiguration file s = (.ok c, t) →
      (∀ p, some p ∈ pathsOf c → p.isAbsolute = true) ∧
      (∀ p ∈ candidates t.machine c, p.isAbsolute = false →
        c.paths.node = none ∧ (Path.ofText c.nodeBinary).isAbsolute = false ∧
          ∃ d ∈ c.fallbackDirs, (Path.ofText d).isAbsolute = false ∧
            p = placeIn c.nodeBinary d) ∧
      ((∀ p, ComesTo t.machine (candidates t.machine c) p → p.isAbsolute = true) →
        lookUp (t.machine.moved here) c = lookUp t.machine c) ∧
      (lookUp (t.machine.moved here) c = lookUp t.machine c →
        (establishFrom launcher file).SameFrom here s) ∧
      (∀ f, (establishFrom launcher file s).1 = .ok f →
        ∀ u : Session, u.bundle = s.bundle →
          ∀ there, (f.info (u.moved there)).1 = (f.info u).1) ∧
      ∀ f f', (establishFrom launcher file s).1 = .ok f →
        (establishFrom launcher file (s.moved here)).1 = .ok f' →
          f' = { f with node := f'.node } := by
  have hsame : (loadConfiguration file).SameFrom here s := loadConfiguration_sameFrom hfile
  refine ⟨hsame, fun failure t hload => ?_, ?_, fun c t hload => ?_⟩
  · exact .bind hsame fun c u hc => by cases hload.symm.trans hc
  · rintro named hv hn rfl
    exact establish_none hv hn
  have hlogged := loadConfiguration_logged hload
  have hpaths := pathsOf_isAbsolute hfile hload
  have hvars : t.machine.vars = s.machine.vars := by rw [hlogged.rest]
  have hbundle : t.bundle = s.bundle := by rw [hlogged.rest]
  refine ⟨hpaths, fun p => candidates_relative (hvars ▸ hpath), lookUp_moved hpaths, fun hl => ?_,
    fun f hf u hu there => info_stays hload hfile hb hf hu there, fun f f' hf hf' => ?_⟩
  · rw [establishFrom_eq]
    refine .bind hsame fun c' t' hc => ?_
    cases hload.symm.trans hc
    exact establishWith_sameFrom hlauncher hpaths (hbundle ▸ hb) hl
  · have hload' : loadConfiguration file (s.moved here) = (.ok c, t.moved here) := by
      rw [hsame, hload]
    rw [run_establishFrom hload] at hf
    rw [run_establishFrom hload'] at hf'
    obtain ⟨_, hc, -, hscript⟩ := establish_ok hf
    obtain ⟨_, hc', -, hscript'⟩ := establish_ok hf'
    obtain ⟨configuration, node, script⟩ := f
    obtain ⟨configuration', node', script'⟩ := f'
    cases hc
    cases hc'
    dsimp only at hscript hscript'
    rw [hscript, hscript']
    rfl

-- ---------------------------------------------------------------------------
-- A runtime beside the file
-- ---------------------------------------------------------------------------

/-- What a file holds that has the runtime searched in the directory where one is. -/
def wandering : Bytes := Utf8.encodeString "fallback_dirs: [.]\nparser_script: s.sh\n"

/-- A session at the root, where such a file lies beside a runtime and a directory, with a search
path. -/
def lawn (path : String) : Session :=
  Session.start { (default : Machine) with
    files := ⟨[(["node"], .file [] 0o755), (["c.yaml"], .file wandering 0o644),
      (["d"], .directory)]⟩
    vars := [("PATH", path)] } ⟨.single, []⟩

/-- The configuration in the file. -/
def wanderer : Configuration :=
  { Configuration.default with
    fallbackDirs := [dot]
    paths := { script := some (Path.ofString "/s.sh") } }

theorem load_wanderer (path : String) :
    loadConfiguration (Path.ofString "/c.yaml") (lawn path) = (.ok wanderer, lawn path) := by
  have hrooted : Files.Rooted "/c.yaml" "c.yaml" :=
    ⟨by decide, by decide, rfl, rfl, by decide, by decide⟩
  have hget : (lawn path).machine.files.get? ["c.yaml"] = some (.file wandering 0o644) := rfl
  have hstat : (lawn path).machine.files.stat (lawn path).machine.here
      (Path.ofString "/c.yaml").toString = .ok (["c.yaml"], .file wandering 0o644) :=
    hrooted.stat hget nofun
  have hread : (lawn path).machine.files.read (lawn path).machine.here
      (Path.ofString "/c.yaml").toString = .ok wandering := by
    rw [Files.read, hstat]
    rfl
  have hload : Configuration.load (lawn path).machine.files (lawn path).machine.here
      (lawn path).machine.homes (Path.ofString "/c.yaml") = .ok wanderer := by
    have hhomes : (lawn path).machine.homes = (default : Machine).homes := rfl
    rw [hhomes]
    exact Configuration.load_of_document hread (by decide +kernel)
  have hrecord : (lawn path).record (loading (Path.ofString "/c.yaml")) = lawn path := rfl
  have htell : Invocation.textFault? (Path.ofString "/c.yaml").toText = none := rfl
  rw [run_loadConfiguration, hrecord, htell]
  dsimp only
  rw [hload]
  rfl

/-- The runtime in the directory where one is. -/
def nearby : Path := ⟨.relative, [Text.ofString "node"]⟩

theorem candidates_lawn (path : String) : candidates (lawn path).machine wanderer =
    (onPath path).map (placeIn (Text.ofString "node")) ++ [nearby] := by
  have hplaces : candidates (lawn path).machine wanderer =
      (onPath path ++ [dot]).map (placeIn (Text.ofString "node")) :=
    (candidates_of_none rfl).trans (places_of_path rfl)
  have hnearby : placeIn (Text.ofString "node") dot = nearby := by decide
  rw [hplaces, List.map_append, List.map_singleton, hnearby]

theorem isExecutable_root (path : String) (here : Location) :
    isExecutable ((lawn path).machine.moved here) (Path.ofString "/node") = .ok true :=
  isExecutable_node rfl

theorem qualifies_nearby (path : String) : Qualifies (lawn path).machine nearby := by
  obtain ⟨-, loc, entry, hstat, hprogram⟩ :=
    isExecutable_true.mp (isExecutable_root path [])
  exact ⟨by decide, loc, entry, hstat, hprogram⟩

theorem walk_lawn (path : String) :
    (lawn path).machine.files.walk true Files.linkLimit ["d"] ["node"] = .ok ["d", "node"] := by
  rw [Files.walk_cons]
  exact Files.walk_nil

/-- There is no runtime in the directory below. -/
theorem passedOver_below {path : String} {here : Location} {p : Path}
    (h : (lawn path).machine.files.resolve here true p.toString = .ok ["d", "node"]) :
    PassedOver ((lawn path).machine.moved here) p := by
  refine passedOver_of_error (e := .noEntry) ?_ rfl
  have hfiles : ((lawn path).machine.moved here).files = (lawn path).machine.files := rfl
  have hhere : ((lawn path).machine.moved here).here = here := rfl
  rw [Files.stat_eq, hfiles, hhere, h]
  rfl

theorem passedOver_nearby (path : String) :
    PassedOver ((lawn path).machine.moved ["d"]) nearby := by
  have hclean : nearby.Clean := clean_placeIn (Text.ofString "node") dot
  refine passedOver_below ?_
  rw [Files.resolve_toString hclean, if_neg (by decide)]
  exact walk_lawn path

theorem passedOver_named (path : String) (here : Location) :
    PassedOver ((lawn path).machine.moved here) (Path.ofString "/d/node") := by
  have hclean : (Path.ofString "/d/node").Clean := Path.clean_ofText _
  have hwalk : (lawn path).machine.files.walk true Files.linkLimit [] ["d", "node"] =
      .ok ["d", "node"] := by
    rw [Files.walk_cons]
    exact walk_lawn path
  refine passedOver_below ?_
  rw [Files.resolve_toString hclean, if_neg (by decide)]
  exact hwalk

/-- At the root, a script that ends with status zero makes a frontend once the runtime is found. -/
theorem establishFrom_lawn {path : String} {p : Path}
    (hfirst : first (lawn path).machine (candidates (lawn path).machine wanderer) = .ok (some p))
    (hp : (lawn path).machine.absolute p = Path.ofString "/node") :
    (establishFrom (exiting 0) (Path.ofString "/c.yaml") (lawn path)).1 =
      .ok ⟨wanderer, Path.ofString "/node", Path.ofString "/s.sh"⟩ := by
  obtain ⟨found, hlogged, hn⟩ := run_findNode wanderer (lawn path)
  have hfound : findNode wanderer (lawn path) = (.ok (some (Path.ofString "/node")), found) := by
    rw [hn, lookUp_eq_first, hfirst, ← hp]
    rfl
  have htell : ∀ t ∈ [(Path.ofString "/node").toText, (scriptIn wanderer (lawn path)).toText],
      t.Tellable := by
    rw [← Invocation.fault?_eq_none]
    rfl
  have hlimit : ∀ d, wanderer.timeout = some d →
      ∀ fault, Invocation.watch d ≠ .fails fault := by
    rintro _ ⟨⟩ fault hw
    cases hw
  rw [run_establishFrom (load_wanderer path),
    establish_of_runtime (exiting 0) rfl hlogged hfound rfl]
  rcases Invocation.run_succeeds_or (exiting 0) found htell hlimit with
    ⟨-, output, hrun⟩ | ⟨hfails, -⟩
  · rw [hrun]
    rfl
  · refine absurd ⟨?_, [], rfl⟩ hfails
    rintro ⟨_, ⟨⟩, ho⟩
    cases ho

theorem placeless_exiting (status : UInt8) : (exiting status).Placeless :=
  fun _ _ _ _ => ⟨rfl, fun _ => rfl⟩

/-- With the runtime on the search path, nothing depends on the working directory. -/
theorem establishFrom_elsewhere_lawn :
    (exiting 0).Placeless ∧ (Path.ofString "/c.yaml").isAbsolute = true ∧
    (lawn "/").bundle.isAbsolute = true ∧
    (∀ path, (lawn "/").machine.vars.lookup "PATH" = some path →
      ∀ d ∈ onPath path, (Path.ofText d).isAbsolute = true) ∧
    (establishFrom (exiting 0) (Path.ofString "/c.yaml")).SameFrom ["d"] (lawn "/") ∧
    (establishFrom (exiting 0) (Path.ofString "/c.yaml") (lawn "/")).1 =
      .ok ⟨wanderer, Path.ofString "/node", Path.ofString "/s.sh"⟩ := by
  have hpath : ∀ path, (lawn "/").machine.vars.lookup "PATH" = some path →
      ∀ d ∈ onPath path, (Path.ofText d).isAbsolute = true := by
    rintro _ ⟨⟩
    decide
  have hcandidates : candidates (lawn "/").machine wanderer =
      [Path.ofString "/node", nearby] := by
    rw [candidates_lawn]
    decide
  have hqualifies : Qualifies (lawn "/").machine (Path.ofString "/node") :=
    isExecutable_true.mp (isExecutable_root "/" [])
  obtain ⟨-, -, -, hall⟩ := establishFrom_elsewhere (exiting 0) (Path.ofString "/c.yaml")
    (lawn "/") ["d"] (placeless_exiting 0) rfl rfl hpath
  obtain ⟨-, -, hmoved, hsame, -⟩ := hall _ _ (load_wanderer "/")
  refine ⟨placeless_exiting 0, rfl, rfl, hpath, hsame (hmoved fun p hp => ?_),
    establishFrom_lawn (p := Path.ofString "/node") ?_ rfl⟩
  · obtain ⟨before, after, heq, hbefore⟩ := hp
    rw [hcandidates] at heq
    cases before with
    | nil =>
      cases heq
      rfl
    | cons q rest =>
      obtain ⟨rfl, -⟩ := List.cons.inj heq
      exact absurd hqualifies (hbefore _ (List.mem_cons_self ..)).not_qualifies
  · rw [hcandidates]
    exact first_cons_of_qualifies hqualifies

/-- A runtime that only a relative directory leads to is found from one place and not from
another. -/
theorem establishFrom_strays : ¬∀ (launcher : Launcher) (file : Path) (s : Session)
    (here : Location), launcher.Placeless → file.isAbsolute = true → s.bundle.isAbsolute = true →
    (∀ path, s.machine.vars.lookup "PATH" = some path →
      ∀ d ∈ onPath path, (Path.ofText d).isAbsolute = true) →
    (establishFrom launcher file (s.moved here)).1 = (establishFrom launcher file s).1 := by
  intro h
  have hpath : ∀ path, (lawn "/d").machine.vars.lookup "PATH" = some path →
      ∀ d ∈ onPath path, (Path.ofText d).isAbsolute = true := by
    rintro _ ⟨⟩
    decide
  have hcandidates : candidates (lawn "/d").machine wanderer =
      [Path.ofString "/d/node", nearby] := by
    rw [candidates_lawn]
    decide
  have hhere : (establishFrom (exiting 0) (Path.ofString "/c.yaml") (lawn "/d")).1 =
      .ok ⟨wanderer, Path.ofString "/node", Path.ofString "/s.sh"⟩ := by
    have hnamed : PassedOver (lawn "/d").machine (Path.ofString "/d/node") :=
      passedOver_named "/d" []
    refine establishFrom_lawn (p := nearby) ?_ (by decide)
    rw [hcandidates, first_cons_of_passedOver hnamed]
    exact first_cons_of_qualifies (qualifies_nearby "/d")
  have hload : loadConfiguration (Path.ofString "/c.yaml") ((lawn "/d").moved ["d"]) =
      (.ok wanderer, (lawn "/d").moved ["d"]) := by
    rw [loadConfiguration_sameFrom rfl, load_wanderer]
  have hthere : (establishFrom (exiting 0) (Path.ofString "/c.yaml") ((lawn "/d").moved ["d"])).1 =
      .error (.unavailable .runtimeNotFound (wanted wanderer)) := by
    obtain ⟨found, -, hn⟩ := run_findNode wanderer ((lawn "/d").moved ["d"])
    have hnone : lookUp ((lawn "/d").moved ["d"]).machine wanderer = .ok none := by
      have hthere : candidates ((lawn "/d").moved ["d"]).machine wanderer =
          [Path.ofString "/d/node", nearby] := hcandidates
      rw [lookUp_eq_first, hthere, first_of_passedOver]
      · rfl
      · simp only [List.forall_mem_cons, List.not_mem_nil, false_imp_iff, implies_true, and_true]
        exact ⟨passedOver_named "/d" ["d"], passedOver_nearby "/d"⟩
    rw [hnone] at hn
    rw [run_establishFrom hload, establish_of_none rfl hn]
  have hsame := h (exiting 0) (Path.ofString "/c.yaml") (lawn "/d") ["d"] (placeless_exiting 0) rfl
    rfl hpath
  rw [hhere, hthere] at hsame
  cases hsame

end Frontend

end Treewire
