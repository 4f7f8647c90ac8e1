import Treewire.Proofs.Judging
import Treewire.Proofs.Absolute

/-!
# What was checked is what runs

A frontend is there exactly if a runtime was found and the self-check with it ended with status
zero. `runtime?` says which runtime that is without a search step by step. From then on the frontend
launches nothing but commands that begin with the two words of its self-check, whatever becomes of
the session; `Launcher.AgreeAfter` says so of two launchers that agree on these.
-/

namespace Treewire

-- ---------------------------------------------------------------------------
-- Which runtime is found
-- ---------------------------------------------------------------------------

/-- Whether a path leads to a file that may be executed. -/
def Search.isUsable (m : Machine) (p : Path) : Bool :=
  match isExecutable m p with
  | .ok usable => usable
  | .error _ => false

/-- A search that can look at every candidate finds the first usable one. -/
theorem Search.find_eq {m : Machine} {binary : Text} {directories : List Text}
    (h : ∀ d ∈ directories, ∃ b,
      isExecutable m ((Path.ofText d).join (Path.ofText binary)) = .ok b) :
    find m binary directories =
      .ok (((directories.map fun d => (Path.ofText d).join (Path.ofText binary)).find?
        (isUsable m)).map m.absolute) := by
  induction directories with
  | nil => rfl
  | cons d rest ih =>
    rw [List.forall_mem_cons] at h
    obtain ⟨⟨usable, hd⟩, hrest⟩ := h
    have hfind : find m binary (d :: rest) = if usable
        then .ok (some (m.absolute ((Path.ofText d).join (Path.ofText binary))))
        else find m binary rest := by
      rw [find, hd]
      cases usable <;> rfl
    have husable : isUsable m ((Path.ofText d).join (Path.ofText binary)) = usable := by
      rw [isUsable, hd]
    rw [hfind, List.map_cons, List.find?_cons, husable, ih hrest]
    cases usable <;> rfl

namespace Frontend

variable {launcher : Launcher} {c : Configuration} {s : Session} {f : Frontend}

/-- Where the runtime may be: where it is said to be, or else where a search looks, in order. -/
def candidates (m : Machine) (c : Configuration) : List Path :=
  match c.paths.node with
  | some node => [m.absolute node]
  | none => ((Search.directories? m.vars c.fallbackDirs).getD []).map fun d =>
      (Path.ofText d).join (Path.ofText c.nodeBinary)

/-- The runtime, seen from the root: the first candidate that may be executed. -/
def runtime? (m : Machine) (c : Configuration) : Option Path :=
  ((candidates m c).find? (Search.isUsable m)).map m.absolute

/-- What the search for a runtime comes to, failures to look at a candidate included. -/
def lookUp (m : Machine) (c : Configuration) : Except FileError (Option Path) :=
  match c.paths.node with
  | some node => (Search.isExecutable m (m.absolute node)).map fun usable =>
      if usable then some (m.absolute node) else none
  | none => Search.find m c.nodeBinary ((Search.directories? m.vars c.fallbackDirs).getD [])

theorem run_locate (vars : Configuration.Variables) (binary : Text) (fallbacks : List Text) :
    ∃ t, s.Logged t ∧ Search.locate vars binary fallbacks s =
      ((Search.find s.machine binary
        ((Search.directories? vars fallbacks).getD [])).mapError .system, t) := by
  unfold Search.locate
  cases Search.directories? vars fallbacks with
  | none => exact ⟨_, .record _ _, rfl⟩
  | some directories =>
    dsimp only [Option.getD_some]
    rw [Act.run_bind, Act.run_ask]
    rcases Search.find s.machine binary directories with e | (_ | p)
    · exact ⟨s, .refl s, rfl⟩
    · exact ⟨_, .record _ _, rfl⟩
    · exact ⟨_, .record _ _, rfl⟩

theorem run_findNode (c : Configuration) (s : Session) : ∃ t, s.Logged t ∧
    findNode c s = ((lookUp s.machine c).mapError .system, t) := by
  rw [findNode, Act.run_bind, Act.run_get]
  unfold lookUp
  dsimp only
  cases c.paths.node with
  | none => exact run_locate _ _ _
  | some node =>
    refine ⟨s, .refl s, ?_⟩
    dsimp only
    rw [Act.run_bind, Act.run_ask]
    cases Search.isExecutable s.machine (s.machine.absolute node) <;> rfl

/-- A runtime that was found is the one that the search comes to. -/
theorem findNode_some {node : Path} (h : findNode c s = (.ok (some node), t)) :
    s.Logged t ∧ lookUp s.machine c = .ok (some node) := by
  obtain ⟨t', hlogged, hn⟩ := run_findNode c s
  rw [h] at hn
  obtain ⟨hnode, rfl⟩ := Prod.mk.inj hn
  refine ⟨hlogged, ?_⟩
  cases hl : lookUp s.machine c with
  | error e =>
    rw [hl] at hnode
    cases hnode
  | ok found? =>
    rw [hl] at hnode
    cases hnode
    rfl

/-- If every candidate can be looked at, the runtime is found that there is. -/
theorem lookUp_eq {m : Machine}
    (h : ∀ p ∈ candidates m c, ∃ b, Search.isExecutable m p = .ok b) :
    lookUp m c = .ok (runtime? m c) := by
  unfold lookUp runtime?
  unfold candidates at h ⊢
  cases hn : c.paths.node with
  | some node =>
    simp only [hn, List.mem_singleton, forall_eq] at h
    obtain ⟨usable, hu⟩ := h
    dsimp only
    rw [hu, List.find?_cons, Search.isUsable, hu]
    cases usable with
    | false => rfl
    | true =>
      dsimp only
      rw [Option.map_some, Machine.absolute_absolute]
      rfl
  | none =>
    simp only [hn, List.forall_mem_map] at h
    exact Search.find_eq h

theorem run_findNode_ok
    (h : ∀ p ∈ candidates s.machine c, ∃ b, Search.isExecutable s.machine p = .ok b) :
    ∃ t, s.Logged t ∧ findNode c s = (.ok (runtime? s.machine c), t) := by
  obtain ⟨t, hlogged, hn⟩ := run_findNode c s
  rw [lookUp_eq h] at hn
  exact ⟨t, hlogged, hn⟩

end Frontend

-- ---------------------------------------------------------------------------
-- Commands that succeed
-- ---------------------------------------------------------------------------

namespace Invocation

variable {command : List Text} {limit : Option Duration} {launcher : Launcher} {s : Session}

/-- The time is over before it begins. -/
def IsOver (limit : Option Duration) : Prop := ∃ d, limit = some d ∧ watch d = .over

/-- A command ends with status zero before its time is over. -/
def Succeeds (launcher : Launcher) (command : List Text) (limit : Option Duration) (s : Session) :
    Prop :=
  ¬IsOver limit ∧ ∃ output, answer launcher command limit s = .finished (.exited 0 output)

/-- Within a limit that can be counted to, an answer is taken as it is, or the time was over. -/
theorem judge_counted (command : List Text) (result : LimitedFinish)
    (hl : ∀ d, limit = some d → ∀ fault, watch d ≠ .fails fault) :
    (IsOver limit ∨ ∃ written, result = .overran written) ∧
      (∃ d output, judge command limit result = overrun command d output) ∨
    ∃ finish, result = .finished finish ∧ judge command limit result = conclude command finish ∧
      ((∃ error, finish = .refused error) ∨ ¬IsOver limit) := by
  cases limit with
  | none =>
    have hnever : ¬IsOver none := nofun
    rcases result with finish | written
    · refine .inr ⟨finish, rfl, ?_, .inr hnever⟩
      cases finish <;> rfl
    · exact .inl ⟨.inr ⟨written, rfl⟩, _, _, rfl⟩
  | some d =>
    cases hw : watch d with
    | fails fault => exact absurd hw (hl d rfl fault)
    | «over» =>
      have hover : IsOver (some d) := ⟨d, rfl, hw⟩
      rcases result with (_ | _ | error) | written
      case finished.refused => exact .inr ⟨_, rfl, rfl, .inl ⟨error, rfl⟩⟩
      all_goals exact .inl ⟨.inl hover, d, [], by simp only [judge, Option.map_some, hw]⟩
    | counts milliseconds =>
      have hnever : ¬IsOver (some d) := by
        rintro ⟨_, ⟨⟩, ho⟩
        cases hw.symm.trans ho
      rcases result with finish | written
      · refine .inr ⟨finish, rfl, ?_, .inr hnever⟩
        cases finish <;> simp only [judge, Option.map_some, hw]
        rfl
      · refine .inl ⟨.inr ⟨written, rfl⟩, d, written, ?_⟩
        simp only [judge, Option.map_some, hw, Option.getD_some]

theorem run_told (hf : ∀ t ∈ command, t.Tellable) : ∃ t, (run launcher command limit s).1 =
    (judge command limit (answer launcher command limit s) t).1 := by
  obtain ⟨t, hrun⟩ := run_fst launcher command limit s
  rw [fault?_eq_none.mpr hf] at hrun
  exact ⟨t, hrun⟩

/-- What a command comes to that the system can be told and that a clock can keep to its time. -/
theorem run_succeeds_or (launcher : Launcher) (s : Session)
    (hf : ∀ t ∈ command, t.Tellable)
    (hl : ∀ d, limit = some d → ∀ fault, watch d ≠ .fails fault) :
    Succeeds launcher command limit s ∧
      (∃ output, (run launcher command limit s).1 = .ok output) ∨
    ¬Succeeds launcher command limit s ∧
      ∃ failure message, (run launcher command limit s).1 = .error failure ∧
        failure.message? = some message := by
  obtain ⟨t, hrun⟩ := run_told hf
  rw [hrun]
  rcases judge_counted command (answer launcher command limit s) hl with
    ⟨hover, d, output, hj⟩ | ⟨finish, ha, hj, hor⟩
  · refine .inr ⟨?_, .overran d (outputText output), _, by rw [hj]; rfl, rfl⟩
    rintro ⟨hnever, output, ha⟩
    rcases hover with hover | ⟨written, hw⟩
    · exact hnever hover
    · cases ha.symm.trans hw
  · have haccount := conclude_account command limit finish t
    rw [hj, Succeeds, ha]
    generalize (conclude command finish t).1 = outcome at haccount ⊢
    cases haccount with
    | success output =>
      have hnever : ¬IsOver limit := hor.resolve_left nofun
      exact .inl ⟨⟨hnever, output, rfl⟩, _, rfl⟩
    | failure hs hm => exact .inr ⟨by rintro ⟨-, _, ⟨⟩⟩; exact hs rfl, _, _, rfl, rfl⟩
    | signal hm => exact .inr ⟨by rintro ⟨-, _, ⟨⟩⟩, _, _, rfl, rfl⟩
    | refusal hm => exact .inr ⟨by rintro ⟨-, _, ⟨⟩⟩, _, _, rfl, rfl⟩

end Invocation

-- ---------------------------------------------------------------------------
-- Launchers that cannot be told apart
-- ---------------------------------------------------------------------------

/-- Launchers that answer alike to all commands that begin with the given words, and may differ in
everything else. -/
def Launcher.AgreeAfter (words : List String) (launcher launcher' : Launcher) : Prop :=
  ∀ m more, launcher.run m (words ++ more) = launcher'.run m (words ++ more) ∧
    ∀ n, launcher.runFor n m (words ++ more) = launcher'.runFor n m (words ++ more)

theorem Launcher.AgreeAfter.obey {launcher launcher' : Launcher}
    (h : AgreeAfter words launcher launcher') (limit : Option Duration) (m : Machine)
    (more : List String) :
    launcher.obey limit m (words ++ more) = launcher'.obey limit m (words ++ more) := by
  obtain ⟨hrun, hrunFor⟩ := h m more
  unfold Launcher.obey
  rw [hrun]
  split
  · rfl
  · exact hrunFor _
  · exact hrunFor 0

theorem Invocation.run_agree {launcher launcher' : Launcher} {words : List Text}
    (h : Launcher.AgreeAfter (words.map Text.toStringLossy) launcher launcher')
    (more : List Text) (limit : Option Duration) :
    run launcher (words ++ more) limit = run launcher' (words ++ more) limit := by
  rw [run_eq, run_eq]
  refine bind_congr fun _ => bind_congr fun _ => bind_congr fun s => ?_
  rw [List.map_append, h.obey]

namespace Frontend

variable {launcher : Launcher} {c : Configuration} {s start found : Session} {f : Frontend}
  {configuration : Option Configuration} {node : Path}

section Agree

variable {launcher' : Launcher}
  (h : Launcher.AgreeAfter (f.probe.map Text.toStringLossy) launcher launcher')
include h

theorem runScript_agree (arguments : List Text) :
    f.runScript launcher arguments = f.runScript launcher' arguments :=
  Invocation.run_agree h arguments f.configuration.timeout

theorem parse_agree (file : Text) : f.parse launcher file = f.parse launcher' file := by
  simp only [parse, produce, runScript_agree h]

theorem parseSource_agree (code name : Text) :
    f.parseSource launcher code name = f.parseSource launcher' code name := by
  simp only [parseSource, parse_agree h]

end Agree

-- ---------------------------------------------------------------------------
-- Setting up
-- ---------------------------------------------------------------------------

/-- The script that is configured, or else the one that comes with the program. -/
def scriptIn (c : Configuration) (s : Session) : Path := c.paths.script.getD s.bundledScript

/-- The self-check of a runtime ends with status zero, once the runtime was searched. -/
def Checks (launcher : Launcher) (c : Configuration) (s : Session) (node : Path) : Prop :=
  Invocation.Succeeds launcher [node.toText, (scriptIn c s).toText] c.timeout (findNode c s).2

theorem runtime?_isAbsolute {m : Machine} (h : runtime? m c = some node) :
    node.isAbsolute = true := by
  obtain ⟨p, -, rfl⟩ := Option.map_eq_some_iff.mp h
  exact m.absolute_isAbsolute p

/-- What becomes of a session to which a runtime was found. -/
theorem establish_of_runtime (launcher : Launcher)
    (hc : configured configuration start = (.ok c, s))
    (hl : s.Logged found) (hn : findNode c s = (.ok (some node), found))
    (ha : node.isAbsolute = true) :
    (establish launcher configuration start).1 =
      (((Invocation.run launcher [node.toText, (scriptIn c s).toText] c.timeout found).1).mapError
        checkFailure).map fun _ => ⟨c, node, scriptIn c s⟩ := by
  have hf : foundIn c node found = ⟨c, node, scriptIn c s⟩ := by
    rw [foundIn, found.machine.absolute_of_isAbsolute ha, hl.rest]
    rfl
  rw [establish_eq, Act.run_bind, hc]
  dsimp only
  rw [run_establishWith hn, hf]
  rfl

theorem establish_of_none (hc : configured configuration start = (.ok c, s))
    (hn : findNode c s = (.ok none, found)) :
    establish launcher configuration start =
      (.error (.unavailable .runtimeNotFound (wanted c)), found) := by
  rw [establish_eq, Act.run_bind, hc]
  dsimp only
  rw [establishWith, Act.run_bind, hn]
  rfl

/-- The self-check of a runtime fails for a reason that has an explanation. -/
def Fails (launcher : Launcher) (c : Configuration) (s : Session) (node : Path) (message : Text) :
    Prop :=
  ∃ failure, (Invocation.run launcher [node.toText, (scriptIn c s).toText] c.timeout
    (findNode c s).2).1 = .error failure ∧ failure.message? = some message

/-- With a runtime that was found, the self-check decides between a frontend and its failure. -/
theorem establish_checked (launcher : Launcher)
    (hc : configured configuration start = (.ok c, s))
    (hlook : ∀ p ∈ candidates s.machine c, ∃ b, Search.isExecutable s.machine p = .ok b)
    (hlimit : ∀ d, c.timeout = some d → ∀ fault, Invocation.watch d ≠ .fails fault)
    (hr : runtime? s.machine c = some node)
    (htell : ∀ t ∈ [node.toText, (scriptIn c s).toText], t.Tellable) :
    Checks launcher c s node ∧
      (establish launcher configuration start).1 = .ok ⟨c, node, scriptIn c s⟩ ∨
    ¬Checks launcher c s node ∧ ∃ message, Fails launcher c s node message ∧
      (establish launcher configuration start).1 =
        .error (.unavailable .selfCheckFailed (Text.trim message)) := by
  obtain ⟨found, hlogged, hn⟩ := run_findNode_ok hlook
  rw [hr] at hn
  have hestablish := establish_of_runtime launcher hc hlogged hn
    (runtime?_isAbsolute hr)
  rw [Checks, hestablish]
  simp only [Fails, hn]
  rcases Invocation.run_succeeds_or launcher found htell hlimit with
    ⟨hsucceeds, output, hrun⟩ | ⟨hfails, failure, message, hrun, hm⟩
  · refine .inl ⟨hsucceeds, ?_⟩
    rw [hrun]
    rfl
  · refine .inr ⟨hfails, message, ⟨failure, hrun, hm⟩, ?_⟩
    have hcheck : checkFailure failure = .unavailable .selfCheckFailed (Text.trim message) := by
      rw [checkFailure, hm]
    rw [hrun, ← hcheck]
    rfl

/-- There is a frontend exactly if a runtime was found and its self-check succeeds; what it launches
from then on, in any session, begins with the words of that check. -/
theorem establish_outcome (launcher : Launcher)
    (hc : configured configuration start = (.ok c, s))
    (hlook : ∀ p ∈ candidates s.machine c, ∃ b, Search.isExecutable s.machine p = .ok b)
    (hlimit : ∀ d, c.timeout = some d → ∀ fault, Invocation.watch d ≠ .fails fault)
    (htell : ∀ node, runtime? s.machine c = some node →
      ∀ t ∈ [node.toText, (scriptIn c s).toText], t.Tellable) :
    (∀ f, (establish launcher configuration start).1 = .ok f ↔
      ∃ node, runtime? s.machine c = some node ∧ Checks launcher c s node ∧
        f = ⟨c, node, scriptIn c s⟩) ∧
    ((∃ detail, (establish launcher configuration start).1 =
        .error (.unavailable .runtimeNotFound detail)) ↔ runtime? s.machine c = none) ∧
    (runtime? s.machine c = none →
      ∀ other, establish other configuration start = establish launcher configuration start) ∧
    (∀ node, runtime? s.machine c = some node → ¬Checks launcher c s node →
      ∃ message, Fails launcher c s node message ∧
        (establish launcher configuration start).1 =
          .error (.unavailable .selfCheckFailed (Text.trim message))) ∧
    ∀ f, (establish launcher configuration start).1 = .ok f → ∀ one other,
      Launcher.AgreeAfter (f.probe.map Text.toStringLossy) one other → ∀ later,
        (∀ file, f.parse one file later = f.parse other file later) ∧
          ∀ code name, f.parseSource one code name later = f.parseSource other code name later := by
  have hnone (hr : runtime? s.machine c = none) (launcher : Launcher) :
      establish launcher configuration start =
        (.error (.unavailable .runtimeNotFound (wanted c)), (findNode c s).2) := by
    obtain ⟨found, -, hn⟩ := run_findNode_ok hlook
    rw [hr] at hn
    rw [establish_of_none hc hn, hn]
  have hsome {node : Path} (hr : runtime? s.machine c = some node) :=
    establish_checked launcher hc hlook hlimit hr (htell node hr)
  refine ⟨fun f => ⟨fun hf => ?_, ?_⟩, ⟨?_, fun hr => ⟨_, congrArg Prod.fst (hnone hr launcher)⟩⟩,
    fun hr other => (hnone hr other).trans (hnone hr launcher).symm, fun node hr hchecks => ?_,
    fun f _ one other h later => ⟨fun file => congrFun (parse_agree h file) later,
      fun code name => congrFun (parseSource_agree h code name) later⟩⟩
  · cases hr : runtime? s.machine c with
    | none =>
      rw [hnone hr] at hf
      cases hf
    | some node =>
      rcases hsome hr with ⟨hchecks, he⟩ | ⟨-, message, -, he⟩
      · exact ⟨node, rfl, hchecks, Except.ok.inj (hf.symm.trans he)⟩
      · cases hf.symm.trans he
  · rintro ⟨node, hr, hchecks, rfl⟩
    exact ((hsome hr).resolve_right fun h => h.1 hchecks).2
  · rintro ⟨detail, hd⟩
    cases hr : runtime? s.machine c with
    | none => rfl
    | some node =>
      rcases hsome hr with ⟨-, he⟩ | ⟨-, message, -, he⟩ <;> cases hd.symm.trans he
  · exact ((hsome hr).resolve_left fun h => hchecks h.1).2

-- ---------------------------------------------------------------------------
-- A runtime on the search path
-- ---------------------------------------------------------------------------

/-- A session with a runtime at the root, where the search path leads. -/
def searching : Session :=
  Session.start { (default : Machine) with
    files := ⟨[(["node"], .file [] 0o755)]⟩
    vars := [("PATH", "/")] } default

/-- A configuration that names a script and sets a limit. -/
def scripted : Configuration :=
  { Configuration.default with
    timeout := some (.whole 5)
    fallbackDirs := []
    paths := { script := some (Path.ofString "p.js") } }

theorem candidates_searching :
    candidates searching.machine scripted = [Path.ofString "/node"] := rfl

theorem runtime?_searching :
    runtime? searching.machine scripted = some (Path.ofString "/node") := by
  rw [runtime?, candidates_searching, List.find?_cons, Search.isUsable, isExecutable_node rfl]
  rfl

/-- The runtime is searched and found; whether there is a frontend hangs on how its check ends. -/
theorem establish_outcome_searching :
    (∀ p ∈ candidates searching.machine scripted, ∃ b,
      Search.isExecutable searching.machine p = .ok b) ∧
    (∀ d, scripted.timeout = some d → ∀ fault, Invocation.watch d ≠ .fails fault) ∧
    (∀ node, runtime? searching.machine scripted = some node →
      ∀ t ∈ [node.toText, (scriptIn scripted searching).toText], t.Tellable) ∧
    (establish (exiting 0) (some scripted) searching).1 =
      .ok ⟨scripted, Path.ofString "/node", Path.ofString "p.js"⟩ ∧
    ∃ message, (establish (exiting 3) (some scripted) searching).1 =
      .error (.unavailable .selfCheckFailed (Text.trim message)) := by
  have hlook : ∀ p ∈ candidates searching.machine scripted, ∃ b,
      Search.isExecutable searching.machine p = .ok b := by
    rw [candidates_searching]
    simp only [List.mem_singleton, forall_eq]
    exact ⟨true, isExecutable_node rfl⟩
  have hlimit : ∀ d, scripted.timeout = some d →
      ∀ fault, Invocation.watch d ≠ .fails fault := by
    rintro _ ⟨⟩ fault hw
    cases hw
  have htell : ∀ node, runtime? searching.machine scripted = some node →
      ∀ t ∈ [node.toText, (scriptIn scripted searching).toText], t.Tellable := by
    rw [runtime?_searching]
    rintro _ ⟨⟩
    rw [← Invocation.fault?_eq_none]
    rfl
  have hc : configured (some scripted) searching = (.ok scripted, searching) := rfl
  refine ⟨hlook, hlimit, htell, ?_, ?_⟩
  · refine ((establish_outcome (exiting 0) hc hlook hlimit htell).1 _).mpr
      ⟨Path.ofString "/node", runtime?_searching, ⟨?_, [], rfl⟩, rfl⟩
    rintro ⟨_, ⟨⟩, ho⟩
    cases ho
  · obtain ⟨-, -, -, hfails, -⟩ :=
      establish_outcome (exiting 3) hc hlook hlimit htell
    obtain ⟨message, -, he⟩ := hfails _ runtime?_searching (by
      rintro ⟨-, output, ho⟩
      cases ho)
    exact ⟨message, he⟩

end Frontend

end Treewire
