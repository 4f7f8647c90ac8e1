import Treewire.Proofs.Establishing
import Treewire.Proofs.Overlooking
import Treewire.Proofs.Requests

/-!
# Naming a configuration file

A configuration file is named by an option or by a variable. With the option, the command does what
it does in a session with that variable; but the variable that names the runtime is not asked for.
`option_as_variable` says so, and `variable_not_option` that the difference can be seen.
-/

namespace Treewire.CommandLine

-- ---------------------------------------------------------------------------
-- The option and the variable
-- ---------------------------------------------------------------------------

open Treewire.Configuration (value? fileVariable nodeVariable)

variable {launcher : Launcher} {s t : Session} {path : String} {command : Text} {names : Names}
  {arguments arguments' added : List Text}

theorem ofString_cons (h : value? vars name = some path) :
    ∃ c rest, Text.ofString path = c :: rest := by
  have hne : path ≠ "" := by
    rintro rfl
    rw [value?, Option.filter_eq_some_iff] at h
    exact absurd h.2 (by decide)
  cases ht : Text.ofString path with
  | nil => exact absurd (Text.ofString_injective ht) hne
  | cons c rest => exact ⟨c, rest, rfl⟩

/-- The configuration is that of the variables, or the one in the file that an option names; what
becomes of it is the same. -/
theorem configurationOf_eq (settings : Settings) (c : Symbol) (rest : Text) :
    ∃ next : Configuration → Act Configuration,
      configurationOf (settings.withConfiguration none) =
        (do next (← Frontend.defaultConfiguration (← get).machine.vars)) ∧
      configurationOf (settings.withConfiguration (some (c :: rest))) =
        (do next (← Frontend.loadConfiguration (Path.ofText (c :: rest)))) :=
  ⟨_, rfl, rfl⟩

/-- Where no variable names the runtime, a file that a variable names is as good as one that an
option names. -/
theorem configurationOf_variable (settings : Settings)
    (hfile : value? s.machine.vars fileVariable = some path)
    (hnode : value? s.machine.vars nodeVariable = none) :
    configurationOf (settings.withConfiguration none) s =
      configurationOf (settings.withConfiguration (some (Text.ofString path))) s := by
  obtain ⟨c, rest, hpath⟩ := ofString_cons hfile
  obtain ⟨next, hvariable, hoption⟩ := configurationOf_eq settings c rest
  have hdefault : Frontend.defaultConfiguration s.machine.vars =
      Frontend.loadConfiguration (Path.ofString path) := by
    have hwith (homes : Homes) (c : Configuration) :
        Configuration.withNode homes s.machine.vars c = .ok c := by
      rw [Configuration.withNode, hnode]
    rw [Frontend.defaultConfiguration, hfile]
    dsimp only
    simp only [hwith]
    exact (bind_congr fun _ => rfl).trans (bind_pure _)
  rw [hpath, hvariable, hoption, Act.run_bind, Act.run_get]
  dsimp only
  rw [hdefault, Path.ofString, hpath]

theorem frontend?_congr {settings settings' : Settings}
    (h : configurationOf settings s = configurationOf settings' s) :
    frontend? launcher settings s = frontend? launcher settings' s := by
  have hsetUp : setUp launcher settings s = setUp launcher settings' s := by
    rw [setUp, setUp, Act.run_bind, Act.run_bind, h]
  rw [run_frontend?, run_frontend?, hsetUp]

/-- The log is set up without a change of variables. -/
theorem setUpLog_congr {request : Log.Request} {next next' : Act α}
    (h : ∀ ready : Session, ready.machine.vars = s.machine.vars → next ready = next' ready) :
    (setUpLog request >>= fun _ => next) s = (setUpLog request >>= fun _ => next') s := by
  have hvars : (setUpLog request s).2.machine.vars = s.machine.vars := by
    rw [run_setUpLog]
    rfl
  rw [Act.run_bind, Act.run_bind]
  generalize setUpLog request s = r at hvars
  rcases r with ⟨e | _, ready⟩
  · rfl
  · exact h ready hvars

variable (hfile : value? s.machine.vars fileVariable = some path)
  (hnode : value? s.machine.vars nodeVariable = none)
include hfile hnode

theorem frontend?_variable (settings : Settings) {ready : Session}
    (hvars : ready.machine.vars = s.machine.vars) (next : Option Frontend → Act Answer) :
    (frontend? launcher (settings.withConfiguration none) >>= next) ready =
      (frontend? launcher (settings.withConfiguration (some (Text.ofString path))) >>= next)
        ready := by
  rw [← hvars] at hfile hnode
  rw [Act.run_bind, Act.run_bind, frontend?_congr (configurationOf_variable settings hfile hnode)]

theorem check_variable (settings : Settings) : check launcher (settings.withConfiguration none) s =
    check launcher (settings.withConfiguration (some (Text.ofString path))) s :=
  setUpLog_congr fun _ hvars => frontend?_variable hfile hnode settings hvars _

theorem parse_variable (settings : Settings) (files : List Text) :
    parse launcher (settings.withConfiguration none) files s =
      parse launcher (settings.withConfiguration (some (Text.ofString path))) files s := by
  refine setUpLog_congr fun ready hvars => ?_
  have hcode (file : Option Text) : (settings.withConfiguration file).code = settings.code := rfl
  simp only [hcode]
  split
  · rfl
  · exact frontend?_variable hfile hnode settings hvars _

/-- A request that names no configuration file is answered as one that names the file that a
variable names. -/
theorem run_variable {request : Request} (harguments : Request.ofArguments arguments =
      .ok (some (request.withConfiguration none)))
    (hselected : Request.ofArguments arguments' =
      .ok (some (request.withConfiguration (some (Text.ofString path))))) :
    run launcher arguments s = run launcher arguments' s := by
  rw [run, run, harguments, hselected]
  cases request with
  | check settings => exact check_variable hfile hnode settings
  | parse settings files => exact parse_variable hfile hnode settings files

omit hfile hnode

theorem run_overlooks (hl : launcher.Overlooks) {request : Request} {c : Symbol} {rest : Text}
    (h : Request.ofArguments arguments =
      .ok (some (request.withConfiguration (some (c :: rest))))) :
    (run launcher arguments).Overlooks := by
  rw [run, h]
  cases request with
  | check settings => exact check_overlooks hl (configurationOf_overlooks rfl)
  | parse settings files => exact parse_overlooks hl (configurationOf_overlooks rfl) files

/-- An option that names a configuration file does what the variable does in a session without one
that names the runtime: outcome, console, files and log are the same, whatever other variables there
are. -/
theorem option_as_variable (hl : launcher.Overlooks) (hc : Offers command names)
    (hs : Selects (Text.ofString path) added) (ha : Added added arguments arguments')
    (hu : Unselected names arguments) (hst : s.Resembles t)
    (hfile : value? t.machine.vars fileVariable = some path)
    (hnode : value? t.machine.vars nodeVariable = none) :
    (run launcher (command :: arguments) t).1 = (run launcher (command :: arguments') s).1 ∧
      (run launcher (command :: arguments') s).2.Resembles
        (run launcher (command :: arguments) t).2 := by
  have hadded := ofArguments_added hc hs ha hu
  have hunselected := ofArguments_unselected hc hu
  cases hr : Request.ofArguments (command :: arguments) with
  | error e =>
    rw [hr] at hadded
    rw [run, run, hr, hadded]
    cases e <;> exact ⟨rfl, hst⟩
  | ok request =>
    rw [hr] at hadded hunselected
    cases request with
    | none =>
      rw [run, run, hr, hadded]
      exact ⟨rfl, hst⟩
    | some request =>
      have hnone : request = request.withConfiguration none :=
        Option.some.inj (Except.ok.inj hunselected)
      rw [hnone] at hr
      obtain ⟨c, rest, hpath⟩ := ofString_cons hfile
      rw [run_variable hfile hnode hr hadded]
      rw [hpath] at hadded
      exact run_overlooks hl hadded s t hst

-- ---------------------------------------------------------------------------
-- A variable that names the runtime
-- ---------------------------------------------------------------------------

/-- A session in which a variable names a runtime, with an empty configuration file. -/
def named : Session :=
  Session.start { (default : Machine) with
    files := ⟨[(["node"], .file [] 0o755), (["c.yaml"], .file [] 0o644)]⟩
    vars := [(nodeVariable, "/node")] } ⟨.single, []⟩

/-- A session once the command set the log up. -/
def ready (s : Session) : Session :=
  { s with log := ⟨.warning, [⟨.console, .warning, Log.usualLayout⟩]⟩ }

theorem exiting_overlooks (status : UInt8) : (Frontend.exiting status).Overlooks := by
  intro limit m vars arguments _
  unfold Launcher.obey
  split <;> rfl

theorem ofArguments_check : Request.ofArguments [Text.ofString "check"] = .ok (some (.check {})) := by
  rw [ofArguments_command .check]
  dsimp only [kindsOf]
  rw [requestOf, if_pos rfl, findings, kindsOf]
  dsimp only [bind, Except.bind]
  rw [collect]
  rfl

theorem unselected_nil : Unselected names [] := by
  intro kinds hk
  cases hk
  intro short attached text hm
  cases hm

theorem selects_named : Selects (Text.ofString "/c.yaml") [Text.ofString "--config=/c.yaml"] :=
  .attached

/-- Neither the option nor the variable finds a runtime here, if no variable names it. -/
theorem option_as_variable_named :
    (Frontend.exiting 0).Overlooks ∧
      (run (Frontend.exiting 0) [Text.ofString "check"]
        ((named.withVariable nodeVariable none).withVariable fileVariable (some "/c.yaml"))).1 =
        (run (Frontend.exiting 0)
          [Text.ofString "check", Text.ofString "--config=/c.yaml"] named).1 := by
  have hresembles : named.Resembles
      ((named.withVariable nodeVariable none).withVariable fileVariable (some "/c.yaml")) :=
    (Session.Resembles.withVariable named none (.inr rfl)).trans
      (Session.Resembles.withVariable _ _ (.inl rfl))
  have hfront : Added [Text.ofString "--config=/c.yaml"] [] [Text.ofString "--config=/c.yaml"] :=
    .front
  have hsame := option_as_variable (exiting_overlooks 0) .check selects_named hfront unselected_nil
    hresembles rfl rfl
  exact ⟨exiting_overlooks 0, hsame.1⟩

theorem load_named : Configuration.load named.machine.files named.machine.here named.machine.homes
    (Path.ofString "/c.yaml") = .ok .default := by
  have hrooted : Files.Rooted (Path.ofString "/c.yaml").toString "c.yaml" :=
    ⟨by decide, by decide, rfl, rfl, by decide, by decide⟩
  have hget : named.machine.files.get? ["c.yaml"] = some (.file [] 0o644) := rfl
  have hstat : named.machine.files.stat named.machine.here (Path.ofString "/c.yaml").toString =
      .ok (["c.yaml"], .file [] 0o644) := by
    refine hrooted.stat hget ?_
    rintro target ⟨⟩
  have hread : named.machine.files.read named.machine.here (Path.ofString "/c.yaml").toString =
      .ok [] := by
    rw [Files.read, hstat]
    rfl
  exact Configuration.load_of_document hread (by decide +kernel)

/-- The session in which a variable names the file. -/
def pointed : Session := named.withVariable fileVariable (some "/c.yaml")

theorem run_loadConfiguration_ready (h : s = named ∨ s = pointed) :
    Frontend.loadConfiguration (Path.ofString "/c.yaml") (ready s) = (.ok .default, ready s) := by
  have hrecord : (ready s).record (Frontend.loading (Path.ofString "/c.yaml")) = ready s := rfl
  have hpath : Invocation.textFault? (Path.ofString "/c.yaml").toText = none := rfl
  have hload : Configuration.load (ready s).machine.files (ready s).machine.here
      (ready s).machine.homes (Path.ofString "/c.yaml") = .ok .default := by
    rcases h with rfl | rfl <;> exact load_named
  rw [Frontend.run_loadConfiguration, hrecord, hpath]
  dsimp only
  rw [hload]
  rfl

theorem check_of_setUp {settings : Settings} {log u : Session} {f : Frontend}
    (hl : setUpLog ⟨settings.level.name, none, none, none⟩ s = (.ok ⟨⟩, log))
    (hf : setUp launcher settings log = (.ok f, u)) :
    ∃ table, (check launcher settings s).1 = .ok (.done 0 (.table table)) := by
  rw [check, Act.run_bind, hl]
  dsimp only
  rw [Act.run_bind, run_frontend?, hf]
  exact ⟨_, rfl⟩

theorem check_of_excuse {settings : Settings} {log u : Session} {failure : Failure} {lines : Text}
    (hl : setUpLog ⟨settings.level.name, none, none, none⟩ s = (.ok ⟨⟩, log))
    (hf : setUp launcher settings log = (.error failure, u))
    (he : excuse? u.bundle failure = some lines) :
    (check launcher settings s).1 = .ok (.done 1 (.text [])) := by
  rw [check, Act.run_bind, hl]
  dsimp only
  rw [Act.run_bind, run_frontend?, hf]
  dsimp only
  rw [he]
  rfl

/-- With the option, no runtime is found. -/
theorem check_named : (check (Frontend.exiting 0)
    (({} : Settings).withConfiguration (some (Text.ofString "/c.yaml"))) named).1 =
      .ok (.done 1 (.text [])) := by
  have hc : configurationOf (({} : Settings).withConfiguration (some (Text.ofString "/c.yaml")))
      (ready named) = (.ok .default, ready named) := by
    have hrun : configurationOf
        (({} : Settings).withConfiguration (some (Text.ofString "/c.yaml"))) =
          (Frontend.loadConfiguration (Path.ofString "/c.yaml") >>= fun c => pure c) := rfl
    rw [hrun, bind_pure, run_loadConfiguration_ready (.inl rfl)]
  have hn : Frontend.findNode .default (ready named) = (.ok none, ready named) := rfl
  have hsetUp : setUp (Frontend.exiting 0)
      (({} : Settings).withConfiguration (some (Text.ofString "/c.yaml"))) (ready named) =
        (.error (.unavailable .runtimeNotFound (Frontend.wanted .default)), ready named) := by
    rw [setUp, Act.run_bind, hc]
    exact Frontend.establish_of_none rfl hn
  exact check_of_excuse (setUpLog_plain .warning rfl) hsetUp rfl

/-- With the variable, there is the one that the other variable names. -/
theorem check_pointed : ∃ table,
    (check (Frontend.exiting 0) {} pointed).1 = .ok (.done 0 (.table table)) := by
  have hc : configurationOf {} (ready pointed) =
      (.ok (Frontend.naming Configuration.defaultTimeout), ready pointed) := by
    have hrun : configurationOf {} = (get >>= fun s : Session =>
        Frontend.defaultConfiguration s.machine.vars >>= fun c => pure c) := rfl
    have hfile : value? (ready pointed).machine.vars fileVariable = some "/c.yaml" := rfl
    rw [hrun, Act.run_bind, Act.run_get]
    dsimp only
    rw [bind_pure, Frontend.defaultConfiguration, hfile]
    dsimp only
    rw [Act.run_bind, run_loadConfiguration_ready (.inr rfl)]
    rfl
  have hsetUp : ∃ f u, setUp (Frontend.exiting 0) {} (ready pointed) = (.ok f, u) := by
    rw [setUp, Act.run_bind, hc]
    dsimp only
    rw [Frontend.establish]
    dsimp only
    rw [Act.run_bind, Act.run_pure]
    dsimp only
    rw [Act.run_bind, Frontend.findNode_naming _ rfl]
    exact ⟨_, _, rfl⟩
  obtain ⟨f, u, hsetUp⟩ := hsetUp
  exact check_of_setUp (setUpLog_plain .warning rfl) hsetUp

/-- So the variable is not what the option is. -/
theorem variable_not_option : ¬∀ (launcher : Launcher) (s : Session) (path : String)
    (command : Text) (names : Names) (arguments arguments' added : List Text),
      launcher.Overlooks → path ≠ "" → Offers command names →
      Selects (Text.ofString path) added → Added added arguments arguments' →
      Unselected names arguments →
        (run launcher (command :: arguments') s).1 =
          (run launcher (command :: arguments) (s.withVariable fileVariable (some path))).1 := by
  intro h
  have hfront : Added [Text.ofString "--config=/c.yaml"] [] [Text.ofString "--config=/c.yaml"] :=
    .front
  have hsame := h _ named "/c.yaml" _ _ [] _ _ (exiting_overlooks 0) (by decide) .check
    selects_named hfront unselected_nil
  have hselected : Request.ofArguments [Text.ofString "check", Text.ofString "--config=/c.yaml"] =
      .ok (some (.check (({} : Settings).withConfiguration (some (Text.ofString "/c.yaml"))))) := by
    rw [ofArguments_added .check selects_named hfront unselected_nil, ofArguments_check]
    rfl
  obtain ⟨table, hpointed⟩ := check_pointed
  rw [run, run, ofArguments_check, hselected] at hsame
  dsimp only at hsame
  rw [check_named, ← pointed, hpointed] at hsame
  cases hsame

end Treewire.CommandLine
