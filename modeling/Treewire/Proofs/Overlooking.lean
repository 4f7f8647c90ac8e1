import Treewire.Proofs.Answering

/-!
# Variables that nobody looks at

Once a command line names a configuration file, the program asks neither for the variable that names
such a file nor for the one that names the runtime. Sessions that differ in these two alone come to
the same, if the programs that are launched do not look at them either.
-/

namespace Treewire

-- ---------------------------------------------------------------------------
-- Sessions with other variables
-- ---------------------------------------------------------------------------

namespace Configuration

/-- Variables with the same values, but for the two that ask for a configuration. -/
def AgreeApart (vars vars' : Variables) : Prop :=
  ∀ name, name ≠ fileVariable → name ≠ nodeVariable → vars'.lookup name = vars.lookup name

theorem AgreeApart.value? {vars vars' : Variables} {name : String} (h : AgreeApart vars vars')
    (hf : name ≠ fileVariable) (hn : name ≠ nodeVariable) :
    value? vars' name = value? vars name := by
  rw [Configuration.value?, h name hf hn, ← Configuration.value?]

end Configuration

open Treewire.Configuration (Variables AgreeApart)

/-- A machine with other variables. -/
def Machine.withVars (m : Machine) (vars : Variables) : Machine := { m with vars }

/-- A session with other variables. -/
def Session.withVars (s : Session) (vars : Variables) : Session :=
  { s with machine := s.machine.withVars vars }

namespace Configuration.AgreeApart

variable {m : Machine} {vars : Variables} (h : AgreeApart m.vars vars)
include h

theorem homes : (m.withVars vars).homes = m.homes := by
  have hhome : vars.lookup "HOME" = m.vars.lookup "HOME" := h _ (by decide) (by decide)
  rw [Machine.homes, Machine.homes, Machine.withVars, hhome]

theorem directories? (fallbacks : List Text) :
    Search.directories? vars fallbacks = Search.directories? m.vars fallbacks := by
  rw [Search.directories?, h _ (by decide) (by decide), ← Search.directories?]

theorem temporaryDirectory? : (m.withVars vars).temporaryDirectory? = m.temporaryDirectory? := by
  have hcandidates : (m.withVars vars).temporaryCandidates = m.temporaryCandidates := by
    have hnamed : ["TMPDIR", "TEMP", "TMP"].filterMap (Configuration.value? vars) =
        ["TMPDIR", "TEMP", "TMP"].filterMap (Configuration.value? m.vars) := by
      refine List.filterMap_congr fun name hm => ?_
      simp only [List.mem_cons, List.not_mem_nil, or_false] at hm
      rcases hm with rfl | rfl | rfl <;> exact h.value? (by decide) (by decide)
    rw [Machine.temporaryCandidates, Machine.temporaryCandidates, Machine.withVars, hnamed]
  rw [Machine.temporaryDirectory?, hcandidates]
  rfl

end Configuration.AgreeApart

/-- Two sessions that differ at most in the variables that ask for a configuration. -/
structure Session.Resembles (s t : Session) : Prop where
  vars : AgreeApart s.machine.vars t.machine.vars
  rest : t = s.withVars t.machine.vars

/-- A session once a variable was set, or unset. -/
def Session.withVariable (s : Session) (name : String) (value : Option String) : Session :=
  { s with machine := s.machine.set name value }

theorem Machine.lookup_set (m : Machine) (value : Option String) {name other : String}
    (h : other ≠ name) : (m.set name value).vars.lookup other = m.vars.lookup other := by
  have hothers := lookup_filter_ne m.vars h
  cases value with
  | none => exact hothers
  | some v =>
    have hset : (m.set name (some v)).vars = m.vars.filter (·.1 != name) ++ [(name, v)] := rfl
    have hone : [(name, v)].lookup other = none := by
      rw [List.lookup_cons, beq_eq_false_iff_ne.mpr h]
      rfl
    rw [hset, List.lookup_append, hothers, hone, Option.or_none]

namespace Session.Resembles

variable {s t u : Session}

theorem trans (h : s.Resembles t) (h' : t.Resembles u) : s.Resembles u where
  vars name hf hn := (h'.vars name hf hn).trans (h.vars name hf hn)
  rest := by
    rw [h'.rest, h.rest]
    rfl

theorem withVariable (s : Session) (value : Option String)
    (h : name = Configuration.fileVariable ∨ name = Configuration.nodeVariable) :
    s.Resembles (s.withVariable name value) where
  vars other hf hn := by
    refine s.machine.lookup_set value ?_
    rcases h with rfl | rfl
    · exact hf
    · exact hn
  rest := rfl

end Session.Resembles

theorem Session.record_withVars (s : Session) (vars : Variables) (r : Log.Record) :
    (s.withVars vars).record r = (s.record r).withVars vars := by
  have hadmits : (s.withVars vars).log.admits r.level = s.log.admits r.level := rfl
  rw [record, record, hadmits]
  cases s.log.admits r.level <;> rfl

theorem Session.unlink_withVars (s : Session) (vars : Variables) (path : String) :
    (s.withVars vars).machine.files.unlink (s.withVars vars).machine.here path =
      s.machine.files.unlink s.machine.here path := rfl

theorem Session.Logged.vars {s t : Session} (h : s.Logged t) : t.machine.vars = s.machine.vars := by
  rw [h.rest]

-- ---------------------------------------------------------------------------
-- Acts
-- ---------------------------------------------------------------------------

namespace Act

/-- An act that comes to the same in sessions that differ in these variables alone. -/
def Overlooks (act : Act α) : Prop :=
  ∀ s t : Session, s.Resembles t → (act t).1 = (act s).1 ∧ (act s).2.Resembles (act t).2

namespace Overlooks

theorem of_run {act : Act α} (h : ∀ s vars, AgreeApart s.machine.vars vars →
      act (s.withVars vars) = ((act s).1, (act s).2.withVars vars))
    (hv : ∀ s, (act s).2.machine.vars = s.machine.vars) : act.Overlooks := by
  rintro s t ⟨hvars, hrest⟩
  rw [hrest, h s _ hvars]
  refine ⟨rfl, ?_, rfl⟩
  rw [hv s]
  exact hvars

/-- An act that changes nothing, and has the same outcome. -/
theorem of_outcome {act : Act α} (outcome : Session → Except Failure α)
    (ho : ∀ s vars, AgreeApart s.machine.vars vars → outcome (s.withVars vars) = outcome s)
    (h : ∀ s, act s = (outcome s, s)) : act.Overlooks :=
  of_run (fun s vars ha => by rw [h, h, ho s vars ha]) fun s => by rw [h]

theorem pure (a : α) : (Pure.pure a : Act α).Overlooks := of_run (fun _ _ _ => rfl) fun _ => rfl

theorem throw (e : Failure) : (MonadExcept.throw e : Act α).Overlooks :=
  of_run (fun _ _ _ => rfl) fun _ => rfl

theorem ofExcept (cause : ε → Failure) (x : Except ε α) : (Act.ofExcept cause x).Overlooks :=
  of_outcome _ (fun _ _ _ => rfl) fun _ => run_ofExcept cause x

theorem tell (source : String) (level : Log.Level) (message : Text) :
    (Act.tell source level message).Overlooks :=
  of_run (fun s vars _ => by rw [run_tell, run_tell, Session.record_withVars])
    fun s => (Session.Logged.record s _).vars

theorem bind {act : Act α} {next : α → Act β} (ha : act.Overlooks) (hn : ∀ a, (next a).Overlooks) :
    (act >>= next).Overlooks := by
  intro s t h
  obtain ⟨hsame, hafter⟩ := ha s t h
  rw [run_bind, run_bind]
  generalize act s = r at hsame hafter
  generalize act t = r' at hsame hafter
  obtain ⟨outcome, u⟩ := r
  obtain ⟨outcome', u'⟩ := r'
  obtain rfl : outcome' = outcome := hsame
  cases outcome' with
  | error e => exact ⟨rfl, hafter⟩
  | ok a => exact hn a u u' hafter

theorem attempt {act : Act α} (h : act.Overlooks) : act.attempt.Overlooks :=
  fun s t hst => ⟨congrArg Except.ok (h s t hst).1, (h s t hst).2⟩

theorem composes : Composes @Act.Overlooks := ⟨pure, throw, tell, bind, attempt⟩

/-- An act that asks for the session, and uses what the variables have no say in. -/
theorem get {next : Session → Act α}
    (hs : ∀ s vars, AgreeApart s.machine.vars vars → next (s.withVars vars) = next s)
    (hn : ∀ s, (next s).Overlooks) : (MonadState.get >>= next).Overlooks := by
  intro s t h
  have hnext : next t = next s := h.rest ▸ hs s _ h.vars
  rw [run_bind, run_bind, run_get, run_get]
  dsimp only
  rw [hnext]
  exact hn s s t h

theorem ask {question : Machine → Except FileError α}
    (hq : ∀ m vars, AgreeApart m.vars vars → question (m.withVars vars) = question m) :
    (Act.ask question).Overlooks := by
  refine of_outcome _ (fun s vars h => ?_) fun _ => run_ask question
  have hsame : question (s.withVars vars).machine = question s.machine := hq s.machine vars h
  rw [hsame]

theorem withFiles (files : Files) : (modify (·.withFiles files) : Act PUnit).Overlooks :=
  of_run (fun _ _ _ => rfl) fun _ => rfl

theorem print (text : Text) : (Act.print text).Overlooks := of_run (fun _ _ _ => rfl) fun _ => rfl

theorem change {operation : Machine → Except FileError Files}
    (ho : ∀ m vars, AgreeApart m.vars vars → operation (m.withVars vars) = operation m) :
    (Act.change operation).Overlooks :=
  bind (ask ho) fun _ => withFiles _

theorem temporaryDirectory : Act.temporaryDirectory.Overlooks := by
  refine of_run (fun s vars h => ?_) fun s => ?_
  · have hsame : (s.withVars vars).temporary.or
        (s.withVars vars).machine.temporaryDirectory? =
          s.temporary.or s.machine.temporaryDirectory? :=
      congrArg s.temporary.or h.temporaryDirectory?
    rw [run_temporaryDirectory, run_temporaryDirectory, hsame]
    cases s.temporary.or s.machine.temporaryDirectory? <;> rfl
  · rw [run_temporaryDirectory]
    split <;> rfl

theorem freshName : Act.freshName.Overlooks := of_run (fun _ _ _ => rfl) fun _ => rfl

theorem passable (t : Text) : (Act.passable t).Overlooks :=
  of_outcome _ (fun _ _ _ => rfl) fun _ => Invocation.run_passable t

theorem compile (file : Location) : (Act.compile file).Overlooks := by
  have keep (c : Proto.Compilation) : (do
      Act.tell schemaSource .debug
        (Text.ofString s!"Compiled AST schema {file.path} ({c.fileCount} file(s))")
      modify fun s => { s with schemas := s.schemas.insert file c.schema }
      return c.schema : Act Schema).Overlooks :=
    bind (tell _ _ _) fun _ => bind (of_run (fun _ _ _ => rfl) fun _ => rfl) fun _ => pure _
  refine get (fun _ _ _ => rfl) fun s => bind (ofExcept _ _) fun _ => bind temporaryDirectory fun _ =>
    bind (ask fun _ _ _ => rfl) fun _ => get (fun _ _ _ => rfl) fun t => ?_
  dsimp only
  split
  · exact bind (pure _) keep
  · exact bind (ofExcept _ _) keep

theorem loadSchema (path : Text) : (Act.loadSchema path).Overlooks := by
  refine get (fun _ _ _ => rfl) fun s => ?_
  split
  · exact throw _
  · split
    · exact pure _
    · exact compile _

end Overlooks

end Act

/-- A launcher of programs that do not look at the variables that ask for a configuration. -/
def Launcher.Overlooks (launcher : Launcher) : Prop :=
  ∀ limit (m : Machine) vars arguments, AgreeApart m.vars vars →
    launcher.obey limit (m.withVars vars) arguments = launcher.obey limit m arguments

-- ---------------------------------------------------------------------------
-- Frontends
-- ---------------------------------------------------------------------------

open Act.Overlooks

variable {launcher : Launcher}

theorem Invocation.run_overlooks (hl : launcher.Overlooks) (command : List Text)
    (limit : Option Duration) : (run launcher command limit).Overlooks := by
  rw [run_eq]
  refine bind (tell _ _ _) fun _ => bind ?_ fun _ => get (fun s vars h => ?_) fun s => ?_
  · exact of_outcome _ (fun _ _ _ => rfl) fun _ => run_forM_passable
  · rw [Session.withVars, hl _ _ _ _ h]
  · exact bind (withFiles _) fun _ => composes.judge command limit _

namespace Frontend

variable (f : Frontend)

theorem schema_overlooks : f.schema.Overlooks := get (fun _ _ _ => rfl) fun _ => pure _

theorem temporaryPath_overlooks (ending : Text) : (f.temporaryPath ending).Overlooks :=
  composes.temporaryPath temporaryDirectory freshName ending

theorem removeOutput_overlooks (output : Path) : (removeOutput output).Overlooks := by
  refine of_run (fun s vars _ => ?_) fun s => ?_
  · rw [run_removeOutput, run_removeOutput, s.unlink_withVars]
    cases s.machine.files.unlink s.machine.here output.toString <;> rfl
  · rw [run_removeOutput]
    split <;> rfl

theorem discardOutput_overlooks (output : Path) : (discardOutput output).Overlooks := by
  refine of_run (fun s vars _ => ?_) fun s => ?_
  · rw [run_discardOutput, run_discardOutput, s.unlink_withVars]
    split
    · rfl
    · rfl
    · rw [Session.record_withVars]
  · rw [run_discardOutput]
    split
    · rfl
    · rfl
    · exact (Session.Logged.record s _).vars

theorem removeSource_overlooks (file : Path) : (removeSource file).Overlooks := by
  refine of_run (fun s vars _ => ?_) fun s => ?_
  · rw [run_removeSource, run_removeSource, s.unlink_withVars]
    split <;> rfl
  · rw [run_removeSource]
    split <;> rfl

theorem produce_overlooks (hl : launcher.Overlooks) (schema output : Path) (file : Text) :
    (f.produce launcher schema output file).Overlooks :=
  bind (Invocation.run_overlooks hl _ _) fun _ => get (fun _ _ _ => rfl) fun _ => ofExcept _ _

theorem parse_overlooks (hl : launcher.Overlooks) (file : Text) :
    (f.parse launcher file).Overlooks :=
  composes.parse (schema_overlooks f) (temporaryPath_overlooks f _)
    (produce_overlooks f hl · · file) discardOutput_overlooks removeOutput_overlooks loadSchema

theorem writeSource_overlooks (file : Path) (code : Text) : (writeSource file code).Overlooks :=
  composes.writeSource (passable _) (fun _ => change fun _ _ _ => rfl) code

theorem parseSource_overlooks (hl : launcher.Overlooks) (code name : Text) :
    (f.parseSource launcher code name).Overlooks :=
  composes.parseSource code name (temporaryPath_overlooks f) (writeSource_overlooks · code)
    (parse_overlooks f hl) removeSource_overlooks

theorem loadConfiguration_overlooks (file : Path) : (loadConfiguration file).Overlooks := by
  refine bind (tell _ _ _) fun _ => bind (passable _) fun _ => get (fun s vars h => ?_) fun _ =>
    ofExcept _ _
  dsimp only [Session.withVars]
  rw [h.homes]
  rfl

theorem find_withVars (m : Machine) (vars : Variables) (binary : Text) (directories : List Text) :
    Search.find (m.withVars vars) binary directories = Search.find m binary directories := by
  induction directories with
  | nil => rfl
  | cons directory rest ih =>
    rw [Search.find, Search.find, ih]
    rfl

theorem findNode_overlooks (c : Configuration) : (findNode c).Overlooks := by
  refine get (fun s vars h => ?_) fun s => ?_
  · cases c.paths.node with
    | some node => rfl
    | none =>
      dsimp only [Session.withVars, Machine.withVars]
      rw [Search.locate, h.directories?, ← Search.locate]
  · split
    · exact bind (ask fun _ _ _ => rfl) fun _ => pure _
    · exact composes.locate (fun _ => ask fun m vars _ => find_withVars m vars _ _) _ _

theorem selfCheck_overlooks (hl : launcher.Overlooks) : (f.selfCheck launcher).Overlooks :=
  composes.selfCheck (Invocation.run_overlooks hl _ _)

theorem establish_overlooks (hl : launcher.Overlooks) (c : Configuration) :
    (establish launcher (some c)).Overlooks :=
  composes.establish findNode_overlooks (fun _ _ => get (fun _ _ _ => rfl) fun _ => pure _)
    (selfCheck_overlooks · hl) c

end Frontend

-- ---------------------------------------------------------------------------
-- The command line
-- ---------------------------------------------------------------------------

theorem Machine.makeDirectoriesIn_withVars (m : Machine) (vars : Variables) (fuel : Nat) (p : Path)
    (fs : Files) : (m.withVars vars).makeDirectoriesIn fuel p fs = m.makeDirectoriesIn fuel p fs := by
  induction fuel generalizing p fs with
  | zero => rfl
  | succ fuel ih =>
    simp only [makeDirectoriesIn, ih]
    rfl

theorem Log.setup_withVars (h : AgreeApart m.vars vars) (request : Log.Request) (log : Log) :
    Log.setup (m.withVars vars) request log = Log.setup m request log := by
  have hopened (p : Option Path) (log : Log) :
      Log.setup.opened (m.withVars vars) request log p = Log.setup.opened m request log p := by
    cases p with
    | none => rfl
    | some p =>
      simp only [Log.setup.opened, Log.makeRoom, Machine.makeDirectories,
        Machine.makeDirectoriesIn_withVars]
      rfl
  have hfile : Configuration.value? (m.withVars vars).vars Log.fileVariable =
      Configuration.value? m.vars Log.fileVariable := h.value? (by decide) (by decide)
  simp only [Log.setup, hopened, hfile]
  rfl

namespace CommandLine

theorem setUpLog_overlooks (request : Log.Request) : (setUpLog request).Overlooks := by
  refine of_run (fun s vars h => ?_) fun s => ?_
  · have hsetup := Log.setup_withVars h request s.log
    rw [run_setUpLog, run_setUpLog]
    dsimp only [Session.withVars]
    rw [hsetup]
    rfl
  · rw [run_setUpLog]
    rfl

theorem report_overlooks (message : Text) : (report message).Overlooks := print _

/-- A configuration file that the command line names. -/
theorem configurationOf_overlooks {settings : Settings}
    (hs : settings.configuration = some (c :: rest)) : (configurationOf settings).Overlooks := by
  rw [configurationOf, hs]
  refine bind (Frontend.loadConfiguration_overlooks _) fun c => ?_
  split <;> exact pure _

variable {settings : Settings}

theorem frontend?_overlooks (hl : launcher.Overlooks)
    (hc : (configurationOf settings).Overlooks) : (frontend? launcher settings).Overlooks := by
  refine bind (attempt (bind hc fun c => Frontend.establish_overlooks hl c)) fun attempted => ?_
  split
  · exact pure _
  · split
    · exact bind (report_overlooks _) fun _ => pure _
    · exact bind (report_overlooks _) fun _ => get (fun _ _ _ => rfl) fun _ =>
        bind (report_overlooks _) fun _ => pure _
    · exact throw _

theorem check_overlooks (hl : launcher.Overlooks) (hc : (configurationOf settings).Overlooks) :
    (check launcher settings).Overlooks := by
  refine bind (setUpLog_overlooks _) fun _ => bind (frontend?_overlooks hl hc) fun found => ?_
  split
  · exact pure _
  · exact bind (get (fun _ _ _ => rfl) fun _ => bind (Frontend.schema_overlooks _) fun _ => pure _)
      fun _ => pure _

theorem attemptInput_overlooks {act : Act Text} (h : act.Overlooks) (input : Text) :
    (attemptInput input act).Overlooks := by
  refine bind (attempt h) fun outcome => ?_
  split
  · exact pure _
  · split
    · exact throw _
    · exact bind (print _) fun _ => pure _

theorem parseInputs_overlooks (hl : launcher.Overlooks) (f : Frontend) (files : List Text) :
    (parseInputs launcher f settings files).Overlooks := by
  have hfile (file : Text) :
      (attemptInput file (parseFile launcher f settings.format file)).Overlooks :=
    attemptInput_overlooks (bind (Frontend.parse_overlooks f hl file) fun _ =>
      bind (ofExcept _ _) fun _ => bind (tell _ _ _) fun _ => pure _) file
  refine bind ?_ fun outcomes => ?_
  · induction files with
    | nil => exact pure _
    | cons file rest ih =>
      rw [List.mapM_cons]
      exact bind (hfile file) fun _ => bind ih fun _ => pure _
  · split
    · exact pure _
    · exact bind (attemptInput_overlooks (bind (Frontend.parseSource_overlooks f hl _ _) fun _ =>
        pure _) _) fun _ => pure _

theorem parse_overlooks (hl : launcher.Overlooks) (hc : (configurationOf settings).Overlooks)
    (files : List Text) : (parse launcher settings files).Overlooks := by
  refine bind (setUpLog_overlooks _) fun _ => ?_
  split
  · exact bind (report_overlooks _) fun _ => pure _
  · refine bind (frontend?_overlooks hl hc) fun found => ?_
    split
    · exact pure _
    · exact bind (parseInputs_overlooks hl _ _) fun _ => pure _

end CommandLine

end Treewire
