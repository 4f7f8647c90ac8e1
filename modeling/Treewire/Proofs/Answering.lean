import Treewire.Proofs.Compiling
import Treewire.Proofs.Judging
import Treewire.Proofs.Printing
import Treewire.Proofs.Rooted
import Treewire.Proofs.RoundTrip
import Treewire.Proofs.Serving

/-!
# What the command answers

The command that parses inputs sets the log up, then a frontend, and then deals with the inputs.
`run_parse` puts these steps together, and `parse_outcome` says what they come to: what is printed,
what is reported, and the status. What is printed in the data format is read as the values of the
trees, document by document. A file whose tree has no statements to count has no answer at all.
-/

namespace Treewire

/-- No octets are a message without any fields. -/
theorem Message.decode?_nil (s : Schema) (t : MessageType) : decode? s t [] = some .empty := by
  have hrecords : Wire.records? [] = some [] := by
    rw [Wire.records?, Wire.items?]
    rfl
  rw [decode?, hrecords]
  rfl

namespace CommandLine

variable {launcher : Launcher} {s t ready : Session} {failure : Failure}

/-- What is printed for the inputs. -/
def outputOf (format : Format) (attempts : List Attempt) : Text :=
  (attempts.filterMap (·.printed? format)).flatten

/-- The status with which the program ends after all inputs. -/
def statusOf (attempts : List Attempt) : Nat := if attempts.all (·.tree?.isSome) then 0 else 1

theorem documents?_outputOf (attempts : List Attempt) :
    (Text.toString? (outputOf .json attempts)).bind Json.documents? =
      some (attempts.filterMap fun a => a.tree?.map Decoded.toJson) := by
  have hprinted : attempts.filterMap (·.printed? .json) =
      (attempts.filterMap (·.tree?)).map (printed .json) := (List.map_filterMap ..).symm
  rw [outputOf, hprinted, documents?_printed, List.map_filterMap]

-- ---------------------------------------------------------------------------
-- The whole command
-- ---------------------------------------------------------------------------

/-- A line on the console after the program's name. -/
def line (message : Text) : Text := Text.ofString "jsast: " ++ message ++ [.scalar '\n']

/-- Sets a frontend up. -/
def setUp (launcher : Launcher) (settings : Settings) : Act Frontend := do
  Frontend.establish launcher (some (← configurationOf settings))

/-- What is said when there is no frontend: a line that blames the configuration, or one that says
what is missing and one that says what to do. -/
def excuse? (bundle : Path) (failure : Failure) : Option Text :=
  match failure, failure.message? with
  | .configuration _, some message => some (line (Text.ofString "configuration error: " ++ message))
  | .unavailable reason _, some message => some (line message ++ line (hint bundle reason))
  | _, _ => none

/-- Only a configuration that is to blame, and tools that are not there, are an excuse. -/
theorem excuse?_isSome (bundle : Path) (failure : Failure) : (excuse? bundle failure).isSome ↔
    failure.blamesConfiguration = true ∨ ∃ reason detail, failure = .unavailable reason detail := by
  unfold excuse?
  cases failure with
  | configuration fault =>
    dsimp only [Failure.message?, Failure.blamesConfiguration]
    cases fault.message? <;> simp
  | unavailable reason detail => simp [Failure.message?]
  | _ => simp [Failure.blamesConfiguration]

theorem configurationOf_murmurs (settings : Settings) : (configurationOf settings).Murmurs := by
  rw [configurationOf]
  dsimp only
  split
  · refine .bind (Frontend.loadConfiguration_murmurs _) fun c => ?_
    split <;> exact .pure _
  · refine .bind .get fun _ => .bind (Frontend.defaultConfiguration_murmurs _) fun c => ?_
    split <;> exact .pure _

theorem setUp_murmurs (launcher : Launcher) (settings : Settings) :
    (setUp launcher settings).Murmurs :=
  .bind (configurationOf_murmurs settings) fun c => Frontend.establish_murmurs launcher c

theorem run_frontend? (settings : Settings) : frontend? launcher settings s =
    match setUp launcher settings s with
    | (.ok f, t) => (.ok (some f), t)
    | (.error failure, t) =>
      match excuse? t.bundle failure with
      | some lines => (.ok none, t.showing lines)
      | none => (.error failure, t) := by
  have hattempt : (setUp launcher settings).attempt s =
      (.ok (setUp launcher settings s).1, (setUp launcher settings s).2) := Act.run_attempt ..
  rw [frontend?, Act.run_bind, ← setUp, hattempt]
  dsimp only
  rcases setUp launcher settings s with ⟨failure | f, t⟩
  · cases failure with
    | configuration fault =>
      unfold excuse?
      dsimp only
      cases (Failure.configuration fault).message? <;> rfl
    | unavailable reason detail =>
      have htwo (first more : Text) : (t.showing first).showing more = t.showing (first ++ more) :=
        congrArg (fun console => { t with console }) (List.append_assoc ..)
      exact congrArg (Prod.mk _) (htwo _ _)
    | _ => rfl
  · rfl

theorem inputs_eq_nil {settings : Settings} {files : List Text} :
    settings.inputs files = [] ↔ (files.isEmpty && settings.code.isNone) = true := by
  simp [Settings.inputs]

theorem run_setUpLog (request : Log.Request) : setUpLog request s =
    ((Log.setup s.machine request s.log).1.mapError logFailure,
      { s.withFiles (Log.setup s.machine request s.log).2.2 with
        log := (Log.setup s.machine request s.log).2.1 }) := by
  rw [setUpLog, Act.run_bind, Act.run_get]
  exact Act.run_ofExcept ..

theorem setUpLog_console {request : Log.Request} {outcome : Except Failure Unit}
    (h : setUpLog request s = (outcome, t)) : t.console = s.console := by
  rw [run_setUpLog] at h
  rw [← (Prod.mk.inj h).2]
  rfl

/-- A log for which no file is wanted can be set up. -/
theorem setUpLog_plain (level : Log.Level)
    (hv : Configuration.value? s.machine.vars Log.fileVariable = none) :
    setUpLog ⟨level.name, none, none, none⟩ s =
      (.ok ⟨⟩, { s with log := ⟨level, [⟨.console, .warning, Log.usualLayout⟩]⟩ }) := by
  have hwarning := Log.Level.ofName?_name .warning
  rw [Log.Level.name] at hwarning
  have hsetup : Log.setup s.machine ⟨level.name, none, none, none⟩ s.log =
      (.ok (), ⟨level, [⟨.console, .warning, Log.usualLayout⟩]⟩, s.machine.files) := by
    rw [Log.setup]
    dsimp only
    rw [Log.Level.ofName?_name, hv]
    dsimp only [Option.map_none, Option.or_none, Log.setup.opened]
    rw [hwarning]
    rfl
  rw [run_setUpLog, hsetup]
  rfl

/-- The whole command, step by step. -/
theorem run_parse (launcher : Launcher) (settings : Settings) (files : List Text)
    (hl : setUpLog ⟨settings.level.name, none, none, none⟩ s = (.ok ⟨⟩, ready)) :
    parse launcher settings files s = if settings.inputs files = [] then
      (.ok (.done 2 (.text [])), ready.showing
        (line (Text.ofString "nothing to parse (give FILE arguments or -e CODE)")))
    else match setUp launcher settings ready with
      | (.error failure, t) =>
        match excuse? t.bundle failure with
        | some lines => (.ok (.done 1 (.text [])), t.showing lines)
        | none => (.error failure, t)
      | (.ok f, t) =>
        match (settings.inputs files).mapM (attemptOne launcher f settings.format) t with
        | (.error failure, u) => (.error failure, u)
        | (.ok outcomes, u) =>
          (.ok (.done (if outcomes.all Option.isSome then 0 else 1)
            (.text (outcomes.filterMap id).flatten)), u) := by
  rw [parse, Act.run_bind, hl]
  dsimp only
  by_cases hi : settings.inputs files = []
  · rw [if_pos hi, if_pos (inputs_eq_nil.mp hi)]
    rfl
  · rw [if_neg hi, if_neg fun h => hi (inputs_eq_nil.mpr h), Act.run_bind, run_frontend?]
    rcases setUp launcher settings ready with ⟨failure | f, t⟩
    · dsimp only
      cases excuse? t.bundle failure <;> rfl
    · dsimp only
      rw [Act.run_bind, parseInputs_eq]
      rcases (settings.inputs files).mapM (attemptOne launcher f settings.format) t with
        ⟨failure | outcomes, u⟩ <;> rfl

/-- What the command does once its log is set up. Without any inputs it says so, and that is all.
Without a frontend it says why, if the configuration or the tools are to blame. With one it deals
with the inputs in their order, up to the first at which everything stops: it prints the trees of
those that were parsed, and reports the failures of the others between lines of the log. -/
theorem parse_outcome (launcher : Launcher) (settings : Settings) (files : List Text)
    (hl : setUpLog ⟨settings.level.name, none, none, none⟩ s = (.ok ⟨⟩, ready)) :
    ready.console = s.console ∧
    (settings.inputs files = [] →
      parse launcher settings files s = (.ok (.done 2 (.text [])), ready.showing
        (line (Text.ofString "nothing to parse (give FILE arguments or -e CODE)")))) ∧
    (settings.inputs files ≠ [] →
      (∃ rs, ready.Murmured (setUp launcher settings ready).2 rs) ∧
      (∀ failure t, setUp launcher settings ready = (.error failure, t) →
        parse launcher settings files s = match excuse? t.bundle failure with
          | some lines => (.ok (.done 1 (.text [])), t.showing lines)
          | none => (.error failure, t)) ∧
      ∀ f t, setUp launcher settings ready = (.ok f, t) →
        ∃ attempts u, Attempts launcher f t attempts u ∧
          (∃ told : List (List Log.Record), told.length = attempts.length ∧
            u.console = t.console ++ (List.zipWith (fun rs a =>
              rs.flatMap t.log.shown ++ a.complaint) told attempts).flatten) ∧
          (settings.inputs files = attempts.map (·.input) ∧
              parse launcher settings files s = (.ok (.done (statusOf attempts)
                (.text (outputOf settings.format attempts))), u) ∧
              (settings.format = .json →
                (Text.toString? (outputOf settings.format attempts)).bind Json.documents? =
                  some (attempts.filterMap fun a => a.tree?.map Decoded.toJson)) ∨
            ∃ input rest failure v,
              settings.inputs files = attempts.map (·.input) ++ input :: rest ∧
              Stops launcher f u input failure v ∧
              parse launcher settings files s = (.error failure, v))) := by
  have hrun := run_parse launcher settings files hl
  refine ⟨setUpLog_console hl, fun hi => by rw [hrun, if_pos hi], fun hi => ?_⟩
  rw [if_neg hi] at hrun
  refine ⟨setUp_murmurs launcher settings ready, fun failure t hs => ?_, fun f t hs => ?_⟩
  · rw [hrun, hs]
    rfl
  rw [hs] at hrun
  dsimp only at hrun
  obtain ⟨attempts, u, hall, hend⟩ :=
    run_attempts launcher f settings.format (settings.inputs files) t
  obtain ⟨told, hlength, -, -, hconsole⟩ := hall.heard
  refine ⟨attempts, u, hall, ⟨told, hlength, hconsole⟩, ?_⟩
  rw [hrun]
  rcases hend with ⟨hinputs, hend⟩ | ⟨input, rest, failure, v, hinputs, hstop, hend⟩
  · rw [hend]
    refine .inl ⟨hinputs, ?_, fun hf => ?_⟩
    · simp [statusOf, outputOf, Attempt.printed?]
    · rw [hf]
      exact documents?_outputOf attempts
  · rw [hend]
    exact .inr ⟨input, rest, failure, v, hinputs, hstop, rfl⟩

-- ---------------------------------------------------------------------------
-- A script that cannot parse one file
-- ---------------------------------------------------------------------------

/-- What the script makes of its arguments: of `bad.js` an error, of any other file an empty tree,
and without any file nothing. -/
def choose (m : Machine) : List String → Finish × Files
  | [_, _, _, file, output] =>
    if file = "bad.js" then (.exited 1 (Utf8.encodeString "SyntaxError"), m.files)
    else (.exited 0 [], m.files.put [String.ofList output.toList.tail] (.file [] Files.usualMode))
  | _ => (.exited 0 [], m.files)

def choosing : Launcher :=
  ⟨choose, fun _ m arguments => (.finished (choose m arguments).1, (choose m arguments).2)⟩

theorem choose_bad (m : Machine) (node script schema output : String) :
    choose m [node, script, schema, "bad.js", output] =
      (.exited 1 (Utf8.encodeString "SyntaxError"), m.files) := rfl

theorem choose_other (m : Machine) (node script schema output : String) (hf : file ≠ "bad.js") :
    choose m [node, script, schema, file, output] =
      (.exited 0 [],
        m.files.put [String.ofList output.toList.tail] (.file [] Files.usualMode)) :=
  if_neg hf

/-- A session with a runtime that a variable names, in which some schema is known as the one that
comes with the program, and some names were given out. -/
def stocked (schema : Schema) (serial : Nat) : Session :=
  { Session.start { (default : Machine) with
      files := ⟨[(["node"], .file [] 0o755), (["ast.proto"], .file [] Files.usualMode)]⟩
      vars := [(Configuration.nodeVariable, "/node")]
      serial } (Path.ofString "/") with
    schemas := [(["ast.proto"], schema)]
    temporary := some ⟨.single, []⟩ }

/-- The same session once its log is set up and something was reported. -/
def logged (schema : Schema) (serial : Nat) (console : Text) : Session :=
  { stocked schema serial with
    log := ⟨.warning, [⟨.console, .warning, Log.usualLayout⟩]⟩
    console }

/-- The frontend that is set up there. -/
def chooser : Frontend :=
  ⟨Frontend.naming Configuration.defaultTimeout, Path.ofString "/node", Path.ofString "/parser.js"⟩

def schemaPath : Path := Path.ofString "/ast.proto"

/-- Where a call looks for its output. -/
def output (serial : Nat) : Path := Frontend.fileIn ⟨.single, []⟩ serial Frontend.outputEnding

def outputName (serial : Nat) : String := String.ofList (Frontend.outputName serial)

variable (schema : Schema) (serial : Nat) (console : Text)

/-- The session in which the script left its output. -/
def filled : Session :=
  let s := logged schema serial console
  s.withFiles (s.machine.files.put [outputName 1] (.file [] Files.usualMode))

theorem setUpLog_stocked : setUpLog ⟨"WARNING", none, none, none⟩ (stocked schema serial) =
    (.ok ⟨⟩, logged schema serial []) :=
  setUpLog_plain .warning rfl

theorem setUp_logged : setUp choosing {} (logged schema serial console) =
    (.ok chooser, logged schema serial console) := by
  have hconfiguration : configurationOf {} (logged schema serial console) =
      (.ok (Frontend.naming Configuration.defaultTimeout), logged schema serial console) := rfl
  rw [setUp, Act.run_bind, hconfiguration]
  dsimp only
  rw [Frontend.establish]
  dsimp only
  rw [Act.run_bind, Act.run_pure]
  dsimp only
  rw [Act.run_bind, Frontend.findNode_naming _ rfl]
  rfl

/-- The command by which a file is parsed. -/
def command (file : String) (serial : Nat) : List Text :=
  chooser.command schemaPath (output serial) (Text.ofString file)

theorem command_lossy (file : String) : (command file serial).map Text.toStringLossy =
    ["/node", "/parser.js", "/ast.proto", file,
      String.ofList ('/' :: Frontend.outputName serial)] := by
  have hnode : (Path.ofString "/node").toText.toStringLossy = "/node" := by rfl
  have hscript : (Path.ofString "/parser.js").toText.toStringLossy = "/parser.js" := by rfl
  have hschema : schemaPath.toText.toStringLossy = "/ast.proto" := by rfl
  have hfile : (Text.ofString file).toStringLossy = file := Text.toStringLossy_ofString file
  have houtput : (output serial).toText.toStringLossy =
      String.ofList ('/' :: Frontend.outputName serial) := Frontend.fileIn_toString _ serial
  simp only [command, Frontend.command, chooser, List.map_cons, List.map_nil, hnode, hscript,
    hschema, hfile, houtput]

/-- The script is given as much time as it needs. -/
theorem run_command (hf : Invocation.fault? (command file serial) = none)
    (ho : choose (logged schema n console).machine ["/node", "/parser.js", "/ast.proto", file,
      String.ofList ('/' :: Frontend.outputName serial)] = (finish, files)) :
    chooser.runScript choosing [schemaPath.toText, Text.ofString file, (output serial).toText]
        (logged schema n console) =
      Invocation.conclude (command file serial) finish
        ((logged schema n console).withFiles files) := by
  have hobey : choosing.obey chooser.configuration.timeout (logged schema n console).machine
      ((command file serial).map Text.toStringLossy) = (.finished finish, files) := by
    rw [command_lossy]
    exact congrArg (fun made => (LimitedFinish.finished made.1, made.2)) ho
  have hlimit (d : Duration) (hd : chooser.configuration.timeout = some d) :
      ∃ n, Invocation.watch d = .counts n := by
    cases hd
    exact ⟨_, rfl⟩
  exact Invocation.run_finished rfl hf hlimit hobey

theorem temporaryPath_logged :
    chooser.temporaryPath Frontend.outputEnding (logged schema serial console) =
      (.ok (output serial), logged schema (serial + 1) console) := by
  rw [Frontend.run_temporaryPath]
  rfl

/-- The failure of the file that cannot be parsed. -/
def mistake : Failure := .failed (Text.ofString "SyntaxError") (some 1)

theorem get?_logged : (logged schema serial console).machine.files.get? [outputName n] = none := by
  have hne (text : String) (h : text.toList.length < 46) : ([outputName n] == [text]) = false :=
    beq_eq_false_iff_ne.mpr fun he =>
      Frontend.outputString_ne n h (List.singleton_inj.mp he)
  have hentries : (logged schema serial console).machine.files.entries =
      [(["node"], .file [] 0o755), (["ast.proto"], .file [] Files.usualMode)] := rfl
  rw [Files.get?, if_neg (by simp), hentries, List.lookup_cons, hne _ (by decide), List.lookup_cons,
    hne _ (by decide), List.lookup_nil]

theorem unlink_output (fs : Files) (here : Location) : fs.unlink here (output n).toString =
    match fs.get? [outputName n] with
    | some .directory => .error .isDirectory
    | some _ => .ok (fs.erase [outputName n])
    | none => .error .noEntry := by
  have hresolve : fs.resolve here false (output n).toString = .ok [outputName n] :=
    (Files.rooted_fileIn n).resolve (by simp)
  have hunlink := fs.unlink_eq here (output n).toString
  rw [hresolve] at hunlink
  exact hunlink

theorem parse_bad : chooser.parse choosing (Text.ofString "bad.js") (logged schema 0 console) =
    (.error mistake, logged schema 1 console) := by
  have hproduce : chooser.produce choosing schemaPath (output 0) (Text.ofString "bad.js")
      (logged schema 1 console) = (.error mistake, logged schema 1 console) := by
    rw [Frontend.produce, Act.run_bind, run_command schema 0 console (by rfl) (choose_bad ..),
      Invocation.conclude, Invocation.outputText_encodeString]
    rfl
  have hdiscard : Frontend.discardOutput (output 0) (logged schema 1 console) =
      (.ok ⟨⟩, logged schema 1 console) := by
    rw [Frontend.run_discardOutput, unlink_output, get?_logged]
  have hschema : chooser.schemaIn (logged schema 0 console) = schemaPath := rfl
  rw [Frontend.run_parse _ (temporaryPath_logged schema 0 console), hschema, hproduce]
  dsimp only
  rw [Act.run_bind, hdiscard]
  rfl

theorem get?_filled : (filled schema serial console).machine.files.get? [outputName 1] =
    some (.file [] Files.usualMode) :=
  (Files.get?_put _ (by simp)).trans (if_pos rfl)

theorem produce_good : chooser.produce choosing schemaPath (output 1) (Text.ofString "good.js")
    (logged schema 2 console) = (.ok [], filled schema 2 console) := by
  have hrun := run_command schema 1 console (n := 2) (by rfl)
    (choose_other _ _ _ _ _ (by decide : "good.js" ≠ "bad.js"))
  rw [String.toList_ofList, List.tail_cons] at hrun
  have hconclude : Invocation.conclude (command "good.js" 1) (.exited 0 [])
      (filled schema 2 console) = (.ok (Invocation.outputText []), filled schema 2 console) := rfl
  have hstat : (filled schema 2 console).machine.files.stat
      (filled schema 2 console).machine.here (output 1).toString =
        .ok ([outputName 1], .file [] Files.usualMode) :=
    (Files.rooted_fileIn 1).stat (get?_filled ..) (by simp)
  rw [Frontend.produce, Act.run_bind, hrun, ← outputName]
  rw [filled] at hconclude hstat ⊢
  rw [hconclude]
  dsimp only
  rw [Frontend.run_readOutput, Files.read, hstat]
  rfl

theorem removeOutput_filled : Frontend.removeOutput (output 1) (filled schema serial console) =
    (.ok ⟨⟩, logged schema serial console) := by
  rw [Frontend.run_removeOutput, unlink_output, get?_filled]
  exact congrArg
    (fun files => (Except.ok PUnit.unit, (logged schema serial console).withFiles files))
    (Files.erase_put _ (get?_logged schema serial console))

theorem decodeTree_logged (ht : schema.message? Schema.treeMessage = some type) :
    Act.decodeTree [] schemaPath.toText (logged schema serial console) =
      (.ok ⟨schema, type, .empty⟩, logged schema serial console) := by
  have hrooted : Files.Rooted (Path.ofText schemaPath.toText).toString "ast.proto" :=
    ⟨by decide, by decide, rfl, rfl, by decide, by decide⟩
  have hentry : (logged schema serial console).machine.files.get? ["ast.proto"] =
      some (.file [] Files.usualMode) := rfl
  have hload : Act.loadSchema schemaPath.toText (logged schema serial console) =
      (.ok schema, logged schema serial console) :=
    Act.run_loadSchema_known (hrooted.canonical? hentry (by simp)) rfl
  have hmessage : Act.messageIn schemaPath.toText Schema.treeMessage schema =
      .ok (schema, type) := by
    rw [Act.messageIn, ht]
  rw [Act.decodeTree, Act.run_bind, Act.run_loadMessageType, hload]
  dsimp only [Except.bind]
  rw [hmessage]
  dsimp only
  rw [Message.decode?_nil]
  rfl

theorem parse_good (ht : schema.message? Schema.treeMessage = some type) :
    chooser.parse choosing (Text.ofString "good.js") (logged schema 1 console) =
      (.ok ⟨schema, type, .empty⟩, logged schema 2 console) := by
  have hschema : chooser.schemaIn (logged schema 1 console) = schemaPath := rfl
  rw [Frontend.run_parse _ (temporaryPath_logged schema 1 console), hschema, produce_good]
  dsimp only
  rw [Act.run_bind, removeOutput_filled]
  exact decodeTree_logged schema 2 console ht

/-- Of two files the first cannot be parsed. That is reported, and the tree of the second is printed
all the same. -/
theorem mistake_outcome :
    setUpLog ⟨"WARNING", none, none, none⟩ (stocked Schema.bundled 0) =
      (.ok ⟨⟩, logged Schema.bundled 0 []) ∧
    parse choosing {} [Text.ofString "bad.js", Text.ofString "good.js"] (stocked Schema.bundled 0) =
      (.ok (.done 1 (.text (Text.ofString "\x7b\x7d\n"))),
        logged Schema.bundled 2 (Text.ofString "bad.js: SyntaxError\n")) := by
  have hl := setUpLog_stocked Schema.bundled 0
  refine ⟨hl, ?_⟩
  have hne : ({} : Settings).inputs [Text.ofString "bad.js", Text.ofString "good.js"] ≠ [] := by
    simp [Settings.inputs]
  obtain ⟨-, -, hall⟩ := parse_outcome choosing {}
    [Text.ofString "bad.js", Text.ofString "good.js"] hl
  obtain ⟨attempts, u, hattempts, -, hend⟩ := (hall hne).2.2 chooser _ (setUp_logged _ 0 [])
  have hcalls : Attempts choosing chooser (logged Schema.bundled 0 [])
      [⟨.file (Text.ofString "bad.js"), .error mistake⟩,
        ⟨.file (Text.ofString "good.js"), .ok ⟨Schema.bundled, Schema.Bundled.ast, .empty⟩⟩]
      (logged Schema.bundled 2 (Text.ofString "bad.js: SyntaxError\n")) :=
    .next (.failed (parse_bad ..) rfl)
      (.next (.parsed (parse_good _ _ bundled_ast) rfl) (.none _))
  rcases hend with ⟨hinputs, hrun, -⟩ | ⟨input, rest, failure, v, hinputs, hstops, -⟩
  · obtain ⟨rfl, rfl⟩ := (hcalls.determined hattempts).1 hinputs
    rw [hrun]
    rfl
  · exact absurd hstops ((hcalls.determined hattempts).2 _ _ _ _ hinputs)

/-- A schema whose trees have no statements. -/
def namesOnly : Schema :=
  ⟨[⟨Schema.treeMessage, [⟨1, "name", .scalar .string, .implicit, none, none⟩], [], false⟩], []⟩

/-- Inputs may all have calls that end as they should, and yet have no answer: the statements of a
file are counted even though nothing needs to know how many there are. -/
theorem counting_spoils :
    ¬∀ (launcher : Launcher) (settings : Settings) (files : List Text) (s ready : Session)
      (f : Frontend) (t : Session),
      setUpLog ⟨settings.level.name, none, none, none⟩ s = (.ok ⟨⟩, ready) →
      setUp launcher settings ready = (.ok f, t) →
      (∀ attempts u input rest, Attempts launcher f t attempts u →
        settings.inputs files = attempts.map (·.input) ++ input :: rest →
        (∃ tree, (input.call launcher f u).1 = .ok tree) ∨
          ∃ failure, (input.call launcher f u).1 = .error failure ∧ failure.message?.isSome) →
      ∃ answer, (parse launcher settings files s).1 = .ok answer := by
  intro h
  have hl := setUpLog_stocked namesOnly 1
  have hs := setUp_logged namesOnly 1 []
  have hcall := parse_good namesOnly [] rfl
  have hsound (attempts : List Attempt) (u : Session) (input : Input) (rest : List Input)
      (hall : Attempts choosing chooser (logged namesOnly 1 []) attempts u)
      (hi : ({} : Settings).inputs [Text.ofString "good.js"] =
        attempts.map (·.input) ++ input :: rest) :
      ∃ tree, (input.call choosing chooser u).1 = .ok tree := by
    cases hall with
    | none =>
      cases hi
      exact ⟨_, congrArg Prod.fst hcall⟩
    | next first more => simp [Settings.inputs] at hi
  obtain ⟨answer, hanswer⟩ := h choosing {} [Text.ofString "good.js"] _ _ _ _ hl hs
    fun attempts u input rest hall hi => .inl (hsound attempts u input rest hall hi)
  have hstops : Stops choosing chooser (logged namesOnly 1 []) (.file (Text.ofString "good.js"))
      (.noStatements true) (logged namesOnly 2 []) := .count hcall rfl
  have hinputs : ({} : Settings).inputs [Text.ofString "good.js"] =
      ([] : List Attempt).map (·.input) ++ [.file (Text.ofString "good.js")] := rfl
  obtain ⟨e, he⟩ := hstops.fails (.none _) hinputs .json
  rw [run_parse choosing {} _ hl, if_neg (by simp [Settings.inputs]), hs] at hanswer
  dsimp only at hanswer
  generalize List.mapM (attemptOne choosing chooser .json) _ (logged namesOnly 1 []) = made
    at he hanswer
  obtain ⟨outcome, u⟩ := made
  obtain rfl : outcome = .error e := he
  cases hanswer

end CommandLine

end Treewire
