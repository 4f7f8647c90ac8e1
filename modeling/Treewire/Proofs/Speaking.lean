import Treewire.Proofs.Composing

/-!
# What reaches the console

Setting a frontend up and calling it writes nothing to the console by itself: whatever stands there
afterwards are lines of the log, one piece for each record that the log admitted meanwhile.
-/

namespace Treewire

-- ---------------------------------------------------------------------------
-- Lines
-- ---------------------------------------------------------------------------

namespace Log

/-- What a handler writes to the console for a record. -/
def Handler.shown (h : Handler) (r : Record) : Text :=
  if h.sink = .console ∧ r.level.reaches h.level then (h.line? r).getD [] else []

/-- What a log writes to the console for a record that it admits. -/
def shown (log : Log) (r : Record) : Text := log.handlers.flatMap (·.shown r)

theorem Handler.deliver_snd (h : Handler) (r : Record) (fs : Files) (console : Text) :
    (h.deliver r fs console).2 = console ++ h.shown r := by
  have hsilent : console = console ++ [] := (List.append_nil console).symm
  unfold deliver shown
  by_cases hr : r.level.reaches h.level
  · rw [if_neg (by simp [hr])]
    cases h.line? r with
    | none => simp
    | some line =>
      cases h.sink with
      | console => simp [hr]
      | file loc =>
        dsimp only
        rw [if_neg (by simp), ← hsilent]
        split <;> rfl
  · rw [if_pos (by simp [hr]), if_neg (by simp [hr]), ← hsilent]

theorem deliver_snd (log : Log) (r : Record) (fs : Files) (console : Text) :
    (log.deliver r fs console).2 = console ++ log.shown r := by
  have all (handlers : List Handler) (fs : Files) (console : Text) :
      (deliver ⟨log.level, handlers⟩ r fs console).2 = console ++ handlers.flatMap (·.shown r) := by
    induction handlers generalizing fs console with
    | nil => exact (List.append_nil console).symm
    | cons h rest ih =>
      rw [deliver_cons, ih, Handler.deliver_snd, List.flatMap_cons, List.append_assoc]
  exact all log.handlers fs console

end Log

namespace Session

/-- Some records were admitted by the log, and nothing but their lines reached the console. -/
structure Murmured (s t : Session) (rs : List Log.Record) : Prop where
  log : t.log = s.log
  records : t.records = s.records ++ rs
  console : t.console = s.console ++ rs.flatMap s.log.shown

namespace Murmured

variable {s t u : Session}

theorem of_same (hl : t.log = s.log) (hr : t.records = s.records) (hc : t.console = s.console) :
    Murmured s t [] :=
  ⟨hl, by simpa using hr, by simpa using hc⟩

theorem trans (h : Murmured s t rs) (h' : Murmured t u more) : Murmured s u (rs ++ more) where
  log := h'.log.trans h.log
  records := by rw [h'.records, h.records, List.append_assoc]
  console := by rw [h'.console, h.console, h.log, List.flatMap_append, List.append_assoc]

/-- The records that a session is given, as far as the log admits them. -/
theorem record (s : Session) (r : Log.Record) : Murmured s (s.record r)
    (if s.log.admits r.level then [r] else []) := by
  unfold Session.record
  by_cases h : s.log.admits r.level = true
  · rw [if_pos h, if_pos h]
    exact ⟨rfl, rfl, by simpa using Log.deliver_snd s.log r s.machine.files s.console⟩
  · rw [if_neg h, if_neg h]
    exact of_same rfl rfl rfl

theorem told (s : Session) (rs : List Log.Record) :
    ∃ admitted, Murmured s (s.told rs) admitted := by
  induction rs generalizing s with
  | nil => exact ⟨[], of_same rfl rfl rfl⟩
  | cons r rest ih =>
    obtain ⟨admitted, h⟩ := ih (s.record r)
    exact ⟨_, (record s r).trans h⟩

end Murmured

end Session

-- ---------------------------------------------------------------------------
-- Acts that write to the console by the log only
-- ---------------------------------------------------------------------------

namespace Act

/-- An act that leaves the log as it is set up, and writes to the console by the log only. -/
def Murmurs (act : Act α) : Prop := ∀ s : Session, ∃ rs, s.Murmured (act s).2 rs

namespace Murmurs

/-- An act that changes nothing about log and console. -/
theorem of_same {act : Act α} (h : ∀ s, (act s).2.log = s.log ∧ (act s).2.records = s.records ∧
    (act s).2.console = s.console) : act.Murmurs :=
  fun s => ⟨[], .of_same (h s).1 (h s).2.1 (h s).2.2⟩

theorem of_speaks {act : Act α} (h : act.Speaks outcome) : act.Murmurs := by
  intro s
  obtain ⟨rs, -, hrun⟩ := h s
  rw [hrun]
  exact Session.Murmured.told s rs

theorem pure (a : α) : (Pure.pure a : Act α).Murmurs := of_same fun _ => ⟨rfl, rfl, rfl⟩

theorem throw (e : Failure) : (MonadExcept.throw e : Act α).Murmurs :=
  of_same fun _ => ⟨rfl, rfl, rfl⟩

theorem get : (MonadState.get : Act Session).Murmurs := of_same fun _ => ⟨rfl, rfl, rfl⟩

theorem ofExcept (cause : ε → Failure) (x : Except ε α) : (Act.ofExcept cause x).Murmurs :=
  of_same fun s => by rw [run_ofExcept]; exact ⟨rfl, rfl, rfl⟩

theorem ask (question : Machine → Except FileError α) : (Act.ask question).Murmurs :=
  of_same fun s => by rw [run_ask]; exact ⟨rfl, rfl, rfl⟩

theorem withFiles (files : Files) : (modify (·.withFiles files) : Act PUnit).Murmurs :=
  of_same fun _ => ⟨rfl, rfl, rfl⟩

theorem tell (source : String) (level : Log.Level) (message : Text) :
    (Act.tell source level message).Murmurs :=
  fun s => ⟨_, .record s _⟩

theorem bind {act : Act α} {next : α → Act β} (ha : act.Murmurs) (hn : ∀ a, (next a).Murmurs) :
    (act >>= next).Murmurs := by
  intro s
  obtain ⟨rs, h⟩ := ha s
  rw [run_bind]
  generalize act s = r at h
  rcases r with ⟨e | a, t⟩
  · exact ⟨rs, h⟩
  · obtain ⟨more, h'⟩ := hn a t
    exact ⟨_, h.trans h'⟩

theorem attempt {act : Act α} (h : act.Murmurs) : act.attempt.Murmurs := h

theorem composes : Composes @Act.Murmurs := ⟨pure, throw, tell, bind, attempt⟩

theorem change (operation : Machine → Except FileError Files) : (Act.change operation).Murmurs :=
  bind (ask _) fun _ => withFiles _

theorem temporaryDirectory : Act.temporaryDirectory.Murmurs :=
  of_same fun s => by rw [run_temporaryDirectory]; split <;> exact ⟨rfl, rfl, rfl⟩

theorem freshName : Act.freshName.Murmurs := of_same fun _ => ⟨rfl, rfl, rfl⟩

theorem passable (t : Text) : (Act.passable t).Murmurs :=
  of_same fun s => by rw [Invocation.run_passable]; exact ⟨rfl, rfl, rfl⟩

theorem compile (file : Location) : (Act.compile file).Murmurs := by
  have keep (c : Proto.Compilation) : (do
      Act.tell schemaSource .debug
        (Text.ofString s!"Compiled AST schema {file.path} ({c.fileCount} file(s))")
      modify fun s => { s with schemas := s.schemas.insert file c.schema }
      return c.schema : Act Schema).Murmurs :=
    bind (tell _ _ _) fun _ => bind (of_same fun _ => ⟨rfl, rfl, rfl⟩) fun _ => pure _
  refine bind get fun s => bind (ofExcept _ _) fun _ => bind temporaryDirectory fun _ =>
    bind (ask _) fun _ => bind get fun t => ?_
  dsimp only
  split
  · exact bind (pure _) keep
  · exact bind (ofExcept _ _) keep

theorem loadSchema (path : Text) : (Act.loadSchema path).Murmurs := by
  refine bind get fun s => ?_
  split
  · exact throw _
  · split
    · exact pure _
    · exact compile _

end Murmurs

end Act

theorem Invocation.run_murmurs (launcher : Launcher) (command : List Text)
    (limit : Option Duration) : (run launcher command limit).Murmurs := by
  rw [run_eq]
  refine .bind (.tell _ _ _) fun _ => .bind ?_ fun _ => .bind .get fun s =>
    .bind (.withFiles _) fun _ => ?_
  · exact .of_same fun s => by rw [run_forM_passable]; exact ⟨rfl, rfl, rfl⟩
  · obtain ⟨outcome, h⟩ := judge_speaks command limit
      (launcher.obey limit s.machine (command.map Text.toStringLossy)).1
    exact .of_speaks h

-- ---------------------------------------------------------------------------
-- Frontends
-- ---------------------------------------------------------------------------

namespace Frontend

open Act.Murmurs

variable (launcher : Launcher) (f : Frontend)

theorem temporaryPath_murmurs (ending : Text) : (f.temporaryPath ending).Murmurs :=
  composes.temporaryPath temporaryDirectory freshName ending

theorem removeOutput_murmurs (output : Path) : (removeOutput output).Murmurs :=
  of_same fun s => by rw [run_removeOutput]; split <;> exact ⟨rfl, rfl, rfl⟩

theorem discardOutput_murmurs (output : Path) : (discardOutput output).Murmurs := by
  intro s
  rw [run_discardOutput]
  split
  · exact ⟨[], .of_same rfl rfl rfl⟩
  · exact ⟨[], .of_same rfl rfl rfl⟩
  · exact ⟨_, .record s _⟩

theorem produce_murmurs (schema output : Path) (file : Text) :
    (f.produce launcher schema output file).Murmurs :=
  bind (Invocation.run_murmurs _ _ _) fun _ => bind get fun _ => ofExcept _ _

theorem parse_murmurs (file : Text) : (f.parse launcher file).Murmurs :=
  composes.parse (bind get fun _ => pure _) (temporaryPath_murmurs f _)
    (produce_murmurs launcher f · · file) discardOutput_murmurs removeOutput_murmurs loadSchema

theorem writeSource_murmurs (file : Path) (code : Text) : (writeSource file code).Murmurs :=
  composes.writeSource (passable _) (fun _ => change _) code

theorem run_removeSource (file : Path) (s : Session) : removeSource file s =
    match s.machine.files.unlink s.machine.here file.toString with
    | .ok files => (.ok ⟨⟩, s.withFiles files)
    | .error .noEntry => (.ok ⟨⟩, s)
    | .error e => (.error (.system e), s) := by
  rw [removeSource, Act.run_bind, Act.run_get]
  dsimp only
  rcases s.machine.files.unlink s.machine.here file.toString with e | files
  · cases e <;> rfl
  · rfl

theorem removeSource_murmurs (file : Path) : (removeSource file).Murmurs :=
  of_same fun s => by rw [run_removeSource]; split <;> exact ⟨rfl, rfl, rfl⟩

theorem parseSource_murmurs (code name : Text) : (f.parseSource launcher code name).Murmurs :=
  composes.parseSource code name (temporaryPath_murmurs f) (writeSource_murmurs · code)
    (parse_murmurs launcher f) removeSource_murmurs

-- ---------------------------------------------------------------------------
-- Setting up
-- ---------------------------------------------------------------------------

theorem loadConfiguration_murmurs (file : Path) : (loadConfiguration file).Murmurs :=
  bind (tell _ _ _) fun _ => bind (passable _) fun _ => bind get fun _ => ofExcept _ _

theorem defaultConfiguration_murmurs (vars : Configuration.Variables) :
    (defaultConfiguration vars).Murmurs := by
  unfold defaultConfiguration
  split
  · exact bind (loadConfiguration_murmurs _) fun _ => bind get fun _ => ofExcept _ _
  · exact bind (pure _) fun _ => bind get fun _ => ofExcept _ _

theorem findNode_murmurs (c : Configuration) : (findNode c).Murmurs := by
  refine bind get fun s => ?_
  split
  · exact bind (ask _) fun _ => pure _
  · exact composes.locate (fun _ => ask _) _ _

theorem selfCheck_murmurs : (f.selfCheck launcher).Murmurs :=
  composes.selfCheck (Invocation.run_murmurs _ _ _)

theorem establish_murmurs (c : Configuration) : (establish launcher (some c)).Murmurs :=
  composes.establish findNode_murmurs (fun _ _ => bind get fun _ => pure _)
    (selfCheck_murmurs launcher) c

end Frontend

end Treewire
