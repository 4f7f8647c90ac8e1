import Treewire.Proofs.Composing

/-!
# Before the schema is needed

A call to parse a file needs the schema last. All that it does before, from the choice of a path to
the removal of the output, takes no notice of the schemas that a session keeps.
-/

namespace Treewire

/-- A session that keeps other schemas. -/
def Session.withSchemas (s : Session) (schemas : SchemaStore) : Session := { s with schemas }

theorem Session.record_withSchemas (s : Session) (schemas : SchemaStore) (r : Log.Record) :
    (s.withSchemas schemas).record r = (s.record r).withSchemas schemas := by
  have hadmits : (s.withSchemas schemas).log.admits r.level = s.log.admits r.level := rfl
  rw [record, record, hadmits]
  cases s.log.admits r.level <;> rfl

namespace Act

/-- An act that takes no notice of the schemas of a session, leaves the log as it is set up, and keeps
to the directory for temporary files that was settled on. -/
structure Blind (act : Act α) : Prop where
  blind : ∀ s schemas, act (s.withSchemas schemas) = ((act s).1, (act s).2.withSchemas schemas)
  log : ∀ s, (act s).2.log = s.log
  settled : ∀ s directory, s.temporary = some directory → (act s).2.temporary = some directory

namespace Blind

theorem schemas {act : Act α} (h : act.Blind) (s : Session) : (act s).2.schemas = s.schemas := by
  have hsame := h.blind s s.schemas
  exact congrArg (fun r => r.2.schemas) hsame

/-- An act that changes nothing, and does not look at schemas. -/
theorem of_outcome {act : Act α} (outcome : Session → Except Failure α)
    (ho : ∀ s schemas, outcome (s.withSchemas schemas) = outcome s)
    (h : ∀ s, act s = (outcome s, s)) : act.Blind where
  blind s schemas := by rw [h, h, ho]
  log s := by rw [h]
  settled s directory hd := by rw [h, hd]

theorem pure (a : α) : (Pure.pure a : Act α).Blind := of_outcome _ (fun _ _ => rfl) fun _ => rfl

theorem throw (e : Failure) : (MonadExcept.throw e : Act α).Blind :=
  of_outcome _ (fun _ _ => rfl) fun _ => rfl

theorem ofExcept (cause : ε → Failure) (x : Except ε α) : (Act.ofExcept cause x).Blind :=
  of_outcome _ (fun _ _ => rfl) fun _ => run_ofExcept cause x

theorem tell (source : String) (level : Log.Level) (message : Text) :
    (Act.tell source level message).Blind where
  blind s schemas := by
    rw [run_tell, run_tell, Session.record_withSchemas]
  log s := (Session.Logged.record s _).log
  settled s directory hd := (Session.Logged.record s _).temporary.trans hd

theorem bind {act : Act α} {next : α → Act β} (ha : act.Blind) (hn : ∀ a, (next a).Blind) :
    (act >>= next).Blind where
  blind s schemas := by
    rw [run_bind, run_bind, ha.blind]
    rcases act s with ⟨e | a, t⟩
    · rfl
    · exact (hn a).blind t schemas
  log s := by
    have hlog := ha.log s
    rw [run_bind]
    generalize act s = r at hlog
    rcases r with ⟨e | a, t⟩
    · exact hlog
    · exact ((hn a).log t).trans hlog
  settled s directory hd := by
    have hsettled := ha.settled s directory hd
    rw [run_bind]
    generalize act s = r at hsettled
    rcases r with ⟨e | a, t⟩
    · exact hsettled
    · exact (hn a).settled t directory hsettled

theorem attempt {act : Act α} (h : act.Blind) : act.attempt.Blind where
  blind s schemas := by rw [run_attempt, run_attempt, h.blind]
  log s := h.log s
  settled s directory hd := h.settled s directory hd

theorem composes : Composes @Act.Blind := ⟨pure, throw, tell, bind, attempt⟩

/-- An act that asks for the session, and uses what is no schema. -/
theorem get {next : Session → Act α}
    (hs : ∀ s schemas, next (s.withSchemas schemas) = next s) (hn : ∀ s, (next s).Blind) :
    (MonadState.get >>= next).Blind where
  blind s schemas := by
    rw [run_bind, run_bind]
    exact (congrFun (hs s schemas) _).trans ((hn s).blind s schemas)
  log s := (hn s).log s
  settled s directory hd := (hn s).settled s directory hd

theorem withFiles (files : Files) : (modify (·.withFiles files) : Act PUnit).Blind :=
  ⟨fun _ _ => rfl, fun _ => rfl, fun _ _ hd => hd⟩

theorem temporaryDirectory : Act.temporaryDirectory.Blind where
  blind s schemas := by
    rw [run_temporaryDirectory, run_temporaryDirectory]
    have hsame : (s.withSchemas schemas).temporary.or
        (s.withSchemas schemas).machine.temporaryDirectory? =
          s.temporary.or s.machine.temporaryDirectory? := rfl
    rw [hsame]
    cases s.temporary.or s.machine.temporaryDirectory? <;> rfl
  log s := by
    rw [run_temporaryDirectory]
    split <;> rfl
  settled s directory hd := by
    rw [run_temporaryDirectory, hd]
    rfl

theorem freshName : Act.freshName.Blind :=
  ⟨fun _ _ => rfl, fun _ => rfl, fun _ _ hd => hd⟩

end Blind

end Act

-- ---------------------------------------------------------------------------
-- Invocations
-- ---------------------------------------------------------------------------

namespace Invocation

open Act.Blind

theorem run_blind (launcher : Launcher) (command : List Text) (limit : Option Duration) :
    (run launcher command limit).Blind := by
  rw [run_eq]
  refine bind (tell _ _ _) fun _ => bind ?_ fun _ => get (fun _ _ => rfl) fun s => ?_
  · exact of_outcome _ (fun _ _ => rfl) fun _ => run_forM_passable
  · exact bind (withFiles _) fun _ => composes.judge command limit _

end Invocation

-- ---------------------------------------------------------------------------
-- Calls
-- ---------------------------------------------------------------------------

namespace Frontend

open Act.Blind

variable (launcher : Launcher) (f : Frontend)

/-- What a call does before it needs the schema: the path of the schema, and the data to decode. -/
def fetch (file : Text) : Act (Text × Bytes) := do
  let schema ← f.schema
  let output ← f.temporaryPath outputEnding
  match ← (f.produce launcher schema output file).attempt with
  | .error failure =>
    discardOutput output
    throw failure
  | .ok data =>
    removeOutput output
    return (schema.toText, data)

theorem parse_eq (file : Text) : f.parse launcher file = (do
    let (path, data) ← f.fetch launcher file
    Act.decodeTree data path) := by
  rw [parse, fetch, bind_assoc]
  refine bind_congr fun schema => ?_
  rw [bind_assoc]
  refine bind_congr fun output => ?_
  rw [bind_assoc]
  refine bind_congr fun made => ?_
  cases made with
  | error failure =>
    dsimp only
    rw [bind_assoc]
    rfl
  | ok data =>
    dsimp only
    rw [bind_assoc]
    rfl

theorem schema_blind : f.schema.Blind := get (fun _ _ => rfl) fun _ => pure _

theorem temporaryPath_blind (ending : Text) : (f.temporaryPath ending).Blind :=
  composes.temporaryPath temporaryDirectory freshName ending

theorem readOutput_blind (output : Path) : (readOutput output).Blind :=
  get (fun _ _ => rfl) fun _ => ofExcept _ _

theorem removeOutput_blind (output : Path) : (removeOutput output).Blind where
  blind s schemas := by
    have hm : (s.withSchemas schemas).machine = s.machine := rfl
    rw [run_removeOutput, run_removeOutput, hm]
    cases s.machine.files.unlink s.machine.here output.toString <;> rfl
  log s := by
    rw [run_removeOutput]
    split <;> rfl
  settled s directory hd := by
    rw [run_removeOutput]
    split <;> exact hd

theorem discardOutput_blind (output : Path) : (discardOutput output).Blind where
  blind s schemas := by
    have hm : (s.withSchemas schemas).machine = s.machine := rfl
    rw [run_discardOutput, run_discardOutput, hm]
    split
    · rfl
    · rfl
    · rw [Session.record_withSchemas]
  log s := by
    rw [run_discardOutput]
    split
    · rfl
    · rfl
    · exact (Session.Logged.record s _).log
  settled s directory hd := by
    rw [run_discardOutput]
    split
    · exact hd
    · exact hd
    · exact (Session.Logged.record s _).temporary.trans hd

theorem produce_blind (schema output : Path) (file : Text) :
    (f.produce launcher schema output file).Blind :=
  bind (Invocation.run_blind _ _ _) fun _ => readOutput_blind output

theorem fetch_blind (file : Text) : (f.fetch launcher file).Blind := by
  refine bind (schema_blind f) fun schema => bind (temporaryPath_blind f _) fun output =>
    bind (attempt (produce_blind launcher f schema output file)) fun made => ?_
  cases made with
  | error failure => exact bind (discardOutput_blind output) fun _ => throw _
  | ok data => exact bind (removeOutput_blind output) fun _ => pure _

end Frontend

end Treewire
