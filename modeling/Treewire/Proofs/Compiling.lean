import Treewire.Proofs.Acts

/-!
# Compiling schemas

What the compiler makes of a schema depends on files, on the working directory, and on there being a
directory for temporary files. Only a success is kept; what was kept once is not compiled again.
-/

namespace Treewire

/-- The directory for temporary files: the one settled on, or the first one there is. -/
def Session.room? (s : Session) : Option Path := s.temporary.or s.machine.temporaryDirectory?

theorem Session.room?_settled (s : Session) : { s with temporary := s.room? }.room? = s.room? := by
  rw [room?, room?]
  cases s.temporary with
  | some directory => rfl
  | none =>
    dsimp only [Option.none_or]
    cases s.machine.temporaryDirectory? <;> rfl

/-- What the compiler makes of a schema file. -/
def Session.compilation (s : Session) (file : Location) : Except Failure Proto.Compilation :=
  match checkSchemaFile s.machine.files s.machine.here file with
  | .error fault => .error (.schema fault)
  | .ok _ =>
    match s.room? with
    | none => .error (.system .noEntry)
    | some directory =>
      match s.machine.files.add s.machine.here
          (directory.join (Path.ofString "jsast-schema")).toString .directory with
      | .error e => .error (.system e)
      | .ok _ =>
        if some file = s.machine.files.canonical? s.machine.here s.bundledSchema.toString then
          .ok ⟨Schema.bundled, 1⟩
        else (compileSchema s.machine.files s.machine.here file).mapError .schema

/-- Compiling a schema looks at nothing but files, the working directory, the directory for temporary
files, and where the bundled schema is. -/
theorem Session.compilation_congr {s t : Session} (hf : t.machine.files = s.machine.files)
    (hh : t.machine.here = s.machine.here) (hb : t.bundle = s.bundle) (hr : t.room? = s.room?)
    (file : Location) : t.compilation file = s.compilation file := by
  unfold compilation bundledSchema
  rw [hf, hh, hb, hr]

/-- The session in which a compiler was at work: it settled on a directory for temporary files, once
there was a file to compile. -/
def Session.settled (s : Session) (file : Location) : Session :=
  match checkSchemaFile s.machine.files s.machine.here file with
  | .ok _ => { s with temporary := s.room? }
  | .error _ => s

/-- A store that has no schema of a file yet, with one of it. -/
theorem SchemaStore.lookup_insert {store : SchemaStore} {file : Location}
    (h : store.lookup file = none) (other : Location) (schema : Schema) :
    (store.insert file schema).lookup other =
      (store.lookup other).or (if other = file then some schema else none) := by
  have hone : List.lookup other [(file, schema)] = if other = file then some schema else none := by
    rw [List.lookup_cons, List.lookup_nil]
    by_cases ho : other = file
    · rw [if_pos ho, beq_iff_eq.mpr ho]
    · rw [if_neg ho, beq_eq_false_iff_ne.mpr ho]
  rw [insert, h, Option.isSome_none, if_neg (by decide), lookup_append, hone]

namespace Act

variable {s : Session} {file : Location}

/-- What is told of a schema that was compiled. -/
def compiled (file : Location) (c : Proto.Compilation) : Log.Record :=
  ⟨schemaSource, .debug, Text.ofString s!"Compiled AST schema {file.path} ({c.fileCount} file(s))"⟩

/-- A session that keeps a schema from now on. -/
def kept (file : Location) (c : Proto.Compilation) (s : Session) : Session :=
  let told := s.record (compiled file c)
  { told with schemas := told.schemas.insert file c.schema }

theorem settled_schemas (s : Session) (file : Location) : (s.settled file).schemas = s.schemas := by
  unfold Session.settled
  split <;> rfl

theorem kept_schemas (s : Session) (file : Location) (c : Proto.Compilation) :
    (kept file c s).schemas = s.schemas.insert file c.schema := by
  rw [kept, (Session.Logged.record s (compiled file c)).schemas]

theorem run_compile : compile file s =
    match s.compilation file with
    | .ok c => (.ok c.schema, kept file c (s.settled file))
    | .error e => (.error e, s.settled file) := by
  simp only [compile, run_bind, run_get, run_ofExcept, run_temporaryDirectory, run_ask]
  unfold Session.compilation Session.settled Session.room?
  cases checkSchemaFile s.machine.files s.machine.here file with
  | error e => rfl
  | ok u =>
    dsimp only [Except.mapError]
    cases hroom : s.temporary.or s.machine.temporaryDirectory? with
    | none =>
      have hnone : s.temporary = none := (Option.or_eq_none_iff.mp hroom).1
      exact congrArg (Prod.mk _) (by rw [← hnone])
    | some directory =>
      dsimp only
      cases s.machine.files.add s.machine.here
          (directory.join (Path.ofString "jsast-schema")).toString .directory with
      | error e => rfl
      | ok files =>
        dsimp only
        by_cases hb : some file = s.machine.files.canonical? s.machine.here s.bundledSchema.toString
        · have hb' : some file = s.machine.files.canonical? s.machine.here
              (Session.bundledSchema { s with temporary := some directory }).toString := hb
          rw [if_pos hb, if_pos hb']
          rfl
        · have hb' : ¬some file = s.machine.files.canonical? s.machine.here
              (Session.bundledSchema { s with temporary := some directory }).toString := hb
          rw [if_neg hb, if_neg hb', run_bind, run_ofExcept]
          cases compileSchema s.machine.files s.machine.here file <;> rfl

theorem compile_fst : (compile file s).1 = (s.compilation file).map (·.schema) := by
  rw [run_compile]
  cases s.compilation file <;> rfl

theorem compile_snd_ok (hc : s.compilation file = .ok c) :
    (compile file s).2 = kept file c (s.settled file) := by
  rw [run_compile, hc]

theorem compile_snd_error (hc : s.compilation file = .error e) :
    (compile file s).2 = s.settled file := by
  rw [run_compile, hc]

theorem run_loadSchema (path : Text) : loadSchema path s =
    match s.machine.files.canonical? s.machine.here (Path.ofText path).toString with
    | none => (.error (.schema .endless), s)
    | some file =>
      match s.schemas.lookup file with
      | some schema => (.ok schema, s)
      | none => compile file s := by
  rw [loadSchema, run_bind_ok run_get]
  cases s.machine.files.canonical? s.machine.here (Path.ofText path).toString with
  | none => rfl
  | some file =>
    dsimp only
    cases s.schemas.lookup file <;> rfl

theorem run_loadSchema_nowhere {path : Text}
    (hp : s.machine.files.canonical? s.machine.here (Path.ofText path).toString = none) :
    loadSchema path s = (.error (.schema .endless), s) := by
  rw [run_loadSchema, hp]

theorem run_loadSchema_known {path : Text}
    (hp : s.machine.files.canonical? s.machine.here (Path.ofText path).toString = some file)
    (hl : s.schemas.lookup file = some schema) : loadSchema path s = (.ok schema, s) := by
  rw [run_loadSchema, hp]
  dsimp only
  rw [hl]

theorem run_loadSchema_new {path : Text}
    (hp : s.machine.files.canonical? s.machine.here (Path.ofText path).toString = some file)
    (hl : s.schemas.lookup file = none) : loadSchema path s = compile file s := by
  rw [run_loadSchema, hp]
  dsimp only
  rw [hl]

/-- A message type of a schema, told by the path that led to the schema. -/
def messageIn (path : Text) (name : String) (schema : Schema) :
    Except Failure (Schema × MessageType) :=
  match schema.message? name with
  | some type => .ok (schema, type)
  | none => .error (.schema (.undefined name path))

theorem run_loadMessageType (path : Text) (name : String) : loadMessageType path name s =
    ((loadSchema path s).1.bind (messageIn path name), (loadSchema path s).2) := by
  rw [loadMessageType, run_bind]
  cases loadSchema path s with
  | mk outcome t =>
    cases outcome with
    | error e => rfl
    | ok schema =>
      unfold messageIn
      dsimp only [Except.bind]
      cases schema.message? name <;> rfl

/-- Decoding does no more to a session than loading the schema does. -/
theorem decodeTree_snd (data : Bytes) (path : Text) :
    (decodeTree data path s).2 = (loadSchema path s).2 := by
  rw [decodeTree, run_bind, run_loadMessageType]
  generalize loadSchema path s = loaded
  obtain ⟨outcome, t⟩ := loaded
  dsimp only
  cases outcome.bind (messageIn path Schema.treeMessage) with
  | error e => rfl
  | ok found =>
    dsimp only
    cases Message.decode? found.1 found.2 data <;> rfl

end Act

-- ---------------------------------------------------------------------------
-- Files that are kept
-- ---------------------------------------------------------------------------

/-- No file changed from one session to the other, but for lines added to those of the log. -/
structure Session.KeepsFiles (s s' : Session) : Prop where
  files : Files.Grown s.log.files s.machine.files s'.machine.files
  log : s'.log = s.log
  machine : s'.machine = { s.machine with files := s'.machine.files }

namespace Session.KeepsFiles

variable {s s' s'' : Session}

theorem of_logged (h : Logged s s') : KeepsFiles s s' := by
  refine ⟨h.files, h.log, ?_⟩
  rw [h.rest]

theorem refl (s : Session) : KeepsFiles s s := of_logged (.refl s)

theorem here (h : KeepsFiles s s') : s'.machine.here = s.machine.here := by rw [h.machine]

theorem trans (h : KeepsFiles s s') (h' : KeepsFiles s' s'') : KeepsFiles s s'' := by
  refine ⟨h.files.trans (h.log ▸ h'.files), h'.log.trans h.log, ?_⟩
  rw [h'.machine, h.machine]

theorem settled (s : Session) (file : Location) : KeepsFiles s (s.settled file) := by
  unfold Session.settled
  split
  · exact ⟨.refl _ _, rfl, rfl⟩
  · exact refl s

theorem kept (s : Session) (file : Location) (c : Proto.Compilation) :
    KeepsFiles s (Act.kept file c s) :=
  have hr := of_logged (.record s (Act.compiled file c))
  ⟨hr.files, hr.log, hr.machine⟩

theorem compile (s : Session) (file : Location) : KeepsFiles s (Act.compile file s).2 := by
  rw [Act.run_compile]
  cases s.compilation file with
  | error e => exact settled s file
  | ok c => exact (settled s file).trans (kept _ file c)

theorem loadSchema (s : Session) (path : Text) : KeepsFiles s (Act.loadSchema path s).2 := by
  rw [Act.run_loadSchema]
  split
  · exact refl s
  · split
    · exact refl s
    · exact compile s _

theorem decodeTree (s : Session) (data : Bytes) (path : Text) :
    KeepsFiles s (Act.decodeTree data path s).2 := by
  rw [Act.decodeTree_snd]
  exact loadSchema s path

end Session.KeepsFiles

end Treewire
