import Treewire.Proofs.Launching

/-!
# The steps of a call

What each step of a call to parse a file comes to in a session, and how the call is put together from
its steps.
-/

namespace Treewire

namespace Frontend

variable {launcher : Launcher} {f : Frontend} {s done : Session} {output : Path}

/-- A frontend for which nothing is configured. -/
def usual : Frontend := ⟨.default, default, default⟩

/-- The schema that a frontend uses in a session. -/
def schemaIn (f : Frontend) (s : Session) : Path :=
  f.configuration.paths.schema.getD s.bundledSchema

theorem run_schema : f.schema s = (.ok (f.schemaIn s), s) := rfl

/-- A file in a directory, named by the lot. -/
def fileIn (directory : Path) (serial : Nat) (ending : Text) : Path :=
  directory.join (Path.ofText (Text.ofString (Machine.nameOf serial) ++ ending))

theorem run_temporaryPath (ending : Text) : f.temporaryPath ending s =
    match f.configuration.paths.temporary with
    | some d => (.ok (fileIn d s.machine.serial ending),
        { s with machine := { s.machine with serial := s.machine.serial + 1 } })
    | none =>
      match s.temporary.or s.machine.temporaryDirectory? with
      | some d => (.ok (fileIn d s.machine.serial ending),
          { s with
            temporary := some d
            machine := { s.machine with serial := s.machine.serial + 1 } })
      | none => (.error (.system .noEntry), s) := by
  unfold temporaryPath
  cases f.configuration.paths.temporary with
  | some d => rfl
  | none =>
    dsimp only
    rw [Act.run_bind, Act.run_temporaryDirectory]
    cases s.temporary.or s.machine.temporaryDirectory? <;> rfl

/-- The command by which a frontend has its script parse a file. -/
def command (f : Frontend) (schema output : Path) (file : Text) : List Text :=
  [f.node.toText, f.script.toText, schema.toText, file, output.toText]

theorem runScript_eq (schema output : Path) (file : Text) :
    f.runScript launcher [schema.toText, file, output.toText] =
      Invocation.run launcher (f.command schema output file) f.configuration.timeout := rfl

/-- The session in which the script is started. -/
def started (f : Frontend) (command : List Text) (s : Session) : Session :=
  s.record (Invocation.starting command f.configuration.timeout)

theorem run_readOutput : readOutput output s =
    ((s.machine.files.read s.machine.here output.toString).mapError (.unreadableOutput output), s) :=
  Act.run_ofExcept ..

/-- The warning that an output stays. -/
def leaving (output : Path) (e : FileError) : Log.Record :=
  ⟨source, .warning, Text.ofString "Leaving temporary AST file " ++ output.toText ++
    Text.ofString " behind: " ++ e.report output.toText⟩

theorem run_removeOutput : removeOutput output s =
    match s.machine.files.unlink s.machine.here output.toString with
    | .ok files => (.ok ⟨⟩, s.withFiles files)
    | .error e => (.error (.lastingOutput output e), s) := by
  rw [removeOutput, Act.run_bind_ok Act.run_get]
  cases s.machine.files.unlink s.machine.here output.toString <;> rfl

theorem run_discardOutput : discardOutput output s =
    match s.machine.files.unlink s.machine.here output.toString with
    | .ok files => (.ok ⟨⟩, s.withFiles files)
    | .error .noEntry => (.ok ⟨⟩, s)
    | .error e => (.ok ⟨⟩, s.record (leaving output e)) := by
  rw [discardOutput, Act.run_bind_ok Act.run_get]
  rcases s.machine.files.unlink s.machine.here output.toString with e | files
  · cases e <;> rfl
  · rfl

theorem run_discardOutput_refused
    (hu : s.machine.files.unlink s.machine.here output.toString = .error e) (he : e ≠ .noEntry) :
    discardOutput output s = (.ok ⟨⟩, s.record (leaving output e)) := by
  rw [run_discardOutput, hu]
  cases e <;> first | rfl | exact (he rfl).elim

theorem run_parse (file : Text) (h : f.temporaryPath outputEnding s = (.ok output, picked)) :
    f.parse launcher file s =
      match f.produce launcher (f.schemaIn s) output file picked with
      | (.error failure, done) => (do discardOutput output; throw failure : Act Decoded) done
      | (.ok data, done) =>
        (do removeOutput output; Act.decodeTree data (f.schemaIn s).toText : Act Decoded) done := by
  rw [parse, Act.run_bind_ok run_schema]
  rw [Act.run_bind_ok h]
  rw [Act.run_bind, Act.run_attempt]
  cases f.produce launcher (f.schemaIn s) output file picked with
  | mk made done => cases made <;> rfl

theorem run_parse_error (file : Text) (h : f.temporaryPath outputEnding s = (.error e, picked)) :
    f.parse launcher file s = (.error e, picked) := by
  rw [parse, Act.run_bind_ok run_schema]
  rw [Act.run_bind, h]

end Frontend

end Treewire
