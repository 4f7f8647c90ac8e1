import Treewire.Proofs.Calling

/-!
# Calls, one step at a time

A call picks a path for its output, runs the script, reads the output, removes it, loads the schema
and decodes. Calls that are made side by side share a session and take these steps in any order. The
steps of one call, one after the other, come to what the call comes to.
-/

namespace Treewire.Frontend

/-- How far a call has come. -/
inductive Progress where
  | waiting
  | picked (schema output : Path)
  | ran (schema output : Path) (outcome : Except Failure Text)
  | looked (schema output : Path) (made : Except Failure Bytes)
  | cleared (schema : Path) (data : Bytes)
  | loaded (data : Bytes) (schema : Schema) (type : MessageType)
  | finished (result : Except Failure Decoded)

/-- A tree decoded by a schema that was loaded. -/
def decoded (data : Bytes) (schema : Schema) (type : MessageType) : Except Failure Decoded :=
  match Message.decode? schema type data with
  | some message => .ok ⟨schema, type, message⟩
  | none => .error (.badPayload data.length)

/-- The next step of a call. A call that failed cleans up, and is finished. -/
def step (launcher : Launcher) (f : Frontend) (file : Text) :
    Progress → Session → Progress × Session
  | .waiting, s =>
    match f.temporaryPath outputEnding s with
    | (.ok output, s') => (.picked (f.schemaIn s) output, s')
    | (.error e, s') => (.finished (.error e), s')
  | .picked schema output, s =>
    let (outcome, s') := f.runScript launcher [schema.toText, file, output.toText] s
    (.ran schema output outcome, s')
  | .ran schema output (.ok _), s =>
    let (made, s') := readOutput output s
    (.looked schema output made, s')
  | .looked schema output (.ok data), s =>
    match removeOutput output s with
    | (.ok _, s') => (.cleared schema data, s')
    | (.error e, s') => (.finished (.error e), s')
  | .ran _ output (.error e), s | .looked _ output (.error e), s =>
    (.finished (.error e), (discardOutput output s).2)
  | .cleared schema data, s =>
    match Act.loadMessageType schema.toText Schema.treeMessage s with
    | (.ok (schema, type), s') => (.loaded data schema type, s')
    | (.error e, s') => (.finished (.error e), s')
  | .loaded data schema type, s => (.finished (decoded data schema type), s)
  | .finished result, s => (.finished result, s)

-- ---------------------------------------------------------------------------
-- What is left of a call
-- ---------------------------------------------------------------------------

/-- What a call does with what its script made. -/
def conclude (schema output : Path) : Except Failure Bytes → Act Decoded
  | .error failure => do
    discardOutput output
    throw failure
  | .ok data => do
    removeOutput output
    Act.decodeTree data schema.toText

/-- What is left of a call that came so far. -/
def remaining (launcher : Launcher) (f : Frontend) (file : Text) : Progress → Act Decoded
  | .waiting => f.parse launcher file
  | .picked schema output => do
    conclude schema output (← (f.produce launcher schema output file).attempt)
  | .ran schema output (.ok _) => do
    conclude schema output (← (readOutput output).attempt)
  | .ran schema output (.error failure) => conclude schema output (.error failure)
  | .looked schema output made => conclude schema output made
  | .cleared schema data => Act.decodeTree data schema.toText
  | .loaded data schema type => Act.ofExcept id (decoded data schema type)
  | .finished result => Act.ofExcept id result

variable {launcher : Launcher} {f : Frontend} {file : Text} {s : Session} {schema output : Path}

theorem step_picked : step launcher f file (.picked schema output) s =
    (.ran schema output (f.runScript launcher [schema.toText, file, output.toText] s).1,
      (f.runScript launcher [schema.toText, file, output.toText] s).2) := rfl

theorem step_ran_error (failure : Failure) :
    step launcher f file (.ran schema output (.error failure)) s =
      (.finished (.error failure), (discardOutput output s).2) := rfl

theorem step_looked_error (failure : Failure) :
    step launcher f file (.looked schema output (.error failure)) s =
      (.finished (.error failure), (discardOutput output s).2) := rfl

theorem run_discardOutput_fst : (discardOutput output s).1 = .ok ⟨⟩ := by
  rw [run_discardOutput]
  split <;> rfl

theorem run_decodeTree (data : Bytes) (path : Text) : Act.decodeTree data path s =
    match Act.loadMessageType path Schema.treeMessage s with
    | (.ok (schema, type), s') => (decoded data schema type, s')
    | (.error e, s') => (.error e, s') := by
  rw [Act.decodeTree, Act.run_bind]
  rcases Act.loadMessageType path Schema.treeMessage s with ⟨e | ⟨schema, type⟩, s'⟩
  · rfl
  · dsimp only [decoded]
    cases Message.decode? schema type data <;> rfl

theorem remaining_loaded (data : Bytes) (schema : Schema) (type : MessageType) :
    remaining launcher f file (.loaded data schema type) s = (decoded data schema type, s) := by
  rw [remaining, Act.run_ofExcept]
  cases decoded data schema type <;> rfl

theorem remaining_finished (result : Except Failure Decoded) :
    remaining launcher f file (.finished result) s = (result, s) := by
  rw [remaining, Act.run_ofExcept]
  cases result <;> rfl

/-- A call that failed cleans up, and fails as it did. -/
theorem conclude_error (schema output : Path) (failure : Failure) :
    conclude schema output (.error failure) s = (.error failure, (discardOutput output s).2) := by
  have hfst : (discardOutput output s).1 = .ok ⟨⟩ := run_discardOutput_fst
  rw [conclude, Act.run_bind]
  generalize discardOutput output s = after at hfst
  obtain ⟨outcome, s'⟩ := after
  obtain rfl : outcome = .ok ⟨⟩ := hfst
  rfl

theorem remaining_error (schema output : Path) (failure : Failure) :
    conclude schema output (.error failure) s =
      remaining launcher f file (.finished (.error failure)) (discardOutput output s).2 := by
  rw [remaining_finished, conclude_error]

/-- A step takes something off what is left of a call, and changes nothing about it. -/
theorem remaining_step (p : Progress) : remaining launcher f file p s =
    remaining launcher f file (step launcher f file p s).1 (step launcher f file p s).2 := by
  cases p with
  | waiting =>
    rw [step, remaining]
    cases hp : f.temporaryPath outputEnding s with
    | mk outcome picked =>
      cases outcome with
      | error e => rw [remaining_finished, run_parse_error file hp]
      | ok output =>
        rw [run_parse file hp, remaining, Act.run_bind, Act.run_attempt]
        cases f.produce launcher (f.schemaIn s) output file picked with
        | mk made done => cases made <;> rfl
  | picked schema output =>
    rw [step, remaining, Act.run_bind, Act.run_attempt, produce, Act.run_bind]
    cases f.runScript launcher [schema.toText, file, output.toText] s with
    | mk outcome done =>
      cases outcome with
      | error e => rfl
      | ok text => rfl
  | ran schema output outcome =>
    cases outcome with
    | error e => exact remaining_error schema output e
    | ok text => rfl
  | looked schema output made =>
    cases made with
    | error e => exact remaining_error schema output e
    | ok data =>
      rw [step, remaining, conclude, Act.run_bind]
      cases removeOutput output s with
      | mk outcome done =>
        cases outcome with
        | error e => rw [remaining_finished]
        | ok u => rfl
  | cleared schema data =>
    rw [step, remaining, run_decodeTree]
    cases Act.loadMessageType schema.toText Schema.treeMessage s with
    | mk outcome done =>
      cases outcome with
      | error e => rw [remaining_finished]
      | ok loaded => exact (remaining_loaded data loaded.1 loaded.2).symm
  | loaded data schema type => rfl
  | finished result => rfl

-- ---------------------------------------------------------------------------
-- How much is left
-- ---------------------------------------------------------------------------

/-- How many steps a call takes at most until it is finished. -/
def Progress.left : Progress → Nat
  | .waiting => 6
  | .picked .. => 5
  | .ran .. => 4
  | .looked .. => 3
  | .cleared .. => 2
  | .loaded .. => 1
  | .finished _ => 0

theorem Progress.left_eq_zero {p : Progress} (h : p.left = 0) : ∃ result, p = .finished result := by
  cases p with
  | finished result => exact ⟨result, rfl⟩
  | _ => cases h

theorem left_step (p : Progress) : (step launcher f file p s).1.left ≤ p.left - 1 := by
  cases p with
  | waiting =>
    rw [step]
    split
    · exact Nat.le_refl _
    · exact Nat.zero_le _
  | picked schema output => exact Nat.le_refl _
  | ran schema output outcome =>
    cases outcome with
    | error e => exact Nat.zero_le _
    | ok text => exact Nat.le_refl _
  | looked schema output made =>
    cases made with
    | error e => exact Nat.zero_le _
    | ok data =>
      rw [step]
      split
      · exact Nat.le_refl _
      · exact Nat.zero_le _
  | cleared schema data =>
    rw [step]
    split
    · exact Nat.le_refl _
    · exact Nat.zero_le _
  | loaded data schema type => exact Nat.le_refl _
  | finished result => exact Nat.le_refl _

end Treewire.Frontend
