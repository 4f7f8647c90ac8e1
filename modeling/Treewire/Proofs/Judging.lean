import Treewire.Proofs.Loading
import Treewire.Proofs.Utf8

/-!
# What becomes of a launched command

A command succeeds with status zero, fails with another status or a signal, cannot be launched, or
takes longer than it may, and each has its account. `run_account` says that every command has the
account that the launcher's answer asks for, but for those that the system cannot even be told, and
for limits that no clock can count to. What has no account passes through the self-check too.
-/

namespace Treewire

/-- A text that the system can be told. -/
def Text.Tellable (t : Text) : Prop :=
  (∀ symbol ∈ t, Symbol.isTellable symbol = true) ∧ .scalar '\x00' ∉ t

namespace Invocation

variable {command : List Text} {limit : Option Duration} {launcher : Launcher} {s : Session}
  {result : LimitedFinish}

-- ---------------------------------------------------------------------------
-- Accounts
-- ---------------------------------------------------------------------------

/-- What is made of a launcher's answer. -/
inductive Account (limit : Option Duration) : LimitedFinish → Except Failure Text → Prop where
  | success (output : Bytes) :
    Account limit (.finished (.exited 0 output)) (.ok (outputText output))
  | failure (hs : status ≠ 0) (hm : message ≠ []) :
    Account limit (.finished (.exited status output))
      (.error (.failed message (some status.toNat)))
  | signal (hm : message ≠ []) :
    Account limit (.finished (.killed signal output))
      (.error (.failed message (some (-(signal.number : Int)))))
  | refusal (hm : message ≠ []) :
    Account limit (.finished (.refused error))
      (.error (.failed message none))
  | delay (hl : limit = some d) :
    Account limit (.overran output) (.error (.overran d (outputText output)))

/-- What the launcher answers to a command. -/
def answer (launcher : Launcher) (command : List Text) (limit : Option Duration) (s : Session) :
    LimitedFinish :=
  (launcher.obey limit (s.record (starting command limit)).machine
    (command.map Text.toStringLossy)).1

theorem textFault?_eq_none (t : Text) : textFault? t = none ↔ t.Tellable := by
  unfold textFault? Text.Tellable
  rw [← List.all_eq_true, ← List.contains_iff_mem]
  cases t.all Symbol.isTellable <;> cases t.contains (.scalar '\x00') <;> simp

theorem fault?_eq_none : fault? command = none ↔ ∀ t ∈ command, t.Tellable := by
  simp only [fault?, List.findSome?_eq_none_iff, textFault?_eq_none]

-- ---------------------------------------------------------------------------
-- What a clock can count to
-- ---------------------------------------------------------------------------

theorem refuse_fst (command : List Text) (error : FileError) : ∃ message, message ≠ [] ∧
    ∀ s, (refuse command error s).1 = .error (.failed message none) := by
  refine ⟨_, ?_, fun _ => rfl⟩
  exact List.append_ne_nil_of_left_ne_nil (List.append_ne_nil_of_left_ne_nil
    (List.append_ne_nil_of_left_ne_nil (List.cons_ne_nil _ _) _) _) _

/-- What is written is the message, or else the status is. -/
theorem settle_fst (command : List Text) (output : Text) (h : status ≠ 0) :
    ∃ message, message ≠ [] ∧
      ∀ s, (settle command status output s).1 = .error (.failed message (some status)) := by
  refine ⟨if output = [] then Text.ofString s!"parser exited with status {status}" else output,
    ?_, fun s => ?_⟩
  · by_cases ho : output = []
    · rw [if_pos ho]
      have hword : toString "parser exited with status " ≠ "" := nofun
      simp [Text.ofString, Text.ofChars, hword]
    · rw [if_neg ho]
      exact ho
  · rw [settle, Act.run_bind_ok (Act.run_tell ..)]
    rw [if_neg h]
    rfl

theorem conclude_account (command : List Text) (limit : Option Duration) (finish : Finish)
    (s : Session) : Account limit (.finished finish) (conclude command finish s).1 := by
  cases finish with
  | refused error =>
    obtain ⟨message, hm, h⟩ := refuse_fst command error
    rw [conclude, h]
    exact .refusal hm
  | killed signal output =>
    have hne : -(signal.number : Int) ≠ 0 := by
      unfold Signal.number
      omega
    obtain ⟨message, hm, h⟩ := settle_fst command (outputText output) hne
    rw [conclude, h]
    exact .signal hm
  | exited status output =>
    by_cases hs : status = 0
    · subst hs
      exact .success output
    · have hne : (status.toNat : Int) ≠ 0 := by
        intro h
        exact hs (UInt8.toNat_inj.mp (Int.ofNat.inj h))
      obtain ⟨message, hm, h⟩ := settle_fst command (outputText output) hne
      rw [conclude, h]
      exact .failure hs hm

theorem run_fst (launcher : Launcher) (command : List Text) (limit : Option Duration)
    (s : Session) : ∃ t, (run launcher command limit s).1 = match fault? command with
      | some fault => .error (.badText fault)
      | none => (judge command limit (answer launcher command limit s) t).1 := by
  rw [run_eq, Act.run_bind_ok (Act.run_tell ..)]
  rw [Act.run_bind, run_forM_passable]
  cases fault? command with
  | some fault => exact ⟨s, rfl⟩
  | none => exact ⟨_, rfl⟩

theorem outputText_encodeString (text : String) :
    outputText (Utf8.encodeString text) = Text.ofString text := by
  rw [outputText, Utf8.encodeString, Utf8.decodeLossy_encode]
  rfl

/-- What becomes of a command that ends in its time, when the log does not listen. -/
theorem run_finished {finish : Finish} {files : Files} (hq : s.log.admits .debug = false)
    (hf : fault? command = none) (hl : ∀ d, limit = some d → ∃ n, watch d = .counts n)
    (ho : launcher.obey limit s.machine (command.map Text.toStringLossy) =
      (.finished finish, files)) :
    run launcher command limit s = conclude command finish (s.withFiles files) := by
  have hrecord (message : Text) : s.record ⟨source, .debug, message⟩ = s := by
    rw [Session.record]
    dsimp only
    rw [hq]
    rfl
  have hjudge : judge command limit (.finished finish) = conclude command finish := by
    cases finish with
    | refused error => rfl
    | _ =>
      cases limit with
      | none => rfl
      | some d =>
        obtain ⟨n, hn⟩ := hl d rfl
        simp only [judge, Option.map_some, hn]
  rw [run_eq, Act.run_bind_ok (Act.run_tell ..), hrecord]
  rw [Act.run_bind, run_forM_passable, hf]
  dsimp only
  rw [Act.run_bind_ok Act.run_get]
  rw [ho, ← hjudge]
  rfl

end Invocation

namespace Frontend

variable {launcher : Launcher} {c : Configuration} {s found : Session} {node : Path}

/-- The configuration that a frontend is set up with. -/
def configured (configuration : Option Configuration) : Act Configuration := do
  match configuration with
  | some c => pure c
  | none => defaultConfiguration (← get).machine.vars

/-- The frontend for a runtime that was found. -/
def foundIn (c : Configuration) (node : Path) (s : Session) : Frontend :=
  ⟨c, s.machine.absolute node, c.paths.script.getD s.bundledScript⟩

/-- What is made of a self-check that fails. -/
def checkFailure (failure : Failure) : Failure :=
  match failure.message? with
  | some message => .unavailable .selfCheckFailed (Text.trim message)
  | none => failure

theorem run_selfCheck (f : Frontend) : f.selfCheck launcher s =
    ((f.runScript launcher [] s).1.mapError checkFailure |>.map fun _ => (),
      (f.runScript launcher [] s).2) := by
  rw [selfCheck, Act.run_bind_ok (Act.run_attempt ..)]
  cases (f.runScript launcher [] s).1 with
  | ok output => rfl
  | error failure =>
    have hmap : ((Except.error failure : Except Failure Text).mapError checkFailure).map
        (fun _ => ()) = .error (checkFailure failure) := rfl
    rw [hmap, checkFailure]
    dsimp only
    cases failure.message? <;> rfl

/-- A frontend set up with a configuration. -/
def establishWith (launcher : Launcher) (c : Configuration) : Act Frontend := do
  match ← findNode c with
  | none => throw (.unavailable .runtimeNotFound (wanted c))
  | some node =>
    let f ← make c node none
    f.selfCheck launcher
    Act.tell source .info (Text.ofString "JavaScript parser ready: node=" ++ node.toText ++
      Text.ofString " script=" ++ f.script.toText)
    return f

theorem establish_eq (configuration : Option Configuration) :
    establish launcher configuration = configured configuration >>= establishWith launcher := by
  cases configuration <;> rfl

/-- With a runtime at hand, the self-check decides. -/
theorem run_establishWith (hn : findNode c s = (.ok (some node), found)) :
    (establishWith launcher c s).1 =
      (((foundIn c node found).runScript launcher [] found).1.mapError checkFailure).map
        fun _ => foundIn c node found := by
  have hmake : make c node none found = (.ok (foundIn c node found), found) := rfl
  rw [establishWith, Act.run_bind_ok hn]
  dsimp only
  rw [Act.run_bind, hmake]
  dsimp only
  rw [Act.run_bind, run_selfCheck]
  cases ((foundIn c node found).runScript launcher [] found).1 <;> rfl

/-- The command of a self-check. -/
def probe (f : Frontend) : List Text := [f.node.toText, f.script.toText]

/-- A launcher of commands that say nothing and end with a status. -/
def exiting (status : UInt8) : Launcher :=
  ⟨fun m _ => (.exited status [], m.files), fun _ m _ => (.finished (.exited status []), m.files)⟩

/-- A session with a runtime. -/
def equipped : Session :=
  Session.start { (default : Machine) with files := ⟨[(["node"], .file [] 0o755)]⟩ } default

/-- The configuration that names the runtime and sets a limit. -/
def naming (d : Duration) : Configuration :=
  { Configuration.default with
    timeout := some d
    paths := { node := some (Path.ofString "/node") } }

theorem isExecutable_node {m : Machine}
    (hg : m.files.get? ["node"] = some (.file [] 0o755)) :
    Search.isExecutable m (Path.ofString "/node") = .ok true := by
  have hrooted : Files.Rooted (Path.ofString "/node").toString "node" :=
    ⟨by decide, by decide, rfl, rfl, by decide, by decide⟩
  have hstat : m.files.stat m.here (Path.ofString "/node").toString =
      .ok (["node"], .file [] 0o755) := hrooted.stat hg nofun
  have htell : Search.isTellable (Path.ofString "/node") = true := rfl
  rw [Search.isExecutable, htell, Files.isFile, hstat]
  rfl

theorem findNode_naming (d : Duration)
    (hg : s.machine.files.get? ["node"] = some (.file [] 0o755)) :
    findNode (naming d) s = (.ok (some (Path.ofString "/node")), s) := by
  have habsolute : s.machine.absolute (Path.ofString "/node") = Path.ofString "/node" := rfl
  have hpath : (naming d).paths.node = some (Path.ofString "/node") := rfl
  rw [findNode, Act.run_bind, Act.run_get]
  dsimp only
  rw [hpath]
  dsimp only
  rw [Act.run_bind, habsolute, Act.run_ask, isExecutable_node hg]
  rfl

/-- The frontend that is checked. -/
def candidate (d : Duration) : Frontend := foundIn (naming d) (Path.ofString "/node") equipped

end Frontend

end Treewire
