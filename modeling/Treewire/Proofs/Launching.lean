import Treewire.Proofs.Acts

/-!
# What an invocation does

An invocation speaks, has its launcher do one thing, and speaks again. What it makes of the outcome
does not depend on the session. All files that change meanwhile, but for the lines in the files of
the log, are changed by the launcher.
-/

namespace Treewire

/-- What comes of a command that may run for a limited time, or as long as it likes. -/
def Launcher.obey (launcher : Launcher) (limit : Option Duration) (m : Machine)
    (arguments : List String) : LimitedFinish × Files :=
  match limit.map Invocation.watch with
  | none => (.finished (launcher.run m arguments).1, (launcher.run m arguments).2)
  | some (.counts milliseconds) => launcher.runFor milliseconds m arguments
  | some _ => launcher.runFor 0 m arguments

/-- A launcher of commands that do nothing. -/
def Launcher.idle : Launcher :=
  ⟨fun m _ => (.exited 0 [], m.files), fun _ m _ => (.finished (.exited 0 []), m.files)⟩

namespace Invocation

variable {command : List Text} {limit : Option Duration} {launcher : Launcher} {s : Session}

-- ---------------------------------------------------------------------------
-- Before and after
-- ---------------------------------------------------------------------------

/-- Why a text cannot be told to the system. -/
def textFault? (t : Text) : Option TextFault :=
  if !t.all Symbol.isTellable then some .notEncodable
  else if t.contains (.scalar '\x00') then some .endsEarly
  else none

/-- Why a command cannot be told to the system. -/
def fault? (command : List Text) : Option TextFault := command.findSome? textFault?

theorem run_passable (t : Text) : Act.passable t s = (match textFault? t with
    | some fault => .error (.badText fault)
    | none => .ok ⟨⟩, s) := by
  unfold Act.passable textFault?
  split
  · rfl
  split <;> rfl

theorem run_forM_passable : command.forM Act.passable s = (match fault? command with
    | some fault => .error (.badText fault)
    | none => .ok ⟨⟩, s) := by
  induction command with
  | nil => rfl
  | cons t rest ih =>
    have hcons : (t :: rest).forM Act.passable =
        (Act.passable t >>= fun _ => rest.forM Act.passable) := rfl
    rw [hcons, Act.run_bind, run_passable, fault?, List.findSome?_cons]
    cases textFault? t with
    | some fault => rfl
    | none => exact ih

/-- What is made of the outcome of a command. -/
def judge (command : List Text) (limit : Option Duration) : LimitedFinish → Act Text
  | .finished (.refused error) => refuse command error
  | .finished finish =>
    match limit.map fun d => (d, watch d) with
    | some (d, .over) => overrun command d []
    | some (_, .fails fault) => throw (.badLimit fault)
    | _ => conclude command finish
  | .overran output =>
    match limit.map fun d => (d, watch d) with
    | some (d, .over) => overrun command d []
    | some (_, .fails fault) => throw (.badLimit fault)
    | _ => overrun command (limit.getD (.whole 0)) output

theorem run_eq : run launcher command limit = (do
    Act.tell source .debug (Text.ofString "run_script cmd=" ++ commandText command ++
      Text.ofString s!" timeout={limitText limit}")
    command.forM Act.passable
    let (result, files) := launcher.obey limit (← get).machine (command.map Text.toStringLossy)
    modify (·.withFiles files)
    judge command limit result) := by
  unfold run
  refine bind_congr fun _ => bind_congr fun _ => ?_
  cases limit with
  | none =>
    refine bind_congr fun s => bind_congr fun _ => ?_
    cases (launcher.run s.machine (command.map Text.toStringLossy)).1 <;> rfl
  | some d =>
    -- In all three cases the launcher is asked for one thing, and a refusal is judged alike.
    cases hw : watch d with
    | «over» =>
      simp only [hw, cutShort, Launcher.obey, judge, Option.map_some]
      refine bind_congr fun s => bind_congr fun _ => ?_
      rcases (launcher.runFor 0 s.machine (command.map Text.toStringLossy)).1 with (_ | _ | _) | _ <;>
        rfl
    | fails fault =>
      simp only [hw, cutShort, Launcher.obey, judge, Option.map_some]
      refine bind_congr fun s => bind_congr fun _ => ?_
      rcases (launcher.runFor 0 s.machine (command.map Text.toStringLossy)).1 with (_ | _ | _) | _ <;>
        rfl
    | counts milliseconds =>
      simp only [hw, Launcher.obey, judge, Option.map_some]
      refine bind_congr fun s => bind_congr fun _ => ?_
      rcases (launcher.runFor milliseconds s.machine (command.map Text.toStringLossy)).1 with
        (_ | _ | _) | _ <;> rfl

-- ---------------------------------------------------------------------------
-- What is made of the outcome
-- ---------------------------------------------------------------------------

/-- What is made of an outcome is a text or a failure, after some records none of which is a warning.
So it has every property of acts that these have and that records keep. -/
theorem judge_induction {P : Act Text → Prop} (hp : ∀ output, P (pure output))
    (he : ∀ failure, P (throw failure))
    (ht : ∀ level message (act : Act Text), level ≠ .warning → P act →
      P (Act.tell source level message >>= fun _ => act))
    (command : List Text) (limit : Option Duration) (result : LimitedFinish) :
    P (judge command limit result) := by
  have hrefuse (error : FileError) : P (refuse command error) := ht _ _ _ (by decide) (he _)
  have hoverrun (d : Duration) (output : Bytes) : P (overrun command d output) :=
    ht _ _ _ (by decide) (he _)
  have hsettle (status : Int) (output : Text) : P (settle command status output) := by
    unfold settle
    refine ht _ _ _ (by decide) ?_
    split
    · exact hp _
    · exact ht _ _ _ (by decide) (he _)
  have hconclude (finish : Finish) : P (conclude command finish) := by
    cases finish with
    | refused error => exact hrefuse error
    | exited status output => exact hsettle _ _
    | killed signal output => exact hsettle _ _
  unfold judge
  split
  · exact hrefuse _
  · split
    · exact hoverrun _ _
    · exact he _
    · exact hconclude _
  · split
    · exact hoverrun _ _
    · exact he _
    · exact hoverrun _ _

theorem judge_speaks (command : List Text) (limit : Option Duration) (result : LimitedFinish) :
    ∃ outcome, (judge command limit result).Speaks outcome := by
  refine judge_induction (P := fun act => ∃ outcome, act.Speaks outcome)
    (fun output => ⟨_, .pure output⟩) (fun failure => ⟨_, .throw failure⟩) ?_ command limit result
  rintro level message act hl ⟨outcome, h⟩
  exact ⟨outcome, .bind (.tell _ _ hl) h⟩

-- ---------------------------------------------------------------------------
-- Invocations
-- ---------------------------------------------------------------------------

/-- What an invocation leaves of the files of a machine. -/
def left (launcher : Launcher) (command : List Text) (limit : Option Duration) (m : Machine) :
    Files :=
  match fault? command with
  | some _ => m.files
  | none => (launcher.obey limit m (command.map Text.toStringLossy)).2

/-- What is told when a command is launched. -/
def starting (command : List Text) (limit : Option Duration) : Log.Record :=
  ⟨source, .debug, Text.ofString "run_script cmd=" ++ commandText command ++
    Text.ofString s!" timeout={limitText limit}"⟩

/-- What an invocation comes to depends on the session only through what the launcher says. -/
theorem run_speaks (command : List Text) (limit : Option Duration) :
    ∃ judgement : LimitedFinish → Except Failure Text, ∀ launcher s,
      ∃ rs, Log.NoWarning rs ∧ run launcher command limit s =
        (match fault? command with
          | some fault => .error (.badText fault)
          | none => judgement (launcher.obey limit (s.record (starting command limit)).machine
              (command.map Text.toStringLossy)).1,
        ((s.record (starting command limit)).withFiles (left launcher command limit
          (s.record (starting command limit)).machine)).told rs) := by
  obtain ⟨judgement, hj⟩ := Classical.axiomOfChoice (judge_speaks command limit)
  refine ⟨judgement, fun launcher s => ?_⟩
  rw [run_eq, Act.run_bind_ok (Act.run_tell ..)]
  rw [Act.run_bind, run_forM_passable]
  unfold left
  cases fault? command with
  | some fault => exact ⟨[], nofun, rfl⟩
  | none =>
    let started := s.record (starting command limit)
    let obeyed := launcher.obey limit started.machine (command.map Text.toStringLossy)
    exact hj obeyed.1 (started.withFiles obeyed.2)

end Invocation

end Treewire
