import Treewire.Shell.Evaluation

/-!
# Launching commands of the shell

The launcher of a machine whose only programs are the shell and a few tools, and scripts for them. Its
time is that of a clock which only sleeping moves.
-/

namespace Treewire.Shell

/-- How deep an evaluation may go. -/
def evaluationFuel : Nat := 4000

/-- The number of the first process. -/
def firstProcess : Nat := 4242

/-- The process that a machine starts. -/
def Process.initial (m : Machine) (limit : Option Nat) : Process where
  world := ⟨m.files, [], [], 0, limit⟩
  here := m.here
  vars := m.vars.map fun (name, value) => (octets name, octets value)
  exported := m.vars.map fun v => octets v.1
  functions := []
  descriptors := [(0, .nowhere), (1, .console), (2, .console)]
  name := []
  arguments := []
  number := firstProcess
  status := 0
  line := 0
  exitsOnFailure := false
  speaker := []
  loops := 0

/-- What comes of a command, and the files that it leaves. -/
def launch (limit : Option Nat) (m : Machine) (command : List String) : LimitedFinish × Files :=
  let path := (m.vars.lookup "PATH").map octets
  match Executable.resolve m.files m.here path (command.map octets) with
  | .error e => (.finished (.refused e), m.files)
  | .ok (tool, words) =>
    let (outcome, p) := (Evaluation.launch evaluationFuel true tool words).run
      (Process.initial m limit)
    let result := match outcome with
      | .ok status => .finished (.exited (UInt8.ofNat status) p.world.output)
      | .error (.killed signal) => .finished (.killed signal p.world.output)
      | .error .late => .overran p.world.output
      | .error _ => .finished (.exited (UInt8.ofNat p.status) p.world.output)
    (result, p.world.files)

/-- A command that never ends is killed. -/
def unlimited : LimitedFinish → Finish
  | .finished finish => finish
  | .overran output => .killed 8 output

/-- A command without any time is ended before it does anything. -/
def launcher : Launcher where
  run m command :=
    let (result, files) := launch none m command
    (unlimited result, files)
  runFor milliseconds m command :=
    let (result, files) := launch (some milliseconds) m command
    (result, if milliseconds = 0 then m.files else files)

end Treewire.Shell
