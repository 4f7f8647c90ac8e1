import Treewire.Machine

/-!
# Launching programs

A launcher starts a command on a machine and waits for it. What comes of it is one of a few outcomes,
and files that may have changed. Nothing else is said of a launcher here: statements about programs
that use one hold whatever the launched programs do.
-/

namespace Treewire

/-- A signal that ends a program, counted from zero. -/
abbrev Signal := Fin 64

/-- The number that systems give to a signal. -/
def Signal.number (s : Signal) : Nat := s.val + 1

/-- What comes of a command. Output is what was written to both output streams, in that order. -/
inductive Finish where
  | exited (status : UInt8) (output : Bytes)
  | killed (signal : Signal) (output : Bytes)
  /-- The command cannot be started. -/
  | refused (error : FileError)
  deriving DecidableEq, Inhabited

/-- What comes of a command that may only run for a limited time. -/
inductive LimitedFinish where
  | finished (finish : Finish)
  /-- It was ended when its time was over. -/
  | overran (output : Bytes)
  deriving DecidableEq, Inhabited

structure Launcher where
  /-- Runs a command until it ends. -/
  run : Machine → List String → Finish × Files
  /-- Runs a command for a number of milliseconds at most; with none it is ended once it runs. -/
  runFor : Nat → Machine → List String → LimitedFinish × Files

end Treewire
