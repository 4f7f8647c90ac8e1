import Treewire.Proofs.Calling
import Treewire.Proofs.Compiling
import Treewire.Proofs.Places

/-!
# Calls clean up

A call to parse a file picks a path for the script's output, and nothing is left there when it ends,
unless the system refuses to remove what the script left. Then the call fails: it names the path, or
it fails for the reason it had before and warns of what it leaves.

That nothing else happens to files is not quite so. If the log goes to a file, each call adds lines
to that file.
-/

namespace Treewire

-- ---------------------------------------------------------------------------
-- Calls
-- ---------------------------------------------------------------------------

namespace Frontend

variable {launcher : Launcher} {f : Frontend} {output : Path} {made : Except Failure Bytes}
  {done : Session}

/-- From a session to the one in which the output of a script is looked for: there is what the
launcher leaves when the script was started, and more may be told, but no warning. -/
def Ran (launcher : Launcher) (f : Frontend) (command : List Text) (s done : Session) : Prop :=
  ∃ rs, Log.NoWarning rs ∧ done = ((f.started command s).withFiles
    (Invocation.left launcher command f.configuration.timeout (f.started command s).machine)).told rs

end Frontend

-- ---------------------------------------------------------------------------
-- A log that goes to a file
-- ---------------------------------------------------------------------------

/-- There is a file that is not empty. -/
def Files.Written (fs : Files) (loc : Location) : Prop :=
  ∃ octet content mode, fs.get? loc = some (.file (octet :: content) mode)

theorem Files.Written.grown (h : Written fs loc) (hg : Grown logs fs fs') : Written fs' loc := by
  obtain ⟨octet, content, mode, he⟩ := h
  rcases hg loc with heq | ⟨-, content', more, mode', hb, ha⟩
  · exact ⟨octet, content, mode, heq.trans he⟩
  · rw [he] at hb
    cases hb
    exact ⟨octet, content ++ more, mode, ha⟩

namespace Frontend

end Frontend

end Treewire
