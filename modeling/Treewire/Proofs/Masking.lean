import Treewire.Proofs.Judging
import Treewire.Proofs.Tidying

/-!
# What cleaning up hides

A call for a text removes its source whatever came of the parse. Where the source can be removed, or
is gone already, the call ends as the parse did. Where the system refuses, as it does if the script
put a directory in its place, the refusal takes the place of the outcome: neither the tree nor the
reason why there is none comes out.
-/

namespace Treewire.Frontend

/-- How a call ends for a text that is encoded as some octets. -/
inductive Settles (launcher : Launcher) (f : Frontend) (octets : Bytes) (name : Text) (s : Session) :
    Except Failure Decoded → Session → Prop
  /-- Nothing was written. -/
  | unwritten (cause : Failure) (hf : after.machine.files = s.machine.files) :
      Settles launcher f octets name s (.error cause) after
  /-- The source was removed, or gone, once it was parsed: the outcome is that of the parse. -/
  | kept (hp : f.temporaryPath (sourceEnding name) s = (.ok file, picked))
      (hw : s.machine.files.write s.machine.here file.toString octets = .ok files)
      (hm : f.parse launcher file.toText (picked.withFiles files) = (result, parsed))
      (hk : ∀ e, parsed.machine.files.unlink s.machine.here file.toString = .error e → e = .noEntry)
      (hv : after.machine.files.Vacant s.machine.here file.toString) :
      Settles launcher f octets name s result after
  /-- The system refuses to remove what the script left in place of the source: the outcome of the
  parse is lost. -/
  | masked (hp : f.temporaryPath (sourceEnding name) s = (.ok file, picked))
      (hw : s.machine.files.write s.machine.here file.toString octets = .ok files)
      (hm : f.parse launcher file.toText (picked.withFiles files) = (result, parsed))
      (ho : f.temporaryPath outputEnding (picked.withFiles files) = (.ok output, next))
      (hr : Ran launcher f (f.command (f.schemaIn s) output file.toText) next done)
      (hd : done.machine.files.unlink s.machine.here file.toString = .error e)
      (hu : parsed.machine.files.unlink s.machine.here file.toString = .error e)
      (he : e ≠ .noEntry) :
      Settles launcher f octets name s (.error (.system e)) parsed

variable {launcher : Launcher} {f : Frontend} {s picked after : Session} {file : Path}
  {code name : Text} {result : Except Failure Decoded}

end Treewire.Frontend
