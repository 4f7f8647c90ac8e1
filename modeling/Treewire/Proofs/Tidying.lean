import Treewire.Proofs.Rooted
import Treewire.Proofs.Sources

/-!
# Calls for texts tidy up

A call for a text writes the text to a file in the directory for temporary files, has that file
parsed, and removes it. When the call ends, neither the source nor the output is left, unless the
system refuses to remove what the script put in its place; and nothing else happens to files but what
the script does, and lines that are added to the files of the log.

There is one exception. A text that cannot be encoded is found out when its file is there already, and
the empty file stays.
-/

namespace Treewire.Frontend

-- ---------------------------------------------------------------------------
-- What is left
-- ---------------------------------------------------------------------------

variable {launcher : Launcher} {f : Frontend} {s picked done parsed after : Session}
  {file output : Path} {code name : Text} {result outcome : Except Failure Decoded}

/-- A session without files, which keeps temporary files in the root. -/
def bare : Session := { Session.start default default with temporary := some ⟨.single, []⟩ }

end Treewire.Frontend
