import Treewire.Files
import Treewire.Text.Quoted

/-!
# Reports of refused file operations

A report gives the number and the text of the reason, and the path, quoted.
-/

namespace Treewire.FileError

/-- The reason alone. -/
def reason (e : FileError) : String := s!"[Errno {e.number}] {e.text}"

def report (e : FileError) (path : Text) : Text :=
  Text.ofString (e.reason ++ ": ") ++ path.quoted

end Treewire.FileError
