import Treewire.Proofs.Amid
import Treewire.Proofs.Cleanup
import Treewire.Proofs.Scratch
import Treewire.Proofs.Speaking
import Treewire.Proofs.Stepping

/-!
# Temporary source files

A text is parsed from a file that is written for it. What writing the file comes to, what the parse
leaves of files, and what becomes of its outcome when the file is removed: a call for a text is put
together from these.
-/

namespace Treewire

-- ---------------------------------------------------------------------------
-- Names of sources
-- ---------------------------------------------------------------------------

namespace Frontend

section
variable {launcher : Launcher} {f : Frontend} {s t picked done parsed : Session}
  {file output directory : Path}

/-- What the name of a source ends in: the last component of the name that it is given. -/
def sourceEnding (name : Text) : Text := .scalar '-' :: (Path.ofText name).name

section
variable {code : Text} (hf : Invocation.textFault? file.toText = none)
include hf

end

/-- What is left of files when a parse ends that looked for its output in a session: nothing is at the
path of the output unless the system refuses to remove it, and that is all that happened, but for
lines in the files of the log. -/
structure Leaves (output : Path) (done after : Session) : Prop where
  log : after.log = done.log
  here : after.machine.here = done.machine.here
  cleared : after.machine.files.Cleared done.machine.here output.toString
  files : Files.Grown done.log.files done.machine.files after.machine.files ∨
    ∃ loc, done.machine.files.resolve done.machine.here false output.toString = .ok loc ∧
      done.machine.files.get? loc ≠ some .directory ∧
      Files.Grown done.log.files (done.machine.files.erase loc) after.machine.files

namespace Leaves

/-- What cannot be removed after a parse could not be removed before it cleaned up. -/
theorem unlink_error (h : Leaves output done parsed) {here : Location} {path : String}
    (hu : parsed.machine.files.unlink here path = .error e) (he : e ≠ .noEntry) :
    done.machine.files.unlink here path = .error e := by
  rcases h.files with hg | ⟨loc, -, hd, hg⟩
  · exact hg.twin.symm.unlink_error hu
  · exact Files.unlink_of_erase hd (hg.twin.symm.unlink_error hu) he

/-- Each entry is what it was, or it is gone because it was the output. -/
theorem entry (h : Leaves output done parsed) (loc : Location) :
    Files.GrownAt done.log.files done.machine.files parsed.machine.files loc ∨
      parsed.machine.files.get? loc = none ∧
        done.machine.files.resolve done.machine.here false output.toString = .ok loc := by
  rcases h.files with hg | ⟨gone, hl, hd, hg⟩
  · exact .inl (hg loc)
  by_cases hloc : loc = gone
  · subst hloc
    exact .inr ⟨hg.twin.get?_none (Files.get?_erase_self hd), hl⟩
  · refine .inl (Files.GrownAt.trans (.inl ?_) (hg loc))
    by_cases hroot : loc = []
    · subst hroot
      rfl
    · rw [Files.get?_erase hroot, if_neg hloc]

/-- A path that leads to an entry after a parse led there before it cleaned up. -/
theorem resolve (h : Leaves output done parsed) {here loc : Location} {path : String}
    {found : Entry} (hr : parsed.machine.files.resolve here false path = .ok loc)
    (he : parsed.machine.files.get? loc = some found) :
    done.machine.files.resolve here false path = .ok loc := by
  rcases h.files with hg | ⟨gone, -, hd, hg⟩
  · rwa [hg.twin.resolve] at hr
  · rw [hg.twin.resolve] at hr
    have hsome := hg.twin.isSome loc
    rw [he] at hsome
    obtain ⟨before, hb⟩ := Option.isSome_iff_exists.mp hsome.symm
    exact Files.resolve_of_erase hd hr hb

end Leaves

/-- What the script leaves of files when it is started in a session. -/
def leftBy (launcher : Launcher) (f : Frontend) (words : List Text) (s : Session) : Files :=
  Invocation.left launcher words f.configuration.timeout (f.started words s).machine

section
variable {words : List Text} (h : Ran launcher f words picked done)
include h

theorem Ran.logged :
    Session.Logged ((f.started words picked).withFiles (leftBy launcher f words picked)) done := by
  obtain ⟨rs, -, rfl⟩ := h
  exact .told _ rs

theorem Ran.log : done.log = picked.log :=
  h.logged.log.trans (Session.Logged.record picked _).log

theorem Ran.here : done.machine.here = picked.machine.here :=
  h.logged.here.trans (Session.Logged.record picked _).here

theorem Ran.grown :
    Files.Grown picked.log.files (leftBy launcher f words picked) done.machine.files := by
  have hlog : (f.started words picked).log = picked.log := (Session.Logged.record picked _).log
  rw [← hlog]
  exact h.logged.files

end

end

-- ---------------------------------------------------------------------------
-- Parsing a text
-- ---------------------------------------------------------------------------

section
variable {f : Frontend} {s t picked : Session} {file : Path} {code name : Text}

end

end Frontend

end Treewire
