import Treewire.Proofs.Memory
import Treewire.Proofs.Rooted
import Treewire.Proofs.Stepping

/-!
# What loads know of each other

Of all loads in a session, the first success at each place counts for good; a load after nothing but
failures compiles what it finds. Other loads do not show at all, but for one thing that all of them
share: the directory for temporary files, which the first compiler settles on. If that directory is
gone later, compiling fails, though it would have found another one in a new session.
-/

namespace Treewire

-- ---------------------------------------------------------------------------
-- One load
-- ---------------------------------------------------------------------------

/-- A compiler that succeeds has a directory for temporary files, and the session keeps to it. -/
theorem Session.settled_of_compilation {s : Session} {file : Location}
    (h : s.compilation file = .ok c) :
    ∃ directory, (s.settled file).temporary = some directory := by
  unfold compilation at h
  unfold settled
  cases hc : checkSchemaFile s.machine.files s.machine.here file with
  | error fault =>
    rw [hc] at h
    cases h
  | ok u =>
    rw [hc] at h
    dsimp only at h ⊢
    cases hr : s.room? with
    | none =>
      rw [hr] at h
      cases h
    | some directory => exact ⟨directory, rfl⟩

namespace Load

variable {l : Load} {file : Location}

theorem spelled {path : Text} (hp : l.session.place? path = l.place?) :
    (Load.mk path l.session).outcome = l.outcome ∧ (Load.mk path l.session).after = l.after := by
  have hsame : Act.loadSchema path l.session = Act.loadSchema l.path l.session := by
    rw [Session.place?, place?, Session.place?] at hp
    rw [Act.run_loadSchema, Act.run_loadSchema, hp]
  exact ⟨congrArg Prod.fst hsame, congrArg Prod.snd hsame⟩

/-- A load without a directory for temporary files in the end compiled nothing. -/
theorem unsettled (h : l.after.temporary = none) : l.after = l.session := by
  cases ho : l.outcome with
  | error failure =>
    rcases fails ho with hs | hs
    · exact hs
    · rw [hs] at h
      dsimp only at h
      have hnone : l.session.temporary = none := (Option.or_eq_none_iff.mp h).1
      rw [hs, h, ← hnone]
  | ok schema =>
    cases hp : l.place? with
    | none =>
      rw [(run_nowhere hp).1] at ho
      cases ho
    | some file =>
      cases hf : l.session.schemas.lookup file with
      | some known => exact (run_known hp hf).2
      | none =>
        obtain ⟨houtcome, hafter⟩ := run_new hp hf
        cases hc : l.session.compilation file with
        | error e =>
          rw [houtcome, hc] at ho
          cases ho
        | ok c =>
          obtain ⟨directory, hd⟩ := Session.settled_of_compilation hc
          rw [hafter, Act.compile_snd_ok hc, Act.kept,
            (Session.Logged.record _ (Act.compiled file c)).temporary, hd] at h
          cases h

/-- Of a load that fails, nothing is left but the directory for temporary files. -/
theorem failed {failure : Failure} (ho : l.outcome = .error failure) :
    l.after = { l.session with temporary := l.after.temporary } := by
  rcases fails ho with h | h <;> rw [h]

/-- What a load leaves for those who look at other files: the directory for temporary files. -/
theorem unseen (hlog : l.session.log = .initial) (hp : l.place? = some file) (rest : List Event) :
    (l.after.loads rest).map (seenOff file) =
      (Session.loads { l.session with temporary := l.after.temporary } rest).map
        (seenOff file) := by
  cases hd : l.after.temporary with
  | none =>
    have hsame := unsettled hd
    rw [hsame] at hd ⊢
    rw [← hd]
  | some directory =>
    let settled : Session := { l.session with temporary := some directory }
    have hafter : l.after = settled.withSchemas l.after.schemas := by
      rw [show settled = { l.session with temporary := l.after.temporary } by rw [hd]]
      rcases after_quiet hlog with h | h <;> rw [h] <;> rfl
    have hagree : settled.schemas.AgreeOff file l.after.schemas := fun other hne =>
      others fun he => hne (Option.some.inj (he.symm.trans hp))
    rw [hafter]
    exact Session.loads_withSchemas (s := settled) hlog rfl hagree rest
/-- What a load takes into account of the past, and what it leaves. -/
structure Sound (l : Load) : Prop where
  /-- A failure leaves nothing but the choice of a directory for temporary files. -/
  failed : ∀ failure, l.outcome = .error failure →
    l.after = { l.session with temporary := l.after.temporary }
  /-- That choice is made once. -/
  settled : ∀ directory, l.session.temporary = some directory →
    l.after.temporary = some directory
  /-- Another spelling of the path comes to the same if it leads to the same place. -/
  spelled : ∀ path, l.session.place? path = l.place? →
    (Load.mk path l.session).outcome = l.outcome ∧ (Load.mk path l.session).after = l.after
  /-- Nothing is kept, lost or replaced under another place. -/
  others : ∀ file, l.place? ≠ some file →
    l.after.schemas.lookup file = l.session.schemas.lookup file
  /-- Loads of other places go on as if only that choice had been made. -/
  unseen : ∀ file, l.place? = some file → ∀ rest, (l.after.loads rest).map (seenOff file) =
    (Session.loads { l.session with temporary := l.after.temporary } rest).map (seenOff file)
  /-- Which message type is wanted makes no difference to what is left, even if there is none. -/
  named : ∀ name, Act.loadMessageType l.path name l.session =
    (l.outcome.bind (Act.messageIn l.path name), l.after)
  /-- What data decode to is told by the schema. -/
  decoded : ∀ data, Act.decodeTree data l.path l.session =
    ((l.outcome.bind (Act.messageIn l.path Schema.treeMessage)).bind fun found =>
      Frontend.decoded data found.1 found.2, l.after)

theorem sound (hlog : l.session.log = .initial) : l.Sound where
  failed _ ho := failed ho
  settled directory hd := by
    rcases after_quiet hlog with h | h <;> rw [h]
    · exact hd
    · exact congrArg (Option.or · _) hd
  spelled _ hp := spelled hp
  others _ hp := others hp
  unseen _ hp rest := unseen hlog hp rest
  named name := Act.run_loadMessageType l.path name
  decoded data := by
    rw [Frontend.run_decodeTree, Act.run_loadMessageType, ← outcome, ← after]
    cases l.outcome.bind (Act.messageIn l.path Schema.treeMessage) <;> rfl

end Load

-- ---------------------------------------------------------------------------
-- All loads
-- ---------------------------------------------------------------------------

namespace Load

def roomyFiles : Files := ⟨[(["a"], .directory), (["tmp"], .directory),
  (["@x.proto"], .file [] Files.usualMode), (["ast.proto"], .file [] Files.usualMode)]⟩

/-- A load that fails, in a session whose directory for temporary files may go. -/
def refused : Load where
  path := Text.ofString "/@x.proto"
  session := .start
    { (default : Machine) with files := roomyFiles, vars := [("TMPDIR", "/a")] } ⟨.single, []⟩

def remainingFiles : Files := roomyFiles.erase ["a"]

/-- The second load of `goes`, with a directory for temporary files settled on or not. -/
def second (temporary : Option Path) : Load where
  path := Text.ofString "/ast.proto"
  session := { refused.session with
    machine := { refused.session.machine with files := remainingFiles }
    temporary }

end Load
end Treewire
