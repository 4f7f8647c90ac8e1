import Treewire.Proofs.Company
import Treewire.Proofs.Compiling
import Treewire.Proofs.Naming

/-!
# Sessions amid calls

While calls are made side by side, there are files at the places of their outputs, the log grows, a
schema may have been compiled and a directory for temporary files settled on. What a path leads to,
and what a schema is compiled to, is what it was before the calls.
-/

namespace Treewire

-- ---------------------------------------------------------------------------
-- Files of several calls
-- ---------------------------------------------------------------------------

/-- Files at some places that were empty, and lines added to the files of the log. -/
def Files.Shared (outputs : Location → Prop) (logs : List Location) (fs fs' : Files) : Prop :=
  ∀ loc, GrownAt logs fs fs' loc ∨
    outputs loc ∧ fs.get? loc = none ∧ ∃ content mode, fs'.get? loc = some (.file content mode)

/-- A file, if there is one. -/
def fileEntry? : Option (Bytes × Nat) → Option Entry
  | none => none
  | some (content, mode) => some (.file content mode)

namespace Files.Shared

variable {outputs own : Location → Prop} {logs : List Location} {fs fs' fs'' : Files}
  {here : Location}

theorem refl (outputs : Location → Prop) (logs : List Location) (fs : Files) :
    Shared outputs logs fs fs := fun _ => .inl (.inl rfl)

theorem grown (h : Shared outputs logs fs fs') (hg : Grown logs fs' fs'') :
    Shared outputs logs fs fs'' := by
  intro loc
  rcases h loc with hs | ⟨ho, hn, content, mode, hf⟩
  · exact .inl (hs.trans (hg loc))
  · refine .inr ⟨ho, hn, ?_⟩
    rcases hg loc with he | ⟨-, content', more, mode', -, ha⟩
    · exact ⟨content, mode, he.trans hf⟩
    · exact ⟨content' ++ more, mode', ha⟩

/-- The places of one call may hold anything that is a file, or nothing. -/
theorem change (h : Shared outputs logs fs fs')
    (hown : ∀ loc, own loc → outputs loc ∧ fs.get? loc = none ∧ fs''.get? loc = fileEntry? e)
    (hrest : ∀ loc, ¬own loc → GrownAt logs fs' fs'' loc) : Shared outputs logs fs fs'' := by
  intro loc
  by_cases ho : own loc
  · obtain ⟨hout, hn, he⟩ := hown loc ho
    rcases e with _ | ⟨content, mode⟩
    · exact .inl (.inl (he.trans hn.symm))
    · exact .inr ⟨hout, hn, content, mode, he⟩
  · rcases h loc with hs | ⟨hout, hn, content, mode, hf⟩
    · exact .inl (hs.trans (hrest loc ho))
    · refine .inr ⟨hout, hn, ?_⟩
      rcases hrest loc ho with he | ⟨-, content', more, mode', -, ha⟩
      · exact ⟨content, mode, he.trans hf⟩
      · exact ⟨content' ++ more, mode', ha⟩

theorem fuller (h : Shared outputs logs fs fs') : Fuller fs fs' := by
  intro loc
  rcases h loc with (he | ⟨-, content, more, mode, hb, ha⟩) | ⟨-, hn, hf⟩
  · exact .inl he
  · exact .inr ⟨.inr ⟨content, mode, hb⟩, content ++ more, mode, ha⟩
  · exact .inr ⟨.inl hn, hf⟩

/-- Where no output has a place, only the log grows. -/
theorem grown_of_none (h : Shared outputs logs fs fs') (hn : ∀ loc, ¬outputs loc) :
    Grown logs fs fs' :=
  fun loc => (h loc).resolve_right fun ho => hn loc ho.1

end Files.Shared

-- ---------------------------------------------------------------------------
-- Places of outputs
-- ---------------------------------------------------------------------------

namespace Frontend

variable {f : Frontend} {s t : Session} {n k : Nat} {loc : Location}

/-- The directory in which the outputs of a frontend are. -/
def directoryIn (f : Frontend) (s : Session) : Option Path :=
  f.configuration.paths.temporary.or s.room?

/-- The path of the output whose name is given out next but some. -/
def outputIn (s : Session) (directory : Path) (k : Nat) : Path :=
  fileIn directory (s.machine.serial + k) outputEnding

/-- The place of an output in a session. -/
def Place (f : Frontend) (s : Session) (k : Nat) (loc : Location) : Prop :=
  ∃ directory, f.directoryIn s = some directory ∧
    s.machine.files.resolve s.machine.here false (outputIn s directory k).toString = .ok loc

/-- A place that one of several outputs has. -/
def PlaceOf (f : Frontend) (s : Session) (n : Nat) (loc : Location) : Prop :=
  ∃ k < n, f.Place s k loc

theorem place_iff (hd : f.directoryIn s = some directory) : f.Place s k loc ↔
    s.machine.files.resolve s.machine.here false (outputIn s directory k).toString = .ok loc := by
  refine ⟨fun ⟨_, hd', hl⟩ => ?_, fun hl => ⟨directory, hd, hl⟩⟩
  cases hd.symm.trans hd'
  exact hl

/-- Outputs of different names have different places. -/
theorem place_unique (hi : f.Place s i loc) (hj : f.Place s j loc) :
    Machine.nameOf (s.machine.serial + i) = Machine.nameOf (s.machine.serial + j) := by
  obtain ⟨directory, hd, hi⟩ := hi
  rw [place_iff hd] at hj
  rw [outputIn] at hi hj
  rcases resolve_fileIn s.machine.files s.machine.here directory with ⟨e, he⟩ | ⟨d, hd⟩
  · rw [he] at hi
    cases hi
  · rw [hd] at hi hj
    have hname := (Except.ok.inj hi).trans (Except.ok.inj hj).symm
    have hlast := List.cons.inj (List.append_cancel_left hname)
    exact nameOf_eq_of_outputName_eq (String.ofList_injective hlast.1)

-- ---------------------------------------------------------------------------
-- Sessions
-- ---------------------------------------------------------------------------

end Frontend

/-- A session once some more names were given out. -/
def Session.skip (s : Session) (k : Nat) : Session :=
  { s with machine := { s.machine with serial := s.machine.serial + k } }

namespace Frontend

variable {f : Frontend} {s t : Session} {n : Nat}

/-- A session in which up to `n` calls are under way that began in another one. -/
structure Amid (f : Frontend) (n : Nat) (s t : Session) : Prop where
  bundle : t.bundle = s.bundle
  log : t.log = s.log
  machine : t.machine = { s.machine with files := t.machine.files, serial := t.machine.serial }
  files : Files.Shared (f.PlaceOf s n) s.log.files s.machine.files t.machine.files
  temporary : t.temporary = s.temporary ∨ t.temporary = s.room?
  schemas : ∀ file, t.schemas.lookup file = s.schemas.lookup file ∨
    s.schemas.lookup file = none ∧ ∃ c, s.compilation file = .ok c ∧
      t.schemas.lookup file = some c.schema

namespace Amid

theorem refl (s : Session) : Amid f n s s :=
  ⟨rfl, rfl, rfl, .refl _ _ _, .inl rfl, fun _ => .inl rfl⟩

variable (h : Amid f n s t)
include h

theorem here : t.machine.here = s.machine.here := by rw [h.machine]

theorem room : t.room? = s.room? := by
  have hsame : t.machine.temporaryDirectory? = s.machine.temporaryDirectory? := by
    rw [h.machine]
    exact h.files.fuller.temporaryDirectory? s.machine rfl
  unfold Session.room?
  rw [hsame]
  rcases h.temporary with ht | ht
  · rw [ht]
  · rw [ht, Session.room?]
    cases s.temporary with
    | some d => rfl
    | none =>
      dsimp only [Option.none_or]
      cases s.machine.temporaryDirectory? <;> rfl

theorem schemaIn : f.schemaIn t = f.schemaIn s := by
  rw [Frontend.schemaIn, Frontend.schemaIn, Session.bundledSchema, Session.bundledSchema, h.bundle]

/-- The path of an output leads where it led before the calls, or nowhere for the same reason. -/
theorem resolve (k : Nat) (hd : f.directoryIn s = some directory) :
    t.machine.files.resolve s.machine.here false (outputIn s directory k).toString =
      s.machine.files.resolve s.machine.here false (outputIn s directory k).toString := by
  rcases resolve_fileIn s.machine.files s.machine.here directory with ⟨e, he⟩ | ⟨d, hok⟩
  · -- None of the outputs has a place, so there are no files that were not there before.
    have hnone (loc : Location) : ¬f.PlaceOf s n loc := by
      rintro ⟨j, -, hp⟩
      rw [place_iff hd, outputIn, he] at hp
      cases hp
    exact (h.files.grown_of_none hnone).twin.resolve
  · rw [outputIn, hok]
    exact h.files.fuller.resolve_ok (hok _)

theorem change_files {fs : Files} {own : Location → Prop} {e : Option (Bytes × Nat)}
    (hown : ∀ loc, own loc →
      f.PlaceOf s n loc ∧ s.machine.files.get? loc = none ∧ fs.get? loc = fileEntry? e)
    (hrest : ∀ loc, ¬own loc → Files.GrownAt s.log.files t.machine.files fs loc) :
    Amid f n s (t.withFiles fs) :=
  ⟨h.bundle, h.log, by rw [Session.withFiles, h.machine], h.files.change hown hrest, h.temporary,
    h.schemas⟩

theorem logged (ht : Session.Logged t t') : Amid f n s t' := by
  have hgrown := ht.files
  rw [h.log] at hgrown
  refine ⟨?_, ht.log.trans h.log, ?_, h.files.grown hgrown, ?_, ?_⟩
  · rw [ht.rest, ← h.bundle]
  · rw [ht.rest]
    dsimp only
    rw [h.machine]
  · rw [ht.temporary]
    exact h.temporary
  · rw [ht.schemas]
    exact h.schemas

theorem settle : Amid f n s { t with temporary := t.room? } :=
  ⟨h.bundle, h.log, h.machine, h.files, .inr h.room, h.schemas⟩

theorem settled (file : Location) : Amid f n s (t.settled file) := by
  unfold Session.settled
  split
  · exact h.settle
  · exact h

theorem skip (k : Nat) : Amid f n s (t.skip k) :=
  ⟨h.bundle, h.log, by rw [Session.skip, h.machine], h.files, h.temporary, h.schemas⟩

/-- A schema is compiled to what it would be compiled to before the calls. -/
theorem compilation (file : Location) :
    t.compilation file = (s.withFiles t.machine.files).compilation file := by
  have before : Amid f n s (s.withFiles t.machine.files) :=
    ⟨rfl, rfl, rfl, h.files, .inl rfl, fun _ => .inl rfl⟩
  have hfiles : t.machine.files = (s.withFiles t.machine.files).machine.files := rfl
  have hhere : t.machine.here = (s.withFiles t.machine.files).machine.here := h.here
  have hroom : t.room? = (s.withFiles t.machine.files).room? := h.room.trans before.room.symm
  exact Session.compilation_congr hfiles hhere h.bundle hroom file

/-- The schema that was compiled from a file is kept by a session amid calls as by one before. -/
theorem keep (hn : t.schemas.lookup file = none) (hc : s.compilation file = .ok c) :
    Amid f n s (Act.kept file c t) := by
  have hr := h.logged (.record t (Act.compiled file c))
  refine ⟨hr.bundle, hr.log, hr.machine, hr.files, hr.temporary, fun other => ?_⟩
  rw [Act.kept_schemas, SchemaStore.lookup_insert hn]
  by_cases ho : other = file
  · subst ho
    rw [hn, Option.none_or, if_pos rfl]
    refine .inr ⟨?_, c, hc, rfl⟩
    rcases h.schemas other with he | ⟨hs, -⟩
    · rw [← he, hn]
    · exact hs
  · rw [if_neg ho, Option.or_none]
    exact h.schemas other

end Amid

-- ---------------------------------------------------------------------------
-- Loading the schema
-- ---------------------------------------------------------------------------

/-- The place of the schema. -/
def schemaPlace? (f : Frontend) (s : Session) : Option Location :=
  s.machine.files.canonical? s.machine.here (Path.ofText (f.schemaIn s).toText).toString

/-- Whatever files the calls leave meanwhile, the compiler makes the same of the schema. -/
def Steady (f : Frontend) (s : Session) (n : Nat) : Prop :=
  ∀ file, f.schemaPlace? s = some file → s.schemas.lookup file = none →
    ∀ fs, Files.Shared (f.PlaceOf s n) s.log.files s.machine.files fs →
      (s.withFiles fs).compilation file = s.compilation file

/-- What comes of loading the schema. -/
def schemaOf (f : Frontend) (s : Session) : Except Failure Schema :=
  match f.schemaPlace? s with
  | none => .error (.schema .endless)
  | some file =>
    match s.schemas.lookup file with
    | some schema => .ok schema
    | none => (s.compilation file).map (·.schema)

theorem Amid.compile (h : Amid f n s t) (hn : t.schemas.lookup file = none)
    (hsame : t.compilation file = s.compilation file) :
    (Act.compile file t).1 = (s.compilation file).map (·.schema) ∧
      Amid f n s (Act.compile file t).2 := by
  refine ⟨by rw [Act.compile_fst, hsame], ?_⟩
  cases hc : s.compilation file with
  | error e =>
    rw [Act.compile_snd_error (hsame.trans hc)]
    exact h.settled file
  | ok c =>
    rw [Act.compile_snd_ok (hsame.trans hc)]
    exact (h.settled file).keep (by rw [Act.settled_schemas, hn]) hc

theorem schemaOf_known {schema : Schema} (hfile : f.schemaPlace? s = some file)
    (hl : s.schemas.lookup file = some schema) : f.schemaOf s = .ok schema := by
  rw [schemaOf, hfile]
  dsimp only
  rw [hl]

theorem schemaOf_new (hfile : f.schemaPlace? s = some file) (hl : s.schemas.lookup file = none) :
    f.schemaOf s = (s.compilation file).map (·.schema) := by
  rw [schemaOf, hfile]
  dsimp only
  rw [hl]

theorem Amid.loadSchema (hs : f.Steady s n) (h : Amid f n s t) :
    (Act.loadSchema (f.schemaIn s).toText t).1 = f.schemaOf s ∧
      Amid f n s (Act.loadSchema (f.schemaIn s).toText t).2 := by
  have hplace : t.machine.files.canonical? t.machine.here
      (Path.ofText (f.schemaIn s).toText).toString = f.schemaPlace? s := by
    rw [h.here, h.files.fuller.canonical?, schemaPlace?]
  cases hfile : f.schemaPlace? s with
  | none =>
    rw [Act.run_loadSchema_nowhere (hplace.trans hfile), schemaOf, hfile]
    exact ⟨rfl, h⟩
  | some file =>
    rcases h.schemas file with he | ⟨hn, c, hc, he⟩
    · cases hl : s.schemas.lookup file with
      | some schema =>
        rw [Act.run_loadSchema_known (hplace.trans hfile) (he.trans hl), schemaOf_known hfile hl]
        exact ⟨rfl, h⟩
      | none =>
        rw [Act.run_loadSchema_new (hplace.trans hfile) (he.trans hl), schemaOf_new hfile hl]
        exact h.compile (he.trans hl) ((h.compilation file).trans (hs file hfile hl _ h.files))
    · rw [Act.run_loadSchema_known (hplace.trans hfile) he, schemaOf_new hfile hn, hc]
      exact ⟨rfl, h⟩

end Frontend

end Treewire
