import Treewire.Machine.Edit
import Treewire.Proofs.Compiling
import Treewire.Proofs.Fetching

/-!
# What a session remembers

A session keeps every schema that it compiled, under the place that the path led to. Nothing else of a
load is remembered, except for one thing: the first compiler settles on a directory for temporary
files, and later ones keep to it, even if it is gone by then.
-/

namespace Treewire

-- ---------------------------------------------------------------------------
-- Sessions
-- ---------------------------------------------------------------------------

/-- Something that happens in a session. -/
inductive Event where
  /-- Somebody writes or removes a file, sets a link, goes to another directory, or is refused. -/
  | edit (operation : Machine → Except FileError Machine)
  | load (path : Text) (name : String)
  | decode (data : Bytes) (path : Text)
  | parse (launcher : Launcher) (f : Frontend) (file : Text)

/-- Where a path leads in a session. -/
def Session.place? (s : Session) (path : Text) : Option Location :=
  s.machine.files.canonical? s.machine.here (Path.ofText path).toString

/-- A schema that is to be loaded by its path. -/
structure Load where
  path : Text
  session : Session

namespace Load

def place? (l : Load) : Option Location := l.session.place? l.path

def outcome (l : Load) : Except Failure Schema := (Act.loadSchema l.path l.session).1

def after (l : Load) : Session := (Act.loadSchema l.path l.session).2

end Load

namespace Event

/-- The session after an event. -/
def run : Event → Session → Session
  | edit operation, s =>
    match operation s.machine with
    | .ok machine => { s with machine }
    | .error _ => s
  | load path name, s => (Act.loadMessageType path name s).2
  | decode data path, s => (Act.decodeTree data path s).2
  | parse launcher f file, s => (f.parse launcher file s).2

/-- The load in an event, in the session in which it begins. -/
def load? : Event → Session → Option Load
  | edit _, _ => none
  | load path _, s | decode _ path, s => some ⟨path, s⟩
  | parse launcher f file, s =>
    match f.fetch launcher file s with
    | (.ok (path, _), t) => some ⟨path, t⟩
    | (.error _, _) => none

end Event

namespace Session

/-- The session after some events. -/
def afterAll (s : Session) (events : List Event) : Session := events.foldl (fun s e => e.run s) s

/-- All loads in some events, first one first. -/
def loads (s : Session) : List Event → List Load
  | [] => []
  | e :: rest => (e.load? s).toList ++ (e.run s).loads rest

end Session

-- ---------------------------------------------------------------------------
-- One load
-- ---------------------------------------------------------------------------

namespace Load

variable {l : Load} {file other : Location} {schema : Schema} {failure : Failure}

theorem run_nowhere (hp : l.place? = none) :
    l.outcome = .error (.schema .endless) ∧ l.after = l.session := by
  rw [outcome, after, Act.run_loadSchema_nowhere hp]
  exact ⟨rfl, rfl⟩

theorem run_known (hp : l.place? = some file) (hl : l.session.schemas.lookup file = some schema) :
    l.outcome = .ok schema ∧ l.after = l.session := by
  rw [outcome, after, Act.run_loadSchema_known hp hl]
  exact ⟨rfl, rfl⟩

theorem run_new (hp : l.place? = some file) (hl : l.session.schemas.lookup file = none) :
    l.outcome = (l.session.compilation file).map (·.schema) ∧
      l.after = (Act.compile file l.session).2 := by
  rw [outcome, after, Act.run_loadSchema_new hp hl, Act.compile_fst]
  exact ⟨rfl, rfl⟩

/-- What is kept after a new load: what was kept before, and the schema if there is one. -/
theorem lookup_after (hp : l.place? = some file) (hl : l.session.schemas.lookup file = none) :
    l.after.schemas.lookup other = (l.session.schemas.lookup other).or
      (if other = file then l.outcome.toOption else none) := by
  obtain ⟨houtcome, hafter⟩ := run_new hp hl
  rw [houtcome, hafter]
  cases hc : l.session.compilation file with
  | error e =>
    rw [Act.compile_snd_error hc, Act.settled_schemas]
    simp [Except.map, Except.toOption]
  | ok c =>
    have hnone : (l.session.settled file).schemas.lookup file = none := by
      rw [Act.settled_schemas, hl]
    rw [Act.compile_snd_ok hc, Act.kept_schemas, SchemaStore.lookup_insert hnone,
      Act.settled_schemas]
    rfl

/-- What is kept stays. -/
theorem stays (hl : l.session.schemas.lookup other = some schema) :
    l.after.schemas.lookup other = some schema := by
  cases hp : l.place? with
  | none => rwa [(run_nowhere hp).2]
  | some file =>
    cases hf : l.session.schemas.lookup file with
    | some known => rwa [(run_known hp hf).2]
    | none => rw [lookup_after hp hf, hl, Option.some_or]

/-- What a load gives is kept under the place of its path. -/
theorem keeps (hp : l.place? = some file) (ho : l.outcome = .ok schema) :
    l.after.schemas.lookup file = some schema := by
  cases hf : l.session.schemas.lookup file with
  | some known =>
    obtain ⟨houtcome, hafter⟩ := run_known hp hf
    rw [hafter, hf, ← Except.ok.inj (houtcome.symm.trans ho)]
  | none =>
    rw [lookup_after hp hf, hf, ho, if_pos rfl]
    rfl

/-- A load changes nothing that is kept under another place. -/
theorem others (hp : l.place? ≠ some other) :
    l.after.schemas.lookup other = l.session.schemas.lookup other := by
  cases hplace : l.place? with
  | none => rw [(run_nowhere hplace).2]
  | some file =>
    have hne : other ≠ file := fun he => hp (he ▸ hplace)
    cases hf : l.session.schemas.lookup file with
    | some known => rw [(run_known hplace hf).2]
    | none => rw [lookup_after hplace hf, if_neg hne, Option.or_none]

/-- A load that fails changes nothing, but that it may settle on a directory for temporary files. -/
theorem fails (ho : l.outcome = .error failure) :
    l.after = l.session ∨ l.after = { l.session with temporary := l.session.room? } := by
  cases hp : l.place? with
  | none => exact .inl (run_nowhere hp).2
  | some file =>
    cases hf : l.session.schemas.lookup file with
    | some known => exact .inl (run_known hp hf).2
    | none =>
      obtain ⟨houtcome, hafter⟩ := run_new hp hf
      cases hc : l.session.compilation file with
      | ok c =>
        rw [houtcome, hc] at ho
        cases ho
      | error e =>
        rw [hafter, Act.compile_snd_error hc, Session.settled]
        split
        · exact .inr rfl
        · exact .inl rfl

theorem log_after (l : Load) : l.after.log = l.session.log :=
  (Session.KeepsFiles.loadSchema l.session l.path).log

/-- In a session whose log is not set up, a load changes nothing but what is kept, and perhaps settles
on a directory for temporary files. -/
theorem after_quiet (hlog : l.session.log = .initial) :
    l.after = l.session.withSchemas l.after.schemas ∨
      l.after = { l.session.withSchemas l.after.schemas with temporary := l.session.room? } := by
  have hsettled (file : Location) : l.session.settled file = l.session ∨
      l.session.settled file = { l.session with temporary := l.session.room? } := by
    rw [Session.settled]
    split
    · exact .inr rfl
    · exact .inl rfl
  cases hp : l.place? with
  | none =>
    rw [(run_nowhere hp).2]
    exact .inl rfl
  | some file =>
    cases hf : l.session.schemas.lookup file with
    | some known =>
      rw [(run_known hp hf).2]
      exact .inl rfl
    | none =>
      rw [(run_new hp hf).2]
      cases hc : l.session.compilation file with
      | error e =>
        rw [Act.compile_snd_error hc]
        exact (hsettled file).imp (fun h => by rw [h]; rfl) fun h => by rw [h]; rfl
      | ok c =>
        rw [Act.compile_snd_ok hc]
        rcases hsettled file with h | h
        · rw [h, Act.kept, Session.record, hlog]
          exact .inl rfl
        · rw [h, Act.kept, Session.record, hlog]
          exact .inr rfl

theorem quiet (hlog : l.session.log = .initial) (hd : l.session.temporary = some directory) :
    l.after = l.session.withSchemas l.after.schemas := by
  rcases after_quiet hlog with h | h
  · exact h
  · rw [Session.room?, hd, Option.some_or, ← hd] at h
    exact h

/-- A schema that is loaded once more is what it was, or it fails for the same reason. -/
theorem outcome_again (hlog : l.session.log = .initial) :
    (Load.mk l.path l.after).outcome = l.outcome := by
  have hplace : (Load.mk l.path l.after).place? = l.place? := by
    rw [place?, Session.place?]
    rcases after_quiet hlog with h | h <;> rw [h] <;> rfl
  cases hp : l.place? with
  | none => rw [(run_nowhere hp).1, (run_nowhere (hplace.trans hp)).1]
  | some file =>
    cases ho : l.outcome with
    | ok schema => exact (run_known (hplace.trans hp) (keeps hp ho)).1
    | error failure =>
      have hnone : l.session.schemas.lookup file = none := by
        cases hl : l.session.schemas.lookup file with
        | none => rfl
        | some known =>
          rw [(run_known hp hl).1] at ho
          cases ho
      have hroom : l.after.room? = l.session.room? := by
        rcases fails ho with h | h
        · rw [h]
        · rw [h]
          exact Session.room?_settled l.session
      have hcompilation : l.after.compilation file = l.session.compilation file := by
        rcases fails ho with h | h
        · rw [h]
        · have hmachine : l.after.machine = l.session.machine := by rw [h]
          have hbundle : l.after.bundle = l.session.bundle := by rw [h]
          exact Session.compilation_congr (by rw [hmachine]) (by rw [hmachine]) hbundle hroom file
      have hnone' : l.after.schemas.lookup file = none := by
        rcases fails ho with h | h <;> rw [h] <;> exact hnone
      rw [(run_new (hplace.trans hp) hnone').1, ← ho, (run_new hp hnone).1, hcompilation]

end Load

-- ---------------------------------------------------------------------------
-- One event
-- ---------------------------------------------------------------------------

namespace Session

/-- What an event without a load leaves as it is, and what happens before a load. -/
structure Undisturbed (s t : Session) : Prop where
  schemas : t.schemas = s.schemas
  log : t.log = s.log
  settled : ∀ directory, s.temporary = some directory → t.temporary = some directory

theorem Undisturbed.refl (s : Session) : Undisturbed s s := ⟨rfl, rfl, fun _ hd => hd⟩

theorem Undisturbed.of_blind {act : Act α} (h : act.Blind) (s : Session) :
    Undisturbed s (act s).2 :=
  ⟨h.schemas s, h.log s, h.settled s⟩

end Session

namespace Event

variable {e : Event} {s : Session} {l : Load}

theorem run_of_load (h : e.load? s = some l) :
    Session.Undisturbed s l.session ∧ e.run s = l.after := by
  cases e with
  | edit operation => cases h
  | load path name =>
    cases h
    exact ⟨.refl s, by rw [run, Act.run_loadMessageType]; rfl⟩
  | decode data path =>
    cases h
    exact ⟨.refl s, by rw [run, Act.decodeTree_snd]; rfl⟩
  | parse launcher f file =>
    have hbefore := Session.Undisturbed.of_blind (Frontend.fetch_blind launcher f file) s
    rw [run, Frontend.parse_eq, Act.run_bind]
    rw [load?] at h
    generalize f.fetch launcher file s = fetched at h hbefore
    obtain ⟨failure | ⟨path, data⟩, t⟩ := fetched
    · cases h
    · cases h
      exact ⟨hbefore, Act.decodeTree_snd data path⟩

theorem run_of_no_load (h : e.load? s = none) : Session.Undisturbed s (e.run s) := by
  cases e with
  | edit operation =>
    rw [run]
    split
    · exact ⟨rfl, rfl, fun _ hd => hd⟩
    · exact .refl s
  | load path name => cases h
  | decode data path => cases h
  | parse launcher f file =>
    have hbefore := Session.Undisturbed.of_blind (Frontend.fetch_blind launcher f file) s
    rw [run, Frontend.parse_eq, Act.run_bind]
    rw [load?] at h
    generalize f.fetch launcher file s = fetched at h hbefore
    obtain ⟨failure | ⟨path, data⟩, t⟩ := fetched
    · exact hbefore
    · cases h

end Event

-- ---------------------------------------------------------------------------
-- All loads
-- ---------------------------------------------------------------------------

namespace Session

variable {s : Session} {file : Location} {schema : Schema} {l : Load}

/-- To prove something of sessions and the events in them, it is enough to look at one event. -/
theorem loads_induction {motive : Session → List Event → Prop}
    (nil : ∀ s, motive s [])
    (other : ∀ s t e rest, e.load? s = none → e.run s = t → Undisturbed s t →
      t.loads rest = s.loads (e :: rest) → motive t rest → motive s (e :: rest))
    (load : ∀ s e rest l, e.load? s = some l → e.run s = l.after → Undisturbed s l.session →
      l :: l.after.loads rest = s.loads (e :: rest) → motive l.after rest → motive s (e :: rest))
    (s : Session) (events : List Event) : motive s events := by
  induction events generalizing s with
  | nil => exact nil s
  | cons e rest ih =>
    cases hl : e.load? s with
    | none =>
      refine other s _ e rest hl rfl (Event.run_of_no_load hl) ?_ (ih _)
      rw [loads, hl]
      rfl
    | some l =>
      obtain ⟨hbefore, hrun⟩ := Event.run_of_load hl
      refine load s e rest l hl hrun hbefore ?_ (ih _)
      rw [loads, hl, hrun]
      rfl

end Session

-- ---------------------------------------------------------------------------
-- Sessions that keep different schemas of one file
-- ---------------------------------------------------------------------------

/-- The same schemas, but perhaps those of one file. -/
def SchemaStore.AgreeOff (file : Location) (xs ys : SchemaStore) : Prop :=
  ∀ other, other ≠ file → ys.lookup other = xs.lookup other

namespace Load

variable {l : Load} {file : Location} {schemas : SchemaStore}

/-- The same load in a session that keeps other schemas. -/
def withSchemas (l : Load) (schemas : SchemaStore) : Load := ⟨l.path, l.session.withSchemas schemas⟩

/-- What can be seen of a load by one who does not look at the loads of a file. -/
def seenOff (file : Location) (l : Load) : Text × Option Location × Option (Except Failure Schema) :=
  (l.path, l.place?, if l.place? = some file then none else some l.outcome)

theorem place?_withSchemas (l : Load) (schemas : SchemaStore) :
    (l.withSchemas schemas).place? = l.place? := rfl

theorem outcome_withSchemas (h : l.session.schemas.AgreeOff file schemas)
    (hp : l.place? ≠ some file) : (l.withSchemas schemas).outcome = l.outcome := by
  cases hplace : l.place? with
  | none =>
    have hplace' := (place?_withSchemas l schemas).trans hplace
    rw [(run_nowhere hplace).1, (run_nowhere hplace').1]
  | some other =>
    have hplace' := (place?_withSchemas l schemas).trans hplace
    have hsame : schemas.lookup other = l.session.schemas.lookup other :=
      h other fun he => hp (he ▸ hplace)
    cases hl : l.session.schemas.lookup other with
    | some schema => rw [(run_known hplace hl).1, (run_known hplace' (hsame.trans hl)).1]
    | none =>
      have hcompilation : (l.withSchemas schemas).session.compilation other =
          l.session.compilation other := Session.compilation_congr rfl rfl rfl rfl other
      rw [(run_new hplace hl).1, (run_new hplace' (hsame.trans hl)).1, hcompilation]

theorem seenOff_withSchemas (h : l.session.schemas.AgreeOff file schemas) :
    (l.withSchemas schemas).seenOff file = l.seenOff file := by
  unfold seenOff
  rw [place?_withSchemas]
  by_cases hp : l.place? = some file
  · rw [if_pos hp, if_pos hp]
    rfl
  · rw [if_neg hp, if_neg hp, outcome_withSchemas h hp]
    rfl

theorem agreeOff_after (h : l.session.schemas.AgreeOff file schemas) :
    l.after.schemas.AgreeOff file (l.withSchemas schemas).after.schemas := by
  intro other hne
  by_cases hp : l.place? = some other
  · have hp' := (place?_withSchemas l schemas).trans hp
    have hsame : schemas.lookup other = l.session.schemas.lookup other := h other hne
    cases hl : l.session.schemas.lookup other with
    | some schema => rw [stays hl, stays (hsame.trans hl)]
    | none =>
      have hfile : l.place? ≠ some file := fun he => hne (Option.some.inj (hp.symm.trans he))
      rw [lookup_after hp hl, lookup_after hp' (hsame.trans hl), outcome_withSchemas h hfile, hl]
      exact congrArg (Option.or · _) (hsame.trans hl)
  · have hp' : (l.withSchemas schemas).place? ≠ some other := hp
    rw [others hp, others hp']
    exact h other hne

end Load

namespace Event

theorem load?_withSchemas (e : Event) (s : Session) (schemas : SchemaStore) :
    e.load? (s.withSchemas schemas) = (e.load? s).map (·.withSchemas schemas) := by
  cases e with
  | parse launcher f file =>
    rw [load?, load?, (Frontend.fetch_blind launcher f file).blind]
    rcases f.fetch launcher file s with ⟨failure | ⟨path, data⟩, t⟩ <;> rfl
  | _ => rfl

theorem run_withSchemas {e : Event} {s : Session} (h : e.load? s = none) (schemas : SchemaStore) :
    e.run (s.withSchemas schemas) = (e.run s).withSchemas schemas := by
  cases e with
  | edit operation =>
    have hm : (s.withSchemas schemas).machine = s.machine := rfl
    rw [run, run, hm]
    cases operation s.machine <;> rfl
  | load path name => cases h
  | decode data path => cases h
  | parse launcher f file =>
    rw [load?] at h
    rw [run, run, Frontend.parse_eq, Act.run_bind, Act.run_bind,
      (Frontend.fetch_blind launcher f file).blind]
    generalize f.fetch launcher file s = fetched at h
    obtain ⟨failure | ⟨path, data⟩, t⟩ := fetched
    · rfl
    · cases h

end Event

/-- What is kept of a file cannot be seen in the loads of other files. -/
theorem Session.loads_withSchemas {s : Session} {directory : Path} {schemas : SchemaStore}
    (hlog : s.log = .initial) (hd : s.temporary = some directory) (h : s.schemas.AgreeOff file schemas)
    (events : List Event) : ((s.withSchemas schemas).loads events).map (Load.seenOff file) =
      (s.loads events).map (Load.seenOff file) := by
  induction s, events using loads_induction generalizing schemas with
  | nil s => rfl
  | other s t e rest hl hr hu hloads ih =>
    rw [← hloads, loads, Event.load?_withSchemas, hl, Event.run_withSchemas hl, hr]
    exact ih (hu.log.trans hlog) (hu.settled directory hd) (hu.schemas ▸ h)
  | load s e rest l hl hr hu hloads ih =>
    have hl' : e.load? (s.withSchemas schemas) = some (l.withSchemas schemas) := by
      rw [Event.load?_withSchemas, hl]
      rfl
    have hagree : l.session.schemas.AgreeOff file schemas := hu.schemas ▸ h
    have hquiet := Load.quiet (hu.log.trans hlog) (hu.settled directory hd)
    have hquiet' := Load.quiet (l := l.withSchemas schemas) (hu.log.trans hlog)
      (hu.settled directory hd)
    have hafter : (l.withSchemas schemas).after =
        l.after.withSchemas (l.withSchemas schemas).after.schemas := by
      rw [hquiet', hquiet]
      rfl
    have hsettled : l.after.temporary = some directory := by
      rw [hquiet]
      exact hu.settled directory hd
    have hrest := ih ((Load.log_after l).trans (hu.log.trans hlog)) hsettled
      (Load.agreeOff_after hagree)
    rw [← hloads, loads, hl', (Event.run_of_load hl').2, hafter, Option.toList_some,
      List.singleton_append, List.map_cons, List.map_cons, Load.seenOff_withSchemas hagree, hrest]

end Treewire
