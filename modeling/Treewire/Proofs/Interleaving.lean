import Treewire.Proofs.Amid
import Treewire.Proofs.Stepping

/-!
# Calls side by side

Calls that share a session take their steps in any order. Each comes to what it comes to alone, if
their names are fresh, if the script uses nothing but its own files, and if the schema stays as it is.
-/

namespace Treewire

namespace Frontend

variable {launcher : Launcher} {f : Frontend} {s t t' : Session} {n k : Nat}
  {e : Option (Bytes × Nat)} {directory : Path}

-- ---------------------------------------------------------------------------
-- What one call has to itself
-- ---------------------------------------------------------------------------

/-- What is at the place of an output. -/
def Holds (f : Frontend) (s : Session) (k : Nat) (e : Option (Bytes × Nat)) (fs : Files) : Prop :=
  ∀ loc, f.Place s k loc → fs.get? loc = fileEntry? e

/-- A script that uses nothing but what is its own: whatever other files there are, a command ends
in one way and leaves one thing at the place of its output, and it leaves all else as it is. -/
def Confined (launcher : Launcher) (f : Frontend) (s : Session) (n k : Nat) (command : List Text) :
    Prop :=
  ∃ finish e, ∀ m : Machine, m = { s.machine with files := m.files, serial := m.serial } →
    Files.Shared (f.PlaceOf s n) s.log.files s.machine.files m.files → f.Holds s k none m.files →
    (launcher.obey f.configuration.timeout m (command.map Text.toStringLossy)).1 = finish ∧
    f.Holds s k e (launcher.obey f.configuration.timeout m (command.map Text.toStringLossy)).2 ∧
    ∀ loc, ¬f.Place s k loc →
      (launcher.obey f.configuration.timeout m (command.map Text.toStringLossy)).2.get? loc =
        m.files.get? loc

/-- Calls that may be made side by side. -/
structure Apart (launcher : Launcher) (f : Frontend) (files : Fin n → Text) (s : Session) :
    Prop where
  /-- The names given out are distinct. -/
  distinct : ∀ i < n, ∀ j < n,
    Machine.nameOf (s.machine.serial + i) = Machine.nameOf (s.machine.serial + j) → i = j
  /-- They are not in use. -/
  unused : ∀ k < n, ∀ loc, f.Place s k loc → s.machine.files.get? loc = none ∧ loc ∉ s.log.files
  /-- The script reads only its schema and its source, and writes only its output. -/
  confined : ∀ i, ∀ k < n, ∀ directory, f.directoryIn s = some directory →
    Confined launcher f s n k (f.command (f.schemaIn s) (outputIn s directory k) (files i))
  /-- The schema and what it imports stay as they are. -/
  steady : f.Steady s n

/-- One step of a call, from one session to the next. -/
structure Moved (f : Frontend) (s : Session) (n k : Nat) (e : Option (Bytes × Nat))
    (t t' : Session) : Prop where
  amid : Amid f n s t'
  own : f.Holds s k e t'.machine.files
  others : ∀ loc, ¬f.Place s k loc →
    Files.GrownAt s.log.files t.machine.files t'.machine.files loc
  serial : t'.machine.serial = t.machine.serial

namespace Moved

variable (hv : ∀ loc, f.Place s k loc → s.machine.files.get? loc = none ∧ loc ∉ s.log.files)

theorem refl (h : Amid f n s t) (ho : f.Holds s k e t.machine.files) : Moved f s n k e t t :=
  ⟨h, ho, fun _ _ => .inl rfl, rfl⟩

theorem trans (h : Moved f s n k e t t') (h' : Moved f s n k e' t' t'') :
    Moved f s n k e' t t'' :=
  ⟨h'.amid, h'.own, fun loc hn => (h.others loc hn).trans (h'.others loc hn),
    h'.serial.trans h.serial⟩

include hv in
theorem of_keeps (h : Amid f n s t) (ho : f.Holds s k e t.machine.files) (h' : Amid f n s t')
    (hk : Session.KeepsFiles t t') : Moved f s n k e t t' := by
  have hgrown := hk.files
  rw [h.log] at hgrown
  refine ⟨h', fun loc hp => ?_, fun loc _ => hgrown loc, ?_⟩
  · rw [(hgrown loc).eq (hv loc hp).2]
    exact ho loc hp
  · rw [hk.machine]

include hv in
theorem of_logged (h : Amid f n s t) (ho : f.Holds s k e t.machine.files)
    (hl : Session.Logged t t') : Moved f s n k e t t' :=
  of_keeps hv h ho (h.logged hl) (.of_logged hl)

include hv in
theorem of_files (hk : k < n) (h : Amid f n s t) (ho : f.Holds s k e fs)
    (hrest : ∀ loc, ¬f.Place s k loc → fs.get? loc = t.machine.files.get? loc) :
    Moved f s n k e t (t.withFiles fs) := by
  refine ⟨h.change_files (e := e) (fun loc hp => ?_) fun loc hn => .inl (hrest loc hn),
    ho, fun loc hn => .inl (hrest loc hn), rfl⟩
  exact ⟨⟨k, hk, hp⟩, (hv loc hp).1, ho loc hp⟩

end Moved

-- ---------------------------------------------------------------------------
-- The output of a call
-- ---------------------------------------------------------------------------

/-- What comes of reading an output, by what its path leads to and what is there. -/
def readAt (place : Except FileError Location) (e : Option (Bytes × Nat)) : Except FileError Bytes :=
  match place, e with
  | .error err, _ => .error err
  | .ok _, none => .error .noEntry
  | .ok _, some (content, _) => .ok content

theorem read_output (h : Amid f n s t) (hd : f.directoryIn s = some directory)
    (ho : f.Holds s k e t.machine.files) :
    t.machine.files.read t.machine.here (outputIn s directory k).toString =
      readAt (s.machine.files.resolve s.machine.here false (outputIn s directory k).toString) e := by
  have hr := h.resolve k hd
  rw [h.here, Files.read, Files.stat_eq]
  cases hp : s.machine.files.resolve s.machine.here false (outputIn s directory k).toString with
  | error err =>
    rw [hp] at hr
    rw [Files.resolve_follow_error hr]
    rfl
  | ok loc =>
    rw [hp] at hr
    have hget := ho loc ((place_iff hd).mpr hp)
    have hlink (target : String) : t.machine.files.get? loc ≠ some (.link target) := by
      rw [hget]
      rcases e with _ | ⟨content, mode⟩ <;> exact nofun
    rw [Files.resolve_follow hr hlink]
    dsimp only
    rw [hget]
    rcases e with _ | ⟨content, mode⟩ <;> rfl

theorem unlink_output (h : Amid f n s t) (hd : f.directoryIn s = some directory)
    (ho : f.Holds s k e t.machine.files) :
    t.machine.files.unlink t.machine.here (outputIn s directory k).toString =
      match s.machine.files.resolve s.machine.here false (outputIn s directory k).toString, e with
      | .error err, _ => .error err
      | .ok _, none => .error .noEntry
      | .ok loc, some _ => .ok (t.machine.files.erase loc) := by
  rw [h.here, Files.unlink_eq, h.resolve k hd]
  cases hp : s.machine.files.resolve s.machine.here false (outputIn s directory k).toString with
  | error err => rfl
  | ok loc =>
    dsimp only
    rw [ho loc ((place_iff hd).mpr hp)]
    rcases e with _ | ⟨content, mode⟩ <;> rfl

theorem Moved.erase (hk : k < n)
    (hv : ∀ loc, f.Place s k loc → s.machine.files.get? loc = none ∧ loc ∉ s.log.files)
    (h : Amid f n s t) (hp : f.Place s k gone) : Moved f s n k none t
      (t.withFiles (t.machine.files.erase gone)) := by
  have hroot (loc : Location) (hl : f.Place s k loc) : loc ≠ [] := by
    rintro rfl
    cases (hv [] hl).1
  have hsame (loc : Location) (hl : f.Place s k loc) : loc = gone := by
    obtain ⟨directory, hd, hg⟩ := hp
    rw [place_iff hd, hg] at hl
    exact (Except.ok.inj hl).symm
  refine Moved.of_files hv hk h (fun loc hl => ?_) fun loc hn => ?_
  · rw [Files.get?_erase (hroot loc hl), if_pos (hsame loc hl)]
    rfl
  · by_cases hr : loc = []
    · rw [hr]
      rfl
    · rw [Files.get?_erase hr, if_neg]
      rintro rfl
      exact hn hp

/-- Cleaning up leaves nothing at the place of the output. -/
theorem discard_output (hk : k < n)
    (hv : ∀ loc, f.Place s k loc → s.machine.files.get? loc = none ∧ loc ∉ s.log.files)
    (h : Amid f n s t) (hd : f.directoryIn s = some directory)
    (ho : f.Holds s k e t.machine.files) :
    Moved f s n k none t (discardOutput (outputIn s directory k) t).2 := by
  have hu := unlink_output h hd ho
  cases hp : s.machine.files.resolve s.machine.here false (outputIn s directory k).toString with
  | error err =>
    have hnone : f.Holds s k none t.machine.files := fun loc hl => by
      rw [place_iff hd, hp] at hl
      cases hl
    rw [hp] at hu
    by_cases he : err = .noEntry
    · rw [run_discardOutput, hu, he]
      exact .refl h hnone
    · rw [run_discardOutput_refused hu he]
      exact .of_logged hv h hnone (.record t _)
  | ok loc =>
    rw [hp] at hu
    rw [run_discardOutput, hu]
    cases e with
    | none => exact .refl h ho
    | some _ => exact .erase hk hv h ((place_iff hd).mpr hp)

-- ---------------------------------------------------------------------------
-- The steps of a call
-- ---------------------------------------------------------------------------

/-- What a call that drew a name may have come to, and what is then at the place of its output. -/
inductive Stage (f : Frontend) (s : Session) (k : Nat) : Progress → Option (Bytes × Nat) → Prop
  | picked {directory : Path} (hd : f.directoryIn s = some directory) :
    Stage f s k (.picked (f.schemaIn s) (outputIn s directory k)) none
  | ran {directory : Path} (hd : f.directoryIn s = some directory) (outcome : Except Failure Text)
    (e : Option (Bytes × Nat)) :
    Stage f s k (.ran (f.schemaIn s) (outputIn s directory k) outcome) e
  | looked {directory : Path} (hd : f.directoryIn s = some directory) (made : Except Failure Bytes)
    (e : Option (Bytes × Nat)) :
    Stage f s k (.looked (f.schemaIn s) (outputIn s directory k) made) e
  | cleared (data : Bytes) : Stage f s k (.cleared (f.schemaIn s) data) none
  | loaded (data : Bytes) (schema : Schema) (type : MessageType) :
    Stage f s k (.loaded data schema type) none
  | finished (result : Except Failure Decoded) : Stage f s k (.finished result) none

theorem Stage.ne_waiting (h : Stage f s k p e) : p ≠ .waiting := by
  rintro rfl
  cases h

/-- A step that comes to the same in all sessions amid calls. -/
def Uniform (launcher : Launcher) (f : Frontend) (file : Text) (s : Session) (n k : Nat)
    (p : Progress) (e : Option (Bytes × Nat)) : Prop :=
  ∃ p' e', Stage f s k p' e' ∧ ∀ t, Amid f n s t → f.Holds s k e t.machine.files →
    (step launcher f file p t).1 = p' ∧ Moved f s n k e' t (step launcher f file p t).2

section
variable {files : Fin n → Text} (h : Apart launcher f files s) (hk : k < n) (i : Fin n)
include h hk

theorem uniform_picked (hd : f.directoryIn s = some directory) :
    Uniform launcher f (files i) s n k (.picked (f.schemaIn s) (outputIn s directory k)) none := by
  let command := f.command (f.schemaIn s) (outputIn s directory k) (files i)
  obtain ⟨judgement, hj⟩ := Invocation.run_speaks command f.configuration.timeout
  obtain ⟨finish, e, hc⟩ := h.confined i k hk directory hd
  have hv := h.unused k hk
  have hstart (t : Session) (ht : Amid f n s t) (ho : f.Holds s k none t.machine.files) :
      Moved f s n k none t (f.started command t) := .of_logged hv ht ho (.record t _)
  cases hf : Invocation.fault? command with
  | some fault =>
    -- Nothing is launched.
    refine ⟨_, none, .ran hd (.error (.badText fault)) none, fun t ht ho => ?_⟩
    obtain ⟨rs, -, hrun⟩ := hj launcher t
    have hstarted := hstart t ht ho
    rw [Invocation.left, hf] at hrun
    rw [step_picked, runScript_eq, hrun]
    exact ⟨rfl, hstarted.trans (.of_logged hv hstarted.amid hstarted.own (.told _ rs))⟩
  | none =>
    refine ⟨_, e, .ran hd (judgement finish) e, fun t ht ho => ?_⟩
    obtain ⟨rs, -, hrun⟩ := hj launcher t
    have hstarted := hstart t ht ho
    obtain ⟨hfinish, hheld, hkept⟩ :=
      hc (f.started command t).machine hstarted.amid.machine hstarted.amid.files hstarted.own
    have hleft : Moved f s n k e (f.started command t) _ :=
      .of_files hv hk hstarted.amid hheld hkept
    rw [Invocation.left, hf] at hrun
    rw [step_picked, runScript_eq, hrun]
    refine ⟨?_, hstarted.trans (hleft.trans (.of_logged hv hleft.amid hleft.own (.told _ rs)))⟩
    rw [← hfinish]
    rfl

theorem uniform_ran (hd : f.directoryIn s = some directory) (outcome : Except Failure Text) :
    Uniform launcher f (files i) s n k (.ran (f.schemaIn s) (outputIn s directory k) outcome) e := by
  cases outcome with
  | error failure =>
    refine ⟨_, none, .finished (.error failure), fun t ht ho => ?_⟩
    rw [step_ran_error]
    dsimp only
    exact ⟨rfl, discard_output hk (h.unused k hk) ht hd ho⟩
  | ok text =>
    let place := s.machine.files.resolve s.machine.here false (outputIn s directory k).toString
    refine ⟨_, e, .looked hd
      ((readAt place e).mapError (.unreadableOutput (outputIn s directory k))) e, fun t ht ho => ?_⟩
    rw [step, run_readOutput, read_output ht hd ho]
    exact ⟨rfl, .refl ht ho⟩

theorem uniform_looked (hd : f.directoryIn s = some directory) (made : Except Failure Bytes) :
    Uniform launcher f (files i) s n k (.looked (f.schemaIn s) (outputIn s directory k) made) e := by
  cases made with
  | error failure =>
    refine ⟨_, none, .finished (.error failure), fun t ht ho => ?_⟩
    rw [step_looked_error]
    dsimp only
    exact ⟨rfl, discard_output hk (h.unused k hk) ht hd ho⟩
  | ok data =>
    cases hp : s.machine.files.resolve s.machine.here false (outputIn s directory k).toString with
    | error err =>
      refine ⟨_, none, .finished (.error (.lastingOutput (outputIn s directory k) err)),
        fun t ht ho => ?_⟩
      have hnone : f.Holds s k none t.machine.files := fun loc hl => by
        rw [place_iff hd, hp] at hl
        cases hl
      have hu := unlink_output ht hd ho
      rw [hp] at hu
      rw [step, run_removeOutput, hu]
      exact ⟨rfl, .refl ht hnone⟩
    | ok loc =>
      cases e with
      | none =>
        refine ⟨_, none, .finished (.error (.lastingOutput (outputIn s directory k) .noEntry)),
          fun t ht ho => ?_⟩
        have hu := unlink_output ht hd ho
        rw [hp] at hu
        rw [step, run_removeOutput, hu]
        exact ⟨rfl, .refl ht ho⟩
      | some there =>
        refine ⟨_, none, .cleared data, fun t ht ho => ?_⟩
        have hu := unlink_output ht hd ho
        rw [hp] at hu
        rw [step, run_removeOutput, hu]
        exact ⟨rfl, .erase hk (h.unused k hk) ht ((place_iff hd).mpr hp)⟩

theorem uniform_cleared (data : Bytes) :
    Uniform launcher f (files i) s n k (.cleared (f.schemaIn s) data) none := by
  have hmoved (t : Session) (ht : Amid f n s t) (ho : f.Holds s k none t.machine.files) :
      Moved f s n k none t (Act.loadSchema (f.schemaIn s).toText t).2 :=
    .of_keeps (h.unused k hk) ht ho (ht.loadSchema h.steady).2 (.loadSchema t _)
  cases hf : (f.schemaOf s).bind (Act.messageIn (f.schemaIn s).toText Schema.treeMessage) with
  | error failure =>
    refine ⟨_, none, .finished (.error failure), fun t ht ho => ?_⟩
    rw [step, Act.run_loadMessageType, (ht.loadSchema h.steady).1, hf]
    exact ⟨rfl, hmoved t ht ho⟩
  | ok found =>
    refine ⟨_, none, .loaded data found.1 found.2, fun t ht ho => ?_⟩
    rw [step, Act.run_loadMessageType, (ht.loadSchema h.steady).1, hf]
    exact ⟨rfl, hmoved t ht ho⟩

theorem uniform (hs : Stage f s k p e) : Uniform launcher f (files i) s n k p e := by
  cases hs with
  | picked hd => exact uniform_picked h hk i hd
  | ran hd outcome => exact uniform_ran h hk i hd outcome
  | looked hd made => exact uniform_looked h hk i hd made
  | cleared data => exact uniform_cleared h hk i data
  | loaded data schema type =>
    exact ⟨_, none, .finished (decoded data schema type), fun t ht ho => ⟨rfl, .refl ht ho⟩⟩
  | finished result => exact ⟨_, none, .finished result, fun t ht ho => ⟨rfl, .refl ht ho⟩⟩

/-- What is left of a call comes to the same in all sessions amid calls. -/
theorem remaining_uniform (hs : Stage f s k p e) (ht : Amid f n s t)
    (ho : f.Holds s k e t.machine.files) (ht' : Amid f n s t')
    (ho' : f.Holds s k e t'.machine.files) :
    (remaining launcher f (files i) p t).1 = (remaining launcher f (files i) p t').1 := by
  induction hl : p.left using Nat.strongRecOn generalizing p e t t' with
  | ind left ih =>
    subst hl
    by_cases hz : p.left = 0
    · obtain ⟨result, rfl⟩ := Progress.left_eq_zero hz
      rw [remaining_finished, remaining_finished]
    · obtain ⟨p', e', hs', hstep⟩ := uniform h hk i hs
      obtain ⟨hp, hm⟩ := hstep t ht ho
      obtain ⟨hp', hm'⟩ := hstep t' ht' ho'
      have hless : p'.left < p.left := by
        have hleft : (step launcher f (files i) p t).1.left ≤ p.left - 1 := left_step p
        rw [hp] at hleft
        omega
      rw [remaining_step (s := t), remaining_step (s := t'), hp, hp']
      exact ih _ hless hs' hm.amid hm.own hm'.amid hm'.own rfl

end

-- ---------------------------------------------------------------------------
-- The first step of a call
-- ---------------------------------------------------------------------------

theorem step_waiting_none {file : Text} (hd : f.directoryIn s = none) (h : Amid f n s t) :
    step launcher f file .waiting t = (.finished (.error (.system .noEntry)), t) := by
  obtain ⟨hc, hr⟩ := Option.or_eq_none_iff.mp hd
  have hroom : t.temporary.or t.machine.temporaryDirectory? = none := h.room.trans hr
  rw [step, run_temporaryPath, hc]
  dsimp only
  rw [hroom]

theorem step_waiting (launcher : Launcher) (file : Text) (hd : f.directoryIn s = some directory)
    (h : Amid f n s t) (hserial : t.machine.serial = s.machine.serial + k) : ∃ t',
      step launcher f file .waiting t = (.picked (f.schemaIn s) (outputIn s directory k), t') ∧
      Amid f n s t' ∧ t'.machine.files = t.machine.files ∧
      t'.machine.serial = t.machine.serial + 1 := by
  rw [step, run_temporaryPath, h.schemaIn, outputIn, ← hserial]
  cases hc : f.configuration.paths.temporary with
  | some configured =>
    rw [directoryIn, hc] at hd
    cases hd
    exact ⟨_, rfl, h.skip 1, rfl, rfl⟩
  | none =>
    rw [directoryIn, hc, Option.none_or] at hd
    have hroom : t.temporary.or t.machine.temporaryDirectory? = some directory := h.room.trans hd
    dsimp only
    rw [hroom]
    refine ⟨_, rfl, ?_, rfl, rfl⟩
    have hsettle := h.settle
    rw [h.room, hd] at hsettle
    exact hsettle.skip 1

/-- A call that draws a name comes to the same in all sessions in which that name is the next one. -/
theorem uniform_waiting (launcher : Launcher) (f : Frontend) (s : Session) (n k : Nat) :
    ∃ p, Stage f s k p none ∧ ∀ file t, Amid f n s t →
      (f.directoryIn s ≠ none → t.machine.serial = s.machine.serial + k) →
      (step launcher f file .waiting t).1 = p ∧
      Amid f n s (step launcher f file .waiting t).2 ∧
      (step launcher f file .waiting t).2.machine.files = t.machine.files ∧
      (f.directoryIn s ≠ none →
        (step launcher f file .waiting t).2.machine.serial = s.machine.serial + (k + 1)) := by
  cases hd : f.directoryIn s with
  | none =>
    refine ⟨_, .finished (.error (.system .noEntry)), fun file t h _ => ?_⟩
    rw [step_waiting_none hd h]
    exact ⟨rfl, h, rfl, fun hn => absurd rfl hn⟩
  | some directory =>
    refine ⟨_, .picked hd, fun file t h hserial => ?_⟩
    have hnext := hserial nofun
    obtain ⟨t', hstep, ht', hfiles, hmore⟩ := step_waiting launcher file hd h hnext
    rw [hstep]
    exact ⟨rfl, ht', hfiles, fun _ => by rw [hmore, hnext, Nat.add_assoc]⟩

-- ---------------------------------------------------------------------------
-- Calls in any order
-- ---------------------------------------------------------------------------

/-- Calls that share a session. -/
structure Calls (n : Nat) where
  session : Session
  progress : Fin n → Progress

namespace Calls

def start (n : Nat) (s : Session) : Calls n := ⟨s, fun _ => .waiting⟩

/-- The next step of one of the calls. -/
def advance (launcher : Launcher) (f : Frontend) (files : Fin n → Text) (c : Calls n) (i : Fin n) :
    Calls n :=
  let (p, s) := step launcher f (files i) (c.progress i) c.session
  ⟨s, fun j => if j = i then p else c.progress j⟩

/-- Steps of the calls, in the order in which a schedule names them. -/
def run (launcher : Launcher) (f : Frontend) (files : Fin n → Text) (c : Calls n)
    (schedule : List (Fin n)) : Calls n :=
  schedule.foldl (advance launcher f files) c

/-- Calls under way. Those that wait will draw the names that are left; each of the others drew its
own name, and comes to what it comes to alone. -/
structure Sound (launcher : Launcher) (f : Frontend) (files : Fin n → Text) (s : Session)
    (draw : Fin n → Nat) (waiting : List (Fin n)) (count : Nat) (c : Calls n) : Prop where
  amid : Amid f n s c.session
  nodup : waiting.Nodup
  mem : ∀ i, i ∈ waiting ↔ c.progress i = .waiting
  total : count + waiting.length = n
  serial : f.directoryIn s ≠ none → c.session.machine.serial = s.machine.serial + count
  drawn : ∀ i, c.progress i ≠ .waiting → draw i < count
  distinct : ∀ i j, c.progress i ≠ .waiting → c.progress j ≠ .waiting → draw i = draw j → i = j
  owner : ∀ k < count, ∃ i, c.progress i ≠ .waiting ∧ draw i = k
  fresh : ∀ k, count ≤ k → k < n → f.Holds s k none c.session.machine.files
  stage : ∀ i, c.progress i ≠ .waiting → ∃ e, Stage f s (draw i) (c.progress i) e ∧
    f.Holds s (draw i) e c.session.machine.files ∧
    (remaining launcher f (files i) (c.progress i) c.session).1 =
      (f.parse launcher (files i) (s.skip (draw i))).1

section
variable {files : Fin n → Text} {draw : Fin n → Nat} {waiting : List (Fin n)} {count : Nat}
  {c : Calls n} {i j : Fin n}

theorem advance_eq (c : Calls n) (i : Fin n) : c.advance launcher f files i =
    ⟨(step launcher f (files i) (c.progress i) c.session).2,
      fun j => if j = i then (step launcher f (files i) (c.progress i) c.session).1
        else c.progress j⟩ := rfl

theorem Sound.start (hv : ∀ k < n, f.Holds s k none s.machine.files) :
    Sound launcher f files s (fun _ => 0) (List.finRange n) 0 (start n s) where
  amid := .refl s
  nodup := List.nodup_finRange n
  mem i := by simp [Calls.start]
  total := by simp
  serial _ := rfl
  drawn i hi := absurd rfl hi
  distinct i j hi := absurd rfl hi
  owner k hk := absurd hk (Nat.not_lt_zero k)
  fresh k _ hk := hv k hk
  stage i hi := absurd rfl hi

variable (h : Apart launcher f files s)
include h

/-- What a call has to itself stays as it is while another one takes a step. -/
theorem holds_others {k l : Nat} (hk : k < n) (hl : l < n) (hne : l ≠ k)
    (hm : ∀ loc, ¬f.Place s k loc →
      Files.GrownAt s.log.files t.machine.files t'.machine.files loc)
    (ho : f.Holds s l e t.machine.files) : f.Holds s l e t'.machine.files := by
  intro loc hp
  have hn : ¬f.Place s k loc := fun hp' => hne (h.distinct l hl k hk (place_unique hp hp'))
  rw [(hm loc hn).eq (h.unused l hl loc hp).2]
  exact ho loc hp

omit h in
theorem Sound.bound (hs : Sound launcher f files s draw waiting count c)
    (hi : c.progress i ≠ .waiting) : draw i < n :=
  Nat.lt_of_lt_of_le (hs.drawn i hi) (Nat.le_of_add_right_le (Nat.le_of_eq hs.total))

/-- Of a call that did not take the step, all that is said stays true. -/
theorem Sound.others (hs : Sound launcher f files s draw waiting count c)
    (hj : c.progress j ≠ .waiting) (ht : Amid f n s t)
    (hheld : ∀ e, f.Holds s (draw j) e c.session.machine.files →
      f.Holds s (draw j) e t.machine.files) :
    ∃ e, Stage f s (draw j) (c.progress j) e ∧ f.Holds s (draw j) e t.machine.files ∧
      (remaining launcher f (files j) (c.progress j) t).1 =
        (f.parse launcher (files j) (s.skip (draw j))).1 := by
  obtain ⟨e, hstage, ho, hr⟩ := hs.stage j hj
  refine ⟨e, hstage, hheld e ho, ?_⟩
  rw [← hr]
  exact remaining_uniform h (hs.bound hj) j hstage ht (hheld e ho) hs.amid ho

theorem Sound.moved (hs : Sound launcher f files s draw waiting count c)
    (hi : c.progress i ≠ .waiting) (hstage : Stage f s (draw i) p e)
    (hm : Moved f s n (draw i) e c.session t)
    (hr : (remaining launcher f (files i) p t).1 =
      (f.parse launcher (files i) (s.skip (draw i))).1) :
    Sound launcher f files s draw waiting count
      ⟨t, fun j => if j = i then p else c.progress j⟩ := by
  have hwaits (j : Fin n) : (if j = i then p else c.progress j) = .waiting ↔
      c.progress j = .waiting := by
    by_cases hj : j = i
    · subst hj
      rw [if_pos rfl]
      exact iff_of_false hstage.ne_waiting hi
    · rw [if_neg hj]
  have hk := hs.bound hi
  refine ⟨hm.amid, hs.nodup, fun j => (hs.mem j).trans (hwaits j).symm, hs.total,
    fun hd => hm.serial.trans (hs.serial hd), fun j hj => hs.drawn j (mt (hwaits j).mpr hj),
    fun j l hj hl => hs.distinct j l (mt (hwaits j).mpr hj) (mt (hwaits l).mpr hl),
    fun k hcount => ?_, fun k hcount hn => ?_, fun j hj => ?_⟩
  · obtain ⟨j, hj, hd⟩ := hs.owner k hcount
    exact ⟨j, mt (hwaits j).mp hj, hd⟩
  · have hne : k ≠ draw i := Nat.ne_of_gt (Nat.lt_of_lt_of_le (hs.drawn i hi) hcount)
    exact holds_others h hk hn hne hm.others (hs.fresh k hcount hn)
  · replace hj := mt (hwaits j).mpr hj
    dsimp only
    by_cases hji : j = i
    · subst hji
      rw [if_pos rfl]
      exact ⟨e, hstage, hm.own, hr⟩
    · have hne : draw j ≠ draw i := fun heq => hji (hs.distinct j i hj hi heq)
      rw [if_neg hji]
      exact hs.others h hj hm.amid fun e ho =>
        holds_others h hk (hs.bound hj) hne hm.others ho

/-- A step of a call that drew its name. -/
theorem Sound.go (hs : Sound launcher f files s draw waiting count c)
    (hi : c.progress i ≠ .waiting) :
    Sound launcher f files s draw waiting count (c.advance launcher f files i) := by
  obtain ⟨e, hstage, ho, hr⟩ := hs.stage i hi
  obtain ⟨p', e', hstage', hstep⟩ := uniform h (hs.bound hi) i hstage
  obtain ⟨hp, hm⟩ := hstep c.session hs.amid ho
  rw [remaining_step, hp] at hr
  rw [advance_eq, hp]
  exact hs.moved h hi hstage' hm hr

/-- By its first step a call draws the next name. From there it comes to what it comes to alone, when
it draws that name. -/
theorem first_step {k : Nat} (hk : k < n) (i : Fin n) (ht : Amid f n s t)
    (hserial : f.directoryIn s ≠ none → t.machine.serial = s.machine.serial + k)
    (ho : f.Holds s k none t.machine.files) :
    ∃ p t', step launcher f (files i) .waiting t = (p, t') ∧ Stage f s k p none ∧
      Amid f n s t' ∧ t'.machine.files = t.machine.files ∧
      (f.directoryIn s ≠ none → t'.machine.serial = s.machine.serial + (k + 1)) ∧
      (remaining launcher f (files i) p t').1 =
        (f.parse launcher (files i) (s.skip k)).1 := by
  obtain ⟨p, hstage, hfirst⟩ := uniform_waiting launcher f s n k
  obtain ⟨hp, hamid, hfiles, hnext⟩ := hfirst (files i) t ht hserial
  obtain ⟨hp', hamid', hfiles', -⟩ := hfirst (files i) (s.skip k) ((Amid.refl s).skip k)
    fun _ => rfl
  have hunused : f.Holds s k none (s.skip k).machine.files :=
    fun loc hl => (h.unused k hk loc hl).1
  have halone : remaining launcher f (files i) .waiting (s.skip k) = _ := remaining_step .waiting
  rw [hp', remaining] at halone
  refine ⟨p, _, Prod.ext hp rfl, hstage, hamid, hfiles, hnext, ?_⟩
  rw [halone]
  exact remaining_uniform h hk i hstage hamid (hfiles ▸ ho) hamid' (hfiles' ▸ hunused)

/-- A call that waited and drew the next name, while all files stayed as they were. -/
theorem Sound.drew (hs : Sound launcher f files s draw waiting count c)
    (hi : c.progress i = .waiting) (hstage : Stage f s count p none) (ht : Amid f n s t)
    (hfiles : t.machine.files = c.session.machine.files)
    (hserial : f.directoryIn s ≠ none → t.machine.serial = s.machine.serial + (count + 1))
    (hfresh : f.Holds s count none t.machine.files)
    (hr : (remaining launcher f (files i) p t).1 =
      (f.parse launcher (files i) (s.skip count)).1) :
    Sound launcher f files s (fun j => if j = i then count else draw j) (waiting.erase i)
      (count + 1) ⟨t, fun j => if j = i then p else c.progress j⟩ := by
  have hmem : i ∈ waiting := (hs.mem i).mpr hi
  have hpos : 0 < waiting.length := List.length_pos_of_mem hmem
  have hbefore (j : Fin n) (hj : j ≠ i)
      (hne : (if j = i then p else c.progress j) ≠ .waiting) : c.progress j ≠ .waiting := by
    rwa [if_neg hj] at hne
  have hdrawn (j : Fin n) (hj : j ≠ i)
      (hne : (if j = i then p else c.progress j) ≠ .waiting) : draw j < count :=
    hs.drawn j (hbefore j hj hne)
  refine ⟨ht, hs.nodup.erase i, fun j => ?_, ?_, hserial, fun j hj => ?_, fun j l hj hl hd => ?_,
    fun k hk => ?_, fun k hk hn => ?_, fun j hj => ?_⟩
  · rw [hs.nodup.mem_erase_iff, hs.mem]
    by_cases hji : j = i
    · simp [hji, hstage.ne_waiting]
    · simp [hji]
  · rw [List.length_erase_of_mem hmem]
    have htotal := hs.total
    omega
  · split
    · exact Nat.lt_succ_self count
    · exact Nat.lt_succ_of_lt (hdrawn j ‹_› hj)
  · by_cases hji : j = i <;> by_cases hli : l = i
    · rw [hji, hli]
    · rw [if_pos hji, if_neg hli] at hd
      exact absurd hd (Nat.ne_of_gt (hdrawn l hli hl))
    · rw [if_neg hji, if_pos hli] at hd
      exact absurd hd (Nat.ne_of_lt (hdrawn j hji hj))
    · rw [if_neg hji, if_neg hli] at hd
      exact hs.distinct j l (hbefore j hji hj) (hbefore l hli hl) hd
  · rcases Nat.lt_succ_iff_lt_or_eq.mp hk with hk | rfl
    · obtain ⟨j, hj, hd⟩ := hs.owner k hk
      have hji : j ≠ i := fun he => hj (he ▸ hi)
      refine ⟨j, ?_, (if_neg hji).trans hd⟩
      dsimp only
      rwa [if_neg hji]
    · refine ⟨i, ?_, if_pos rfl⟩
      dsimp only
      rw [if_pos rfl]
      exact hstage.ne_waiting
  · rw [hfiles]
    exact hs.fresh k (Nat.le_of_succ_le hk) hn
  · dsimp only
    by_cases hji : j = i
    · subst hji
      rw [if_pos rfl, if_pos rfl]
      exact ⟨none, hstage, hfresh, hr⟩
    · rw [if_neg hji, if_neg hji]
      exact hs.others h (hbefore j hji hj) ht fun e ho => hfiles ▸ ho

/-- The first step of a call, by which it draws its name. -/
theorem Sound.draws (hs : Sound launcher f files s draw waiting count c)
    (hi : c.progress i = .waiting) :
    Sound launcher f files s (fun j => if j = i then count else draw j) (waiting.erase i)
      (count + 1) (c.advance launcher f files i) := by
  have hcount : count < n := by
    have hpos : 0 < waiting.length := List.length_pos_of_mem ((hs.mem i).mpr hi)
    have htotal := hs.total
    omega
  have hfresh : f.Holds s count none c.session.machine.files :=
    hs.fresh count (Nat.le_refl _) hcount
  obtain ⟨p, t, hstep, hstage, ht, hfiles, hserial, hr⟩ :=
    first_step h hcount i hs.amid hs.serial hfresh
  rw [advance_eq, hi, hstep]
  exact hs.drew h hi hstage ht hfiles hserial (hfiles ▸ hfresh) hr

theorem Sound.advance (hs : Sound launcher f files s draw waiting count c) (i : Fin n) :
    ∃ draw waiting count,
      Sound launcher f files s draw waiting count (c.advance launcher f files i) := by
  by_cases hi : c.progress i = .waiting
  · exact ⟨_, _, _, hs.draws h hi⟩
  · exact ⟨_, _, _, hs.go h hi⟩

theorem Sound.run (hs : Sound launcher f files s draw waiting count c) (schedule : List (Fin n)) :
    ∃ draw waiting count,
      Sound launcher f files s draw waiting count (c.run launcher f files schedule) := by
  induction schedule generalizing draw waiting count c with
  | nil => exact ⟨draw, waiting, count, hs⟩
  | cons i rest ih =>
    obtain ⟨_, _, _, hs⟩ := hs.advance h i
    exact ih hs

omit h in
/-- No call takes more than six steps. -/
theorem left_run (schedule : List (Fin n)) (i : Fin n) :
    ((c.run launcher f files schedule).progress i).left ≤
      (c.progress i).left - schedule.count i := by
  induction schedule generalizing c with
  | nil => exact Nat.le_refl _
  | cons j rest ih =>
    refine Nat.le_trans (ih (c := c.advance launcher f files j)) ?_
    rw [advance_eq]
    dsimp only
    by_cases hij : i = j
    · subst hij
      rw [if_pos rfl, List.count_cons_self]
      have hleft : (step launcher f (files i) (c.progress i) c.session).1.left ≤
          (c.progress i).left - 1 := left_step _
      omega
    · simp only [if_neg hij, List.count_cons_of_ne (Ne.symm hij), Nat.le_refl]

end

end Calls

/-- Calls that are made side by side do not interfere. Whatever order their steps are taken in, each
draws a name of its own and comes to what it comes to when it draws that name and runs alone; when
all are finished, all files are what they were, but for lines in the files of the log; and six turns
are enough for each. -/
theorem calls_apart {files : Fin n → Text} (h : Apart launcher f files s)
    (schedule : List (Fin n)) :
    (∃ draw : Fin n → Nat,
      (∀ i result, ((Calls.start n s).run launcher f files schedule).progress i =
        .finished result → draw i < n ∧
          result = (f.parse launcher (files i) (s.skip (draw i))).1) ∧
      (∀ i j, ((Calls.start n s).run launcher f files schedule).progress i ≠ .waiting →
        ((Calls.start n s).run launcher f files schedule).progress j ≠ .waiting →
        draw i = draw j → i = j)) ∧
    ((∀ i, ∃ result, ((Calls.start n s).run launcher f files schedule).progress i =
        .finished result) →
      Files.Grown s.log.files s.machine.files
        ((Calls.start n s).run launcher f files schedule).session.machine.files) ∧
    ((∀ i, 6 ≤ schedule.count i) → ∀ i, ∃ result,
      ((Calls.start n s).run launcher f files schedule).progress i = .finished result) := by
  obtain ⟨draw, waiting, count, hs⟩ :=
    (Calls.Sound.start fun k hk loc hl => (h.unused k hk loc hl).1).run h schedule
  generalize hc : (Calls.start n s).run launcher f files schedule = c at hs
  refine ⟨⟨draw, fun i result hi => ?_, hs.distinct⟩, fun hall => ?_, fun hcount i => ?_⟩
  · have hne : c.progress i ≠ .waiting := by
      rw [hi]
      exact nofun
    obtain ⟨e, -, -, hr⟩ := hs.stage i hne
    rw [hi, remaining_finished] at hr
    exact ⟨hs.bound hne, hr⟩
  · have hstarted (i : Fin n) : c.progress i ≠ .waiting := by
      obtain ⟨result, hi⟩ := hall i
      rw [hi]
      exact nofun
    have hcount : count = n := by
      have htotal := hs.total
      rw [List.eq_nil_iff_forall_not_mem.mpr fun i hi => hstarted i ((hs.mem i).mp hi)] at htotal
      exact htotal
    intro loc
    rcases hs.amid.files loc with hg | ⟨⟨k, hk, hp⟩, hbefore, -⟩
    · exact hg
    · obtain ⟨i, hi, rfl⟩ := hs.owner k (hcount ▸ hk)
      obtain ⟨result, hf⟩ := hall i
      obtain ⟨e, hstage, ho, -⟩ := hs.stage i hi
      rw [hf] at hstage
      cases hstage
      exact .inl ((ho loc hp).trans hbefore.symm)
  · refine Progress.left_eq_zero (Nat.eq_zero_of_le_zero ?_)
    have hleft : (((Calls.start n s).run launcher f files schedule).progress i).left ≤ _ :=
      Calls.left_run schedule i
    rw [hc] at hleft
    exact Nat.le_trans hleft (Nat.le_of_eq (Nat.sub_eq_zero_of_le (hcount i)))

end Frontend

-- ---------------------------------------------------------------------------
-- Two calls
-- ---------------------------------------------------------------------------

/-- What a script leaves that writes a text to the path of its last argument. -/
def Launcher.leave (content : Bytes) (m : Machine) (arguments : List String) : Files :=
  match m.files.resolve m.here false (arguments.getLast?.getD "") with
  | .ok loc => m.files.put loc (.file content Files.usualMode)
  | .error _ => m.files

/-- A launcher of a script that writes the same text whatever it is given. -/
def Launcher.leaving (content : Bytes) : Launcher :=
  ⟨fun m arguments => (.exited 0 [], leave content m arguments),
    fun _ m arguments => (.finished (.exited 0 []), leave content m arguments)⟩

theorem Launcher.leaving_obey (content : Bytes) (limit : Option Duration) (m : Machine)
    (arguments : List String) : (leaving content).obey limit m arguments =
      (.finished (.exited 0 []), leave content m arguments) := by
  unfold obey
  split <;> rfl

namespace Frontend

theorem confined_leaving {f : Frontend} {s : Session} {n k : Nat} (content : Bytes) (file : Text)
    (hv : ∀ loc, f.Place s k loc → s.machine.files.get? loc = none)
    (hd : f.directoryIn s = some directory) : Confined (.leaving content) f s n k
      (f.command (f.schemaIn s) (outputIn s directory k) file) := by
  let arguments := (f.command (f.schemaIn s) (outputIn s directory k) file).map Text.toStringLossy
  have hresolve (m : Machine) (hm : m = { s.machine with files := m.files, serial := m.serial })
      (hs : Files.Shared (f.PlaceOf s n) s.log.files s.machine.files m.files) :
      m.files.resolve m.here false (arguments.getLast?.getD "") =
        s.machine.files.resolve s.machine.here false (outputIn s directory k).toString := by
    have ht : Amid f n s { s with machine := m } := ⟨rfl, rfl, hm, hs, .inl rfl, fun _ => .inl rfl⟩
    have hlast : arguments.getLast?.getD "" = (outputIn s directory k).toString := rfl
    have hhere : m.here = s.machine.here := ht.here
    rw [hlast, hhere]
    exact ht.resolve k hd
  cases hp : s.machine.files.resolve s.machine.here false (outputIn s directory k).toString with
  | error e =>
    refine ⟨.finished (.exited 0 []), none, fun m hm hs ho => ?_⟩
    rw [Launcher.leaving_obey, Launcher.leave, hresolve m hm hs, hp]
    exact ⟨rfl, ho, fun _ _ => rfl⟩
  | ok loc =>
    refine ⟨.finished (.exited 0 []), some (content, Files.usualMode), fun m hm hs ho => ?_⟩
    rw [Launcher.leaving_obey, Launcher.leave, hresolve m hm hs, hp]
    refine ⟨rfl, fun other hother => ?_, fun other hother => ?_⟩
    · rw [place_iff hd, hp] at hother
      obtain rfl := Except.ok.inj hother
      have hroot : loc ≠ [] := by
        rintro rfl
        cases hv [] ((place_iff hd).mpr hp)
      exact (Files.get?_put _ hroot).trans (if_pos rfl)
    · have hne : other ≠ loc := fun he => hother (he ▸ (place_iff hd).mpr hp)
      by_cases hroot : other = []
      · rw [hroot]
        rfl
      · exact (Files.get?_put _ hroot).trans (if_neg hne)

/-- A session in which the schema was loaded. -/
def sharing : Session :=
  { Session.start { (default : Machine) with
      files := ⟨[(["ast.proto"], .file [] Files.usualMode)]⟩ } default with
    schemas := [(["ast.proto"], Schema.bundled)]
    temporary := some ⟨.single, []⟩ }

theorem schemaPlace_sharing : usual.schemaPlace? sharing = some ["ast.proto"] := by
  have hpath : (Path.ofText (usual.schemaIn sharing).toText).toString = "ast.proto" := by
    rfl
  have hsteps : Files.steps "ast.proto" = ["ast.proto"] := by rfl
  have hstart : Files.startOf [] "ast.proto" = [] := by rfl
  have hfile : sharing.machine.files.get? ([] ++ ["ast.proto"]) =
      some (.file [] Files.usualMode) := rfl
  have hplain (target : String) :
      sharing.machine.files.get? ([] ++ ["ast.proto"]) ≠ some (.link target) := by
    rw [hfile]
    simp
  have hhere : sharing.machine.here = [] := rfl
  rw [schemaPlace?, hpath, hhere, Files.canonical?, hsteps, hstart,
    Files.follow_plain (by decide) (by decide) hplain, Files.follow]
  rfl

theorem unused_sharing (hp : usual.Place sharing k loc) :
    sharing.machine.files.get? loc = none := by
  obtain ⟨directory, -, hl⟩ := hp
  rw [outputIn] at hl
  rcases resolve_fileIn sharing.machine.files sharing.machine.here directory with ⟨e, he⟩ | ⟨d, hd⟩
  · rw [he] at hl
    cases hl
  · rw [hd] at hl
    cases hl
    generalize sharing.machine.serial + k = serial
    have hlast : (d ++ [String.ofList (outputName serial)]).getLast? ≠ some "ast.proto" := by
      rw [List.getLast?_concat]
      exact fun h => outputString_ne serial (by decide) (Option.some.inj h)
    have hne : d ++ [String.ofList (outputName serial)] ≠ ["ast.proto"] := by
      intro h
      rw [h] at hlast
      exact hlast rfl
    have hentries : sharing.machine.files.entries = [(["ast.proto"], .file [] Files.usualMode)] := rfl
    rw [Files.get?, if_neg (by simp), hentries, List.lookup_cons, beq_eq_false_iff_ne.mpr hne,
      List.lookup_nil]

theorem two_calls_apart :
    Apart (.leaving []) .usual (fun _ : Fin 2 => Text.ofString "a.js") sharing ∧
    ∀ i, ∃ k < 2,
      ((Calls.start 2 sharing).run (.leaving []) .usual (fun _ => Text.ofString "a.js")
        [0, 1, 0, 1, 1, 0, 0, 1, 0, 1, 1, 0]).progress i =
      .finished (parse (.leaving []) .usual (Text.ofString "a.js") (sharing.skip k)).1 := by
  have h : Apart (.leaving []) .usual (fun _ : Fin 2 => Text.ofString "a.js") sharing := {
    distinct := by decide
    unused := fun k _ loc hp => ⟨unused_sharing hp, by exact List.not_mem_nil⟩
    confined := fun i k _ directory hd =>
      confined_leaving [] _ (fun loc hp => unused_sharing hp) hd
    steady := fun file hfile hl => by
      rw [schemaPlace_sharing] at hfile
      cases hfile
      cases hl }
  refine ⟨h, fun i => ?_⟩
  obtain ⟨⟨draw, hdraw, -⟩, -, hall⟩ := calls_apart h [0, 1, 0, 1, 1, 0, 0, 1, 0, 1, 1, 0]
  obtain ⟨result, hi⟩ := hall (by decide) i
  obtain ⟨hk, hr⟩ := hdraw i result hi
  exact ⟨draw i, hk, hi.trans (congrArg Progress.finished hr)⟩

end Frontend

end Treewire
