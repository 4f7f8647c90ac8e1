import Treewire.Proofs.Answering
import Treewire.Proofs.Memory

/-!
# Setting a log up again and again

A log is set up step by step, and what was done before a step fails stays done. A request whose
level is the name of none fails before anything is done. Any other replaces the level and takes all
handlers away before it comes to its own, so that nothing of earlier requests is left:
`last_request_decides`. The handlers are those that the last such request came to, one for a file
at most and then one for the console, and no record is written twice to either.
-/

namespace Treewire

-- ---------------------------------------------------------------------------
-- One request
-- ---------------------------------------------------------------------------

/-- A log that is to be set up, and the session as it is then. -/
structure Installation where
  request : Log.Request
  session : Session

namespace Installation

variable {i : Installation}

def outcome (i : Installation) : Except Failure Unit :=
  (CommandLine.setUpLog i.request i.session).1

def after (i : Installation) : Session := (CommandLine.setUpLog i.request i.session).2

def succeeded (i : Installation) : Bool := i.outcome.toOption.isSome

/-- The level that the request names. -/
def level? (i : Installation) : Option Log.Level := Log.Level.ofName? i.request.level

/-- The level that the request names for the console. -/
def consoleLevel? (i : Installation) : Option Log.Level :=
  Log.Level.ofName? (match i.request.consoleLevel with
    | some "" | none => "WARNING"
    | some name => name)

/-- The file to log to: the one that the request names, or else a variable. -/
def file? (i : Installation) : Option Path :=
  i.request.file.or ((Configuration.value? i.session.machine.vars Log.fileVariable).map
    Path.ofString)

/-- Where the file to log to is, once it is opened; there need not be any. -/
def target (i : Installation) : Except Log.Obstacle (Option Location) :=
  match i.file? with
  | none => .ok none
  | some p => do
    let files ← Log.makeRoom i.session.machine p
    let (loc, _) ← Log.openFile i.session.machine p files
    return some loc

/-- The handler for the file to log to, if there is any. -/
def fileHandler? (level : Log.Level) (layout : String) (place : Option Location) :
    Option Log.Handler :=
  place.map fun loc => ⟨.file loc, level, layout⟩

/-- The handlers that the request comes to: none without a layout and a file, and the one for the
console only if its level has a name. -/
def handlers (i : Installation) (level : Log.Level) : List Log.Handler :=
  match i.target, Log.layoutOf i.request with
  | .ok place, .ok layout => (fileHandler? level layout place).toList ++
      (i.consoleLevel?.map fun level => ⟨.console, level, layout⟩).toList
  | _, _ => []

/-- The log that the request asks for, with nothing in the way: the names of levels are such, the
layout has a place, and the file to log to, if there is any, can be opened. -/
inductive Completes (i : Installation) : Log → Prop
  | intro (hl : i.level? = some level) (ht : i.target = .ok place)
      (hy : Log.layoutOf i.request = .ok layout) (hc : i.consoleLevel? = some consoleLevel) :
      Completes i ⟨level,
        (fileHandler? level layout place).toList ++ [⟨.console, consoleLevel, layout⟩]⟩

/-- A log once the request was carried out, as far as that went. -/
def leaves (i : Installation) (log : Log) : Log :=
  match i.level? with
  | none => log
  | some level => ⟨level, i.handlers level⟩

theorem opened_fst (i : Installation) (log : Log) :
    (Log.setup.opened i.session.machine i.request log i.file?).1 =
      match i.target, Log.layoutOf i.request with
      | .error obstacle, _ => .error obstacle
      | .ok place, .ok layout => .ok (fileHandler? log.level layout place).toList
      | .ok (some _), .error fault => .error (.fault fault)
      | .ok none, .error _ => .ok [] := by
  unfold target
  cases i.file? with
  | none => cases Log.layoutOf i.request <;> rfl
  | some p =>
    unfold Log.setup.opened
    dsimp only [bind, Except.bind]
    cases Log.makeRoom i.session.machine p with
    | error obstacle => rfl
    | ok files =>
      dsimp only
      cases Log.openFile i.session.machine p files with
      | error obstacle => rfl
      | ok opened => cases Log.layoutOf i.request <;> rfl

theorem setup_unnamed (hl : i.level? = none) (log : Log) :
    Log.setup i.session.machine i.request log =
      (.error (.fault .unknownLevel), log, i.session.machine.files) := by
  rw [level?] at hl
  rw [Log.setup, hl]

/-- A request that names a level, from the opening of the file on. -/
theorem setup_named (hl : i.level? = some level) (log : Log) :
    Log.setup i.session.machine i.request log =
      match Log.setup.opened i.session.machine i.request ⟨level, []⟩ i.file? with
      | (.error obstacle, files) => (.error obstacle, ⟨level, []⟩, files)
      | (.ok handlers, files) =>
        match i.consoleLevel?, Log.layoutOf i.request with
        | none, _ => (.error (.fault .unknownLevel), ⟨level, handlers⟩, files)
        | some _, .error fault => (.error (.fault fault), ⟨level, handlers⟩, files)
        | some consoleLevel, .ok layout =>
          (.ok (), ⟨level, handlers ++ [⟨.console, consoleLevel, layout⟩]⟩, files) := by
  rw [level?] at hl
  rw [Log.setup, hl]
  rfl

/-- Nothing is in the way of a request if each of its four parts has an answer. -/
theorem completes_iff : (∃ full, i.Completes full) ↔
    (∃ level, i.level? = some level) ∧ (∃ place, i.target = .ok place) ∧
      (∃ layout, Log.layoutOf i.request = .ok layout) ∧ ∃ level, i.consoleLevel? = some level := by
  constructor
  · rintro ⟨_, ⟨hl, ht, hy, hc⟩⟩
    exact ⟨⟨_, hl⟩, ⟨_, ht⟩, ⟨_, hy⟩, ⟨_, hc⟩⟩
  · rintro ⟨⟨_, hl⟩, ⟨_, ht⟩, ⟨_, hy⟩, ⟨_, hc⟩⟩
    exact ⟨_, .intro hl ht hy hc⟩

/-- What one request makes of a log. -/
theorem setup_eq (i : Installation) (log : Log) :
    (Log.setup i.session.machine i.request log).2.1 = i.leaves log ∧
    ((Log.setup i.session.machine i.request log).1 = .ok () ↔ ∃ full, i.Completes full) := by
  rw [completes_iff]
  unfold leaves
  cases hl : i.level? with
  | none =>
    rw [setup_unnamed hl]
    exact ⟨rfl, by simp⟩
  | some level =>
    have hopened := i.opened_fst ⟨level, []⟩
    rw [setup_named hl]
    unfold handlers
    generalize Log.setup.opened i.session.machine i.request ⟨level, []⟩ _ = opened at hopened ⊢
    obtain ⟨outcome, files⟩ := opened
    dsimp only at hopened
    subst hopened
    cases ht : i.target with
    | error obstacle => exact ⟨rfl, by simp⟩
    | ok place =>
      cases hy : Log.layoutOf i.request with
      | error fault =>
        cases place with
        | some loc => exact ⟨rfl, by simp⟩
        | none => cases hc : i.consoleLevel? <;> exact ⟨rfl, by simp⟩
      | ok layout =>
        cases hc : i.consoleLevel? with
        | none => exact ⟨by simp, by simp⟩
        | some consoleLevel => exact ⟨rfl, by simp⟩

theorem log_after (i : Installation) : i.after.log = i.leaves i.session.log := by
  rw [after, CommandLine.run_setUpLog]
  exact (i.setup_eq i.session.log).1

theorem outcome_ok_iff : i.outcome = .ok ⟨⟩ ↔ ∃ full, i.Completes full := by
  rw [← (i.setup_eq i.session.log).2, outcome, CommandLine.run_setUpLog]
  dsimp only
  generalize (Log.setup i.session.machine i.request i.session.log).1 = result
  cases result with
  | error obstacle => exact iff_of_false nofun nofun
  | ok u => exact iff_of_true rfl rfl

/-- What is asked for in full is what the request comes to. -/
theorem Completes.eq (h : i.Completes full) (log : Log) : i.leaves log = full := by
  obtain ⟨hl, ht, hy, hc⟩ := h
  rw [leaves, hl]
  dsimp only
  rw [handlers, ht, hy, hc]
  rfl

/-- A request that does not get all it asks for comes to its handler for the file at most. -/
theorem handlers_of_not_completes (hl : i.level? = some level) (h : ∀ full, ¬i.Completes full) :
    i.handlers level = [] ∨ ∃ loc layout, i.target = .ok (some loc) ∧
      Log.layoutOf i.request = .ok layout ∧ i.handlers level = [⟨.file loc, level, layout⟩] := by
  unfold handlers
  cases ht : i.target with
  | error obstacle => exact .inl rfl
  | ok place =>
    cases hy : Log.layoutOf i.request with
    | error fault => exact .inl rfl
    | ok layout =>
      cases hc : i.consoleLevel? with
      | some consoleLevel => exact absurd (.intro hl ht hy hc) (h _)
      | none =>
        cases place with
        | none => exact .inl rfl
        | some loc => exact .inr ⟨loc, layout, rfl, rfl, rfl⟩

/-- What a request does to a session. -/
structure Sound (i : Installation) : Prop where
  /-- There is one handler for a file at most, and after it one for the console at most. -/
  few : ∀ level, ∃ file console : Option Log.Handler,
    i.handlers level = file.toList ++ console.toList ∧
      (∀ h ∈ file, ∃ loc, h.sink = .file loc) ∧ ∀ h ∈ console, h.sink = .console
  /-- Without a level nothing happens at all. -/
  unnamed : i.level? = none →
    i.outcome = .error (.badLog .unknownLevel) ∧ i.after = i.session
  /-- The request succeeds if nothing is in its way, and then its log is there in full. -/
  succeeds : i.outcome = .ok ⟨⟩ ↔ ∃ full, i.Completes full
  full : ∀ log, i.Completes log → i.after.log = log
  /-- If it fails, its level is there, and its handler for the file if it came to that. -/
  fails : ∀ level failure, i.level? = some level → i.outcome = .error failure →
    i.after.log = ⟨level, []⟩ ∨ ∃ loc layout, i.target = .ok (some loc) ∧
      Log.layoutOf i.request = .ok layout ∧ i.after.log = ⟨level, [⟨.file loc, level, layout⟩]⟩

theorem handlers_few (i : Installation) (level : Log.Level) :
    ∃ file console : Option Log.Handler, i.handlers level = file.toList ++ console.toList ∧
      (∀ h ∈ file, ∃ loc, h.sink = .file loc) ∧ ∀ h ∈ console, h.sink = .console := by
  unfold handlers
  split
  · refine ⟨_, _, rfl, fun h hm => ?_, fun h hm => ?_⟩
    · obtain ⟨loc, -, rfl⟩ := Option.map_eq_some_iff.mp hm
      exact ⟨loc, rfl⟩
    · obtain ⟨consoleLevel, -, rfl⟩ := Option.map_eq_some_iff.mp hm
      rfl
  · exact ⟨none, none, rfl, nofun, nofun⟩

theorem sound (i : Installation) : i.Sound where
  few := i.handlers_few
  unnamed hl := by
    rw [outcome, after, CommandLine.run_setUpLog, setup_unnamed hl]
    exact ⟨rfl, rfl⟩
  succeeds := outcome_ok_iff
  full _ h := i.log_after.trans (h.eq _)
  fails level failure hl ho := by
    have hnot : ∀ full, ¬i.Completes full := by
      intro full h
      cases ho.symm.trans (outcome_ok_iff.mpr ⟨full, h⟩)
    rw [log_after, leaves, hl]
    dsimp only
    rcases handlers_of_not_completes hl hnot with h | ⟨loc, layout, ht, hy, h⟩
    · exact .inl (by rw [h])
    · exact .inr ⟨loc, layout, ht, hy, by rw [h]⟩

end Installation

-- ---------------------------------------------------------------------------
-- Records
-- ---------------------------------------------------------------------------

/-- Whether no two handlers of a log write to the same place. -/
def Log.Distinct (log : Log) : Prop := (log.handlers.map (·.sink)).Nodup

theorem Installation.leaves_distinct (i : Installation) (h : log.Distinct) :
    (i.leaves log).Distinct := by
  unfold leaves
  cases i.level? with
  | none => exact h
  | some level =>
    obtain ⟨file, console, hall, hfile, hconsole⟩ := i.handlers_few level
    dsimp only
    rw [hall]
    cases file with
    | none => cases console <;> simp [Log.Distinct]
    | some h =>
      obtain ⟨loc, hs⟩ := hfile h rfl
      cases console with
      | none => simp [Log.Distinct]
      | some h' => simp [Log.Distinct, hs, hconsole h' rfl]

namespace Log

variable {handlers : List Handler} {h : Handler} {r : Record} {fs fs' : Files}
  {console console' : Text}

/-- One of the handlers shows a record on the console, or none does. -/
def ShowsOnce (handlers : List Handler) (r : Record) (console console' : Text) : Prop :=
  console' = console ∨ ∃ h ∈ handlers, h.sink = .console ∧
    ∃ line, h.line? r = some line ∧ console' = console ++ line

/-- One of the handlers adds a record to the file at a location, or nothing happens to it. -/
def AddsOnce (handlers : List Handler) (r : Record) (fs fs' : Files) (loc : Location) : Prop :=
  fs'.get? loc = fs.get? loc ∨ ∃ h ∈ handlers, h.sink = .file loc ∧
    ∃ line octets content mode, h.line? r = some line ∧ Utf8.encodeText? line = some octets ∧
      fs.get? loc = some (.file content mode) ∧
      fs'.get? loc = some (.file (content ++ octets) mode)

theorem ShowsOnce.cons (hr : ShowsOnce handlers r console console') :
    ShowsOnce (h :: handlers) r console console' :=
  hr.imp_right fun ⟨other, hm, rest⟩ => ⟨other, List.mem_cons_of_mem _ hm, rest⟩

theorem AddsOnce.cons (hr : AddsOnce handlers r fs fs' loc) :
    AddsOnce (h :: handlers) r fs fs' loc :=
  hr.imp_right fun ⟨other, hm, rest⟩ => ⟨other, List.mem_cons_of_mem _ hm, rest⟩

/-- A handler writes a line to its place, or nothing. -/
theorem Handler.deliver_cases (h : Handler) (r : Record) (fs : Files) (console : Text) :
    h.deliver r fs console = (fs, console) ∨
    (h.sink = .console ∧ ∃ line, h.line? r = some line ∧
      h.deliver r fs console = (fs, console ++ line)) ∨
    ∃ loc, h.sink = .file loc ∧ ∃ line octets content mode,
      h.line? r = some line ∧ Utf8.encodeText? line = some octets ∧
      fs.get? loc = some (.file content mode) ∧
      h.deliver r fs console = (fs.put loc (.file (content ++ octets) mode), console) := by
  unfold deliver
  split
  · exact .inl rfl
  split
  · exact .inl rfl
  rename_i line hline
  split
  · exact .inr (.inl ⟨‹_›, line, hline, rfl⟩)
  · rename_i loc hs
    split
    · rename_i content mode octets hf ho
      exact .inr (.inr ⟨loc, hs, line, octets, content, mode, hline, ho, hf, rfl⟩)
    · exact .inl rfl

/-- Where all handlers write to places of their own, no line comes twice. -/
theorem deliver_once (level : Level) (hd : (handlers.map (·.sink)).Nodup) (r : Record) (fs : Files)
    (console : Text) :
    ShowsOnce handlers r console (deliver ⟨level, handlers⟩ r fs console).2 ∧
      ∀ loc, AddsOnce handlers r fs (deliver ⟨level, handlers⟩ r fs console).1 loc := by
  induction handlers generalizing fs console with
  | nil => exact ⟨.inl rfl, fun _ => .inl rfl⟩
  | cons h rest ih =>
    rw [List.map_cons, List.nodup_cons] at hd
    have hother : ∀ other ∈ rest, other.sink ≠ h.sink :=
      fun other hm he => hd.1 (List.mem_map.mpr ⟨other, hm, he⟩)
    rw [deliver_cons]
    rcases h.deliver_cases r fs console with he | ⟨hs, line, hline, he⟩ |
      ⟨loc, hs, line, octets, content, mode, hline, ho, hf, he⟩
    · rw [he]
      obtain ⟨hshows, hadds⟩ := ih hd.2 fs console
      exact ⟨hshows.cons, fun loc => (hadds loc).cons⟩
    · rw [he]
      obtain ⟨hshows, hadds⟩ := ih hd.2 fs (console ++ line)
      refine ⟨.inr ⟨h, List.mem_cons_self .., hs, line, hline, ?_⟩, fun loc => (hadds loc).cons⟩
      exact hshows.resolve_right fun ⟨other, hm, hs', _⟩ => hother other hm (hs'.trans hs.symm)
    · rw [he]
      obtain ⟨hshows, hadds⟩ := ih hd.2 (fs.put loc (.file (content ++ octets) mode)) console
      refine ⟨hshows.cons, fun loc' => ?_⟩
      have hroot : loc ≠ [] := by
        rintro rfl
        cases hf
      by_cases hl : loc' = loc
      · subst hl
        refine .inr ⟨h, List.mem_cons_self .., hs, line, octets, content, mode, hline, ho, hf, ?_⟩
        have hkept := (hadds loc').resolve_right
          fun ⟨other, hm, hs', _⟩ => hother other hm (hs'.trans hs.symm)
        rw [hkept, Files.get?_put _ hroot, if_pos rfl]
      · have hsame : (fs.put loc (.file (content ++ octets) mode)).get? loc' = fs.get? loc' := by
          by_cases hroot' : loc' = []
          · rw [hroot']
            rfl
          · rw [Files.get?_put _ hroot', if_neg hl]
        have hrest := (hadds loc').cons (h := h)
        rw [AddsOnce, hsame] at hrest
        exact hrest

end Log

/-- A record comes to the console once at most, and once at most to each file. -/
def Session.HearsOnce (s : Session) (r : Log.Record) : Prop :=
  Log.ShowsOnce s.log.handlers r s.console (s.record r).console ∧
    ∀ loc, Log.AddsOnce s.log.handlers r s.machine.files (s.record r).machine.files loc

theorem Session.hearsOnce {s : Session} (hd : s.log.Distinct) (r : Log.Record) :
    s.HearsOnce r := by
  unfold HearsOnce record
  split
  · exact Log.deliver_once s.log.level hd r s.machine.files s.console
  · exact ⟨.inl rfl, fun _ => .inl rfl⟩

-- ---------------------------------------------------------------------------
-- Many requests
-- ---------------------------------------------------------------------------

/-- Something that happens in a session whose log is set up now and again. -/
inductive Turn where
  | setUp (request : Log.Request)
  | other (e : Event)

namespace Turn

def run : Turn → Session → Session
  | setUp request, s => (Installation.mk request s).after
  | other e, s => e.run s

def installation? : Turn → Session → Option Installation
  | setUp request, s => some ⟨request, s⟩
  | other _, _ => none

end Turn

namespace Session

variable {s : Session}

/-- The session after some turns. -/
def afterTurns (s : Session) (turns : List Turn) : Session := turns.foldl (fun s t => t.run s) s

/-- All requests among some turns, first one first. -/
def installations (s : Session) : List Turn → List Installation
  | [] => []
  | t :: rest => (t.installation? s).toList ++ (t.run s).installations rest

end Session

theorem Event.log_run (e : Event) (s : Session) : (e.run s).log = s.log := by
  cases hl : e.load? s with
  | none => exact (run_of_no_load hl).log
  | some l =>
    obtain ⟨hbefore, hrun⟩ := run_of_load hl
    rw [hrun, Load.log_after, hbefore.log]

namespace Session

variable {s : Session}

/-- Nothing but requests changes a log. -/
theorem log_afterTurns (s : Session) (turns : List Turn) : (s.afterTurns turns).log =
    (s.installations turns).foldl (fun log i => i.leaves log) s.log := by
  induction turns generalizing s with
  | nil => rfl
  | cons t rest ih =>
    rw [afterTurns, List.foldl_cons, ← afterTurns, ih, installations, List.foldl_append]
    congr 1
    cases t with
    | setUp request => exact Installation.log_after ⟨request, s⟩
    | other e => exact e.log_run s

theorem foldl_leaves_unnamed {is : List Installation} (h : ∀ i ∈ is, i.level? = none)
    (log : Log) : is.foldl (fun log i => i.leaves log) log = log := by
  induction is with
  | nil => rfl
  | cons i rest ih =>
    rw [List.forall_mem_cons] at h
    rw [List.foldl_cons, Installation.leaves, h.1]
    exact ih h.2

theorem foldl_leaves_distinct (is : List Installation) {log : Log} (h : log.Distinct) :
    (is.foldl (fun log i => i.leaves log) log).Distinct := by
  induction is generalizing log with
  | nil => exact h
  | cons i rest ih => exact ih (i.leaves_distinct h)

/-- The last request that names a level decides what the log is, whatever came of it and of those
before it. Without any the log stays as it was. A request changes nothing if it names no level;
otherwise its log is there in full if nothing is in its way, and if not, then as far as it came. So
no two handlers ever write to one place, and a record comes there once at most. -/
theorem last_request_decides (s : Session) (turns : List Turn) :
    ((∀ i ∈ s.installations turns, i.level? = none) → (s.afterTurns turns).log = s.log) ∧
    (∀ before i after level, s.installations turns = before ++ i :: after →
      i.level? = some level → (∀ j ∈ after, j.level? = none) →
      (s.afterTurns turns).log = ⟨level, i.handlers level⟩) ∧
    (∀ i ∈ s.installations turns, i.Sound) ∧
    (s.log.Distinct → (s.afterTurns turns).log.Distinct ∧
      ∀ r, (s.afterTurns turns).HearsOnce r) := by
  refine ⟨fun h => ?_, fun before i after level hsplit hl hafter => ?_, fun i _ => i.sound,
    fun hd => ?_⟩
  · rw [log_afterTurns, foldl_leaves_unnamed h]
  · rw [log_afterTurns, hsplit, List.foldl_append, List.foldl_cons, foldl_leaves_unnamed hafter,
      Installation.leaves, hl]
  · have hdistinct : (s.afterTurns turns).log.Distinct := by
      rw [log_afterTurns]
      exact foldl_leaves_distinct _ hd
    exact ⟨hdistinct, fun r => hearsOnce hdistinct r⟩

-- ---------------------------------------------------------------------------
-- A request that fails
-- ---------------------------------------------------------------------------

/-- A log that is set up. -/
def ordinary : Installation := ⟨⟨"INFO", none, none, none⟩, .start default ⟨.single, []⟩⟩

/-- The same log, to be set up again with a level for the console that there is none of. -/
def louder : Installation := ⟨⟨"ERROR", none, none, some "LOUD"⟩, ordinary.after⟩

theorem run_ordinary : CommandLine.setUpLog ordinary.request ordinary.session =
    (.ok ⟨⟩, { ordinary.session with
      log := ⟨.info, [⟨.console, .warning, Log.usualLayout⟩]⟩ }) :=
  CommandLine.setUpLog_plain .info rfl

theorem louder_fails : ∃ failure, louder.outcome = .error failure := by
  have hcapital : "LOUD".map Log.Level.capital = "LOUD" := by
    rw [← String.toList_inj, String.toList_map]
    rfl
  have hconsole : louder.consoleLevel? = none := by
    have hname : louder.consoleLevel? = Log.Level.ofName? "LOUD" := rfl
    rw [hname, Log.Level.ofName?, hcapital]
    rfl
  cases ho : louder.outcome with
  | error failure => exact ⟨failure, rfl⟩
  | ok u =>
    obtain ⟨_, ⟨-, -, -, hc⟩⟩ := louder.sound.succeeds.mp ho
    cases hconsole.symm.trans hc

/-- What a request did before it failed is not undone: the log is not always the one that the last
request to succeed left. -/
theorem failed_request_stays : ¬∀ (s : Session) (turns : List Turn), (s.afterTurns turns).log =
    (((s.installations turns).filter (·.succeeded)).getLast?.map (·.after.log)).getD s.log := by
  intro h
  obtain ⟨failure, ho⟩ := louder_fails
  have hfilter : (Session.installations ordinary.session
      [.setUp ordinary.request, .setUp louder.request]).filter (·.succeeded) = [ordinary] := by
    have hfirst : ordinary.succeeded = true := by
      rw [Installation.succeeded, Installation.outcome, run_ordinary]
      rfl
    have hsecond : ¬louder.succeeded = true := by
      rw [Installation.succeeded, ho]
      nofun
    exact (List.filter_cons_of_pos hfirst).trans
      (congrArg _ ((List.filter_cons_of_neg hsecond).trans List.filter_nil))
  have hsame := h ordinary.session [.setUp ordinary.request, .setUp louder.request]
  rw [hfilter] at hsame
  have hlog : louder.after.log = ordinary.after.log := hsame
  have hinfo : ordinary.after.log.level = .info := by rw [Installation.after, run_ordinary]
  have hlevel : louder.level? = some .error := Log.Level.ofName?_name .error
  rcases louder.sound.fails .error failure hlevel ho with hl | ⟨_, _, -, -, hl⟩ <;>
  · rw [← hlog, hl] at hinfo
    cases hinfo

end Session

end Treewire
