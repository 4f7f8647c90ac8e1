import Treewire.CommandLine.Run
import Treewire.Proofs.Speaking

/-!
# What the command line does with its inputs

The inputs are the files in their order and then the code. Each is parsed in the session that the
one before left, whatever became of that one: a tree is printed, and a failure with an explanation
costs one line on the console. `run_attempts` follows a whole list of inputs, up to the first one
that fails without an explanation or whose statements cannot be counted.
-/

namespace Treewire

/-- A session with more on its console. -/
def Session.showing (s : Session) (text : Text) : Session := { s with console := s.console ++ text }

theorem Act.run_print (text : Text) (s : Session) :
    Act.print text s = (.ok ⟨⟩, s.showing text) := rfl

namespace CommandLine

-- ---------------------------------------------------------------------------
-- Inputs
-- ---------------------------------------------------------------------------

/-- Something to parse. -/
inductive Input where
  | file (path : Text)
  | code (text : Text)

/-- The files in their order, then the code. -/
def Settings.inputs (settings : Settings) (files : List Text) : List Input :=
  files.map .file ++ (settings.code.map .code).toList

namespace Input

/-- The name under which a failure is reported. -/
def name : Input → Text
  | file path => path
  | code _ => Text.ofString "<eval>"

/-- The call that parses an input. -/
def call (launcher : Launcher) (f : Frontend) : Input → Act Decoded
  | file path => f.parse launcher path
  | code text => f.parseSource launcher text (Text.ofString "input.js")

/-- What is told of the tree of an input. That of a file must have statements to count. -/
def note : Input → Decoded → Except Failure (List Log.Record)
  | file path, tree => (topLevelCount tree).map fun count =>
    [⟨source, .info, Text.ofString "parsed " ++ path ++
      Text.ofString s!": {count} top-level statements"⟩]
  | code _, _ => .ok []

end Input

/-- An input that was tried, and what its call came to. -/
structure Attempt where
  input : Input
  outcome : Except Failure Decoded

namespace Attempt

def tree? (a : Attempt) : Option Decoded := a.outcome.toOption

/-- What is printed for an input. -/
def printed? (format : Format) (a : Attempt) : Option Text := a.tree?.map (printed format)

/-- The line that reports the failure of an input, if it failed. -/
def complaint (a : Attempt) : Text :=
  match a.outcome with
  | .ok _ => []
  | .error failure => (failure.message?.map (diagnostic a.input.name)).getD []

end Attempt

/-- One input that is dealt with, and the session that it leaves. -/
inductive Attempted (launcher : Launcher) (f : Frontend) : Session → Attempt → Session → Prop where
  | parsed {input : Input} (hc : input.call launcher f s = (.ok tree, t))
    (hn : input.note tree = .ok told) :
    Attempted launcher f s ⟨input, .ok tree⟩ (t.told told)
  | failed {input : Input} {failure : Failure}
    (hc : input.call launcher f s = (.error failure, t))
    (hm : failure.message? = some message) :
    Attempted launcher f s ⟨input, .error failure⟩ (t.showing (diagnostic input.name message))

/-- One input with which everything stops: its call fails without an explanation, or there are no
statements to count. -/
inductive Stops (launcher : Launcher) (f : Frontend) :
    Session → Input → Failure → Session → Prop where
  | call {input : Input} {failure : Failure}
    (hc : input.call launcher f s = (.error failure, t))
    (hm : failure.message? = none) :
    Stops launcher f s input failure t
  | count {input : Input} {failure : Failure}
    (hc : input.call launcher f s = (.ok tree, t))
    (hn : input.note tree = .error failure) :
    Stops launcher f s input failure t

/-- Some inputs that are dealt with one after the other. -/
inductive Attempts (launcher : Launcher) (f : Frontend) :
    Session → List Attempt → Session → Prop where
  | none (s : Session) : Attempts launcher f s [] s
  | next (first : Attempted launcher f s a t) (rest : Attempts launcher f t more u) :
    Attempts launcher f s (a :: more) u

variable {launcher : Launcher} {f : Frontend} {s t : Session} {failure : Failure} {a : Attempt}
  {attempts : List Attempt}

-- ---------------------------------------------------------------------------
-- One input
-- ---------------------------------------------------------------------------

theorem topLevelCount_fails {tree : Decoded} (h : topLevelCount tree = .error failure) :
    failure.message? = none := by
  unfold topLevelCount at h
  split at h
  · cases h
    rfl
  · dsimp only at h
    split at h
    · cases h
    · split at h <;> cases h
      rfl

/-- What the program does with an input. -/
def attemptOne (launcher : Launcher) (f : Frontend) (format : Format) : Input → Act (Option Text)
  | .file path => attemptInput path (parseFile launcher f format path)
  | .code text => attemptInput (Text.ofString "<eval>") (parseCode launcher f format text)

theorem attemptOne_eq (format : Format) (input : Input) : attemptOne launcher f format input =
    attemptInput input.name (do
      let tree ← input.call launcher f
      let told ← Act.ofExcept id (input.note tree)
      modify (·.told told)
      return printed format tree) := by
  cases input with
  | code text => rfl
  | file path =>
    rw [attemptOne, parseFile]
    refine congrArg (attemptInput path) (bind_congr fun tree => ?_)
    rw [Input.note]
    cases topLevelCount tree <;> rfl

theorem run_attemptInput (name : Text) (act : Act Text) : attemptInput name act s =
    match (act s).1 with
    | .ok text => (.ok (some text), (act s).2)
    | .error failure =>
      match failure.message? with
      | none => (.error failure, (act s).2)
      | some message => (.ok none, (act s).2.showing (diagnostic name message)) := by
  rw [attemptInput, Act.run_bind, Act.run_attempt]
  dsimp only
  cases (act s).1 with
  | ok text => rfl
  | error failure =>
    dsimp only
    cases failure.message? <;> rfl

/-- An input is dealt with, or everything stops at it. -/
theorem attemptOne_cases (launcher : Launcher) (f : Frontend) (format : Format) (s : Session)
    (input : Input) :
    (∃ a t, a.input = input ∧ Attempted launcher f s a t ∧
      attemptOne launcher f format input s = (.ok (a.printed? format), t)) ∨
    ∃ failure t, Stops launcher f s input failure t ∧
      attemptOne launcher f format input s = (.error failure, t) := by
  rw [attemptOne_eq, run_attemptInput, Act.run_bind]
  rcases hc : input.call launcher f s with ⟨failure | tree, t⟩
  · dsimp only
    cases hm : failure.message? with
    | none => exact .inr ⟨failure, t, .call hc hm, rfl⟩
    | some message => exact .inl ⟨_, _, rfl, .failed hc hm, rfl⟩
  · dsimp only
    rw [Act.run_bind, Act.run_ofExcept]
    cases hn : input.note tree with
    | ok told => exact .inl ⟨_, _, rfl, .parsed hc hn, rfl⟩
    | error failure =>
      have hm : failure.message? = none := by
        cases input with
        | code text => cases hn
        | file path =>
          rw [Input.note] at hn
          cases hcount : topLevelCount tree with
          | ok count =>
            rw [hcount] at hn
            cases hn
          | error other =>
            rw [hcount] at hn
            cases hn
            exact topLevelCount_fails hcount
      have hid : (Except.error failure : Except Failure (List Log.Record)).mapError id =
          .error failure := rfl
      rw [hid]
      dsimp only
      rw [hm]
      exact .inr ⟨failure, t, .count hc hn, rfl⟩

/-- What an input that is dealt with leaves on the console: lines of the log, and the line that
reports its failure. -/
theorem Attempted.heard (h : Attempted launcher f s a t) : ∃ told,
    t.log = s.log ∧ t.records = s.records ++ told ∧
      t.console = s.console ++ (told.flatMap s.log.shown ++ a.complaint) := by
  have hcall (input : Input) : (input.call launcher f).Murmurs := by
    cases input with
    | file path => exact Frontend.parse_murmurs launcher f path
    | code text => exact Frontend.parseSource_murmurs launcher f text _
  cases h with
  | @parsed t tree note input hc hn =>
    obtain ⟨rs, hrs⟩ := hcall input s
    obtain ⟨more, hmore⟩ := Session.Murmured.told t note
    rw [hc] at hrs
    obtain ⟨hlog, hrecords, hconsole⟩ := hrs.trans hmore
    have hsilent : (Attempt.mk input (.ok tree)).complaint = [] := rfl
    exact ⟨_, hlog, hrecords, by rw [hconsole, hsilent, List.append_nil]⟩
  | @failed t message input failure hc hm =>
    obtain ⟨rs, hrs⟩ := hcall input s
    rw [hc] at hrs
    have hline : (Attempt.mk input (.error failure)).complaint = diagnostic input.name message := by
      simp [Attempt.complaint, hm]
    refine ⟨rs, hrs.log, hrs.records, ?_⟩
    rw [Session.showing, hrs.console, hline, List.append_assoc]

-- ---------------------------------------------------------------------------
-- All inputs
-- ---------------------------------------------------------------------------

theorem parseInputs_eq (settings : Settings) (files : List Text) :
    parseInputs launcher f settings files =
      (settings.inputs files).mapM (attemptOne launcher f settings.format) := by
  rw [parseInputs, Settings.inputs, List.mapM_append, List.mapM_map]
  refine bind_congr fun outcomes => ?_
  cases settings.code with
  | none => simp
  | some code => simp [attemptOne]

/-- A list of inputs is dealt with up to its end, or up to the first one at which everything
stops. -/
theorem run_attempts (launcher : Launcher) (f : Frontend) (format : Format) (inputs : List Input)
    (s : Session) : ∃ attempts t, Attempts launcher f s attempts t ∧
      (inputs = attempts.map (·.input) ∧
          inputs.mapM (attemptOne launcher f format) s =
            (.ok (attempts.map (·.printed? format)), t) ∨
        ∃ input rest failure u, inputs = attempts.map (·.input) ++ input :: rest ∧
          Stops launcher f t input failure u ∧
          inputs.mapM (attemptOne launcher f format) s = (.error failure, u)) := by
  induction inputs generalizing s with
  | nil => exact ⟨[], s, .none s, .inl ⟨rfl, rfl⟩⟩
  | cons input rest ih =>
    rw [List.mapM_cons, Act.run_bind]
    rcases attemptOne_cases launcher f format s input with ⟨a, t, ha, hs, hrun⟩ | ⟨e, t, hs, hrun⟩
    · obtain ⟨attempts, u, hall, hend⟩ := ih t
      refine ⟨a :: attempts, u, .next hs hall, ?_⟩
      rw [hrun]
      dsimp only
      rw [Act.run_bind]
      rcases hend with ⟨hi, hmap⟩ | ⟨i, others, e, v, hi, hstop, hmap⟩
      · rw [hmap, hi, ← ha]
        exact .inl ⟨rfl, rfl⟩
      · rw [hmap, hi, ← ha]
        exact .inr ⟨i, others, e, v, rfl, hstop, rfl⟩
    · rw [hrun]
      exact ⟨[], s, .none s, .inr ⟨input, rest, e, t, rfl, hs, rfl⟩⟩

/-- What the inputs leave on the console: for each in its turn lines of the log, and the line that
reports its failure. -/
theorem Attempts.heard (h : Attempts launcher f s attempts t) :
    ∃ told : List (List Log.Record), told.length = attempts.length ∧
      t.log = s.log ∧ t.records = s.records ++ told.flatten ∧
      t.console = s.console ++ (List.zipWith (fun rs a =>
        rs.flatMap s.log.shown ++ a.complaint) told attempts).flatten := by
  induction h with
  | none s => exact ⟨[], rfl, rfl, by simp, by simp⟩
  | next first rest ih =>
    obtain ⟨rs, hlog, hrecords, hconsole⟩ := first.heard
    obtain ⟨told, hlength, hlog', hrecords', hconsole'⟩ := ih
    refine ⟨rs :: told, by simp [hlength], hlog'.trans hlog, ?_, ?_⟩
    · rw [hrecords', hrecords, List.flatten_cons, List.append_assoc]
    · rw [hconsole', hconsole, hlog, List.zipWith_cons_cons, List.flatten_cons]
      simp only [List.append_assoc]

-- ---------------------------------------------------------------------------
-- No choice
-- ---------------------------------------------------------------------------

/-- An input is dealt with in one way. -/
theorem Attempted.unique {b : Attempt} (h : Attempted launcher f s a t)
    (h' : Attempted launcher f s b u) (hi : a.input = b.input) : a = b ∧ t = u := by
  cases h with
  | parsed hc hn =>
    cases h' with
    | parsed hc' hn' =>
      cases hi
      cases hc.symm.trans hc'
      cases hn.symm.trans hn'
      exact ⟨rfl, rfl⟩
    | failed hc' hm' =>
      cases hi
      cases hc.symm.trans hc'
  | failed hc hm =>
    cases h' with
    | parsed hc' hn' =>
      cases hi
      cases hc.symm.trans hc'
    | failed hc' hm' =>
      cases hi
      cases hc.symm.trans hc'
      cases hm.symm.trans hm'
      exact ⟨rfl, rfl⟩

theorem Attempted.not_stops (h : Attempted launcher f s a t) :
    ¬Stops launcher f s a.input failure u := by
  intro hs
  cases h with
  | parsed hc hn =>
    cases hs with
    | call hc' hm' => cases hc.symm.trans hc'
    | count hc' hn' =>
      cases hc.symm.trans hc'
      cases hn.symm.trans hn'
  | failed hc hm =>
    cases hs with
    | call hc' hm' =>
      cases hc.symm.trans hc'
      cases hm.symm.trans hm'
    | count hc' hn' => cases hc.symm.trans hc'

/-- What becomes of a list of inputs is determined by the list. -/
theorem Attempts.determined {others : List Attempt} (h : Attempts launcher f s attempts t)
    (h' : Attempts launcher f s others u) :
    (attempts.map (·.input) = others.map (·.input) → attempts = others ∧ t = u) ∧
      ∀ input rest failure v, attempts.map (·.input) = others.map (·.input) ++ input :: rest →
        ¬Stops launcher f u input failure v := by
  induction h generalizing others with
  | none s =>
    cases h' with
    | none => exact ⟨fun _ => ⟨rfl, rfl⟩, fun input rest failure v hi => by cases hi⟩
    | next first rest =>
      exact ⟨fun hi => (by cases hi), fun input rest failure v hi => by cases hi⟩
  | next first rest ih =>
    cases h' with
    | none =>
      refine ⟨fun hi => (by cases hi), fun input rest failure v hi => ?_⟩
      cases hi
      exact first.not_stops
    | next first' rest' =>
      have hfirst (hi : _) := first.unique first' hi
      refine ⟨fun hi => ?_, fun input rest failure v hi => ?_⟩
      · obtain ⟨rfl, rfl⟩ := hfirst (List.cons.inj hi).1
        obtain ⟨rfl, rfl⟩ := (ih rest').1 (List.cons.inj hi).2
        exact ⟨rfl, rfl⟩
      · obtain ⟨rfl, rfl⟩ := hfirst (List.cons.inj hi).1
        exact (ih rest').2 input rest failure v (List.cons.inj hi).2

/-- An input with which everything stops leaves the list without an outcome. -/
theorem Stops.fails {input : Input} {rest inputs : List Input}
    (h : Stops launcher f t input failure u) (hall : Attempts launcher f s attempts t)
    (hi : inputs = attempts.map (·.input) ++ input :: rest) (format : Format) :
    ∃ e, (inputs.mapM (attemptOne launcher f format) s).1 = .error e := by
  obtain ⟨others, v, hothers, ⟨hinputs, -⟩ | ⟨-, -, e, w, -, -, hrun⟩⟩ :=
    run_attempts launcher f format inputs s
  · exact absurd h ((hothers.determined hall).2 input rest failure u (hinputs.symm.trans hi))
  · exact ⟨e, by rw [hrun]⟩

end CommandLine

end Treewire
