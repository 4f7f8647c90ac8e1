import Treewire.Proofs.Interleaving
import Treewire.Proofs.Judging
import Treewire.Proofs.Tidying

/-!
# Which failure is reported

A parse runs the script, reads its output, removes the output, compiles the schema, finds the type of
trees in it, and decodes. Its outcome is that of the first of these stages that fails: a script that
failed is not decoded, whatever it left, and an output that cannot be removed is reported before
anything is said about the schema or the octets. So the output is gone before the schema is compiled.

What a stage reports is a failure that the program foresees, but for one stage: the system may keep
the compiler from looking at the schema, or from making files of its own.
-/

namespace Treewire

-- ---------------------------------------------------------------------------
-- The run
-- ---------------------------------------------------------------------------

/-- The failures of a script: it failed, or took too long. -/
inductive Failure.OfScript : Failure → Prop
  | failed (message : Text) (status : Option Int) : OfScript (.failed message status)
  | overran (limit : Duration) (output : Text) : OfScript (.overran limit output)

namespace Invocation

variable {command : List Text} {limit : Option Duration} {launcher : Launcher} {s : Session}
  {result : LimitedFinish}

/-- A limit that the clock can be set to, or that is over at once. -/
def Heeded (limit : Option Duration) : Prop :=
  ∀ d, limit = some d → ∀ fault, watch d ≠ .fails fault

theorem Account.ofScript {failure : Failure} (h : Account limit result (.error failure)) :
    failure.OfScript := by
  cases h with
  | failure | signal | refusal => exact .failed ..
  | delay => exact .overran ..

section
variable {d : Duration} (hr : ¬∃ error, result = .finished (.refused error))
include hr

theorem judge_over (hw : watch d = .over) :
    judge command (some d) result = overrun command d [] := by
  cases result with
  | overran output => simp only [judge, Option.map_some, hw]
  | finished finish =>
    cases finish with
    | refused error => exact absurd ⟨error, rfl⟩ hr
    | _ => simp only [judge, Option.map_some, hw]

theorem judge_fails (hw : watch d = .fails fault) :
    judge command (some d) result = throw (.badLimit fault) := by
  cases result with
  | overran output => simp only [judge, Option.map_some, hw]
  | finished finish =>
    cases finish with
    | refused error => exact absurd ⟨error, rfl⟩ hr
    | _ => simp only [judge, Option.map_some, hw]

end

/-- What a result is made of: what its finish is made of, or it came too late, or the clock fails. -/
theorem judge_eq (command : List Text) (limit : Option Duration) (result : LimitedFinish) :
    (∃ finish, result = .finished finish ∧ judge command limit result = conclude command finish) ∨
    (∃ d output, judge command limit result = overrun command d output) ∨
    ¬Heeded limit ∧ ∃ fault, judge command limit result = throw (.badLimit fault) := by
  by_cases hr : ∃ error, result = .finished (.refused error)
  · obtain ⟨error, rfl⟩ := hr
    exact .inl ⟨_, rfl, rfl⟩
  -- Without a limit, and with one that is counted, the result decides.
  have hresult (hl : ∀ d, limit = some d → ∃ n, watch d = .counts n) :
      (∃ finish, result = .finished finish ∧ judge command limit result = conclude command finish) ∨
      ∃ d output, judge command limit result = overrun command d output := by
    cases result with
    | overran output =>
      refine .inr ⟨limit.getD (.whole 0), output, ?_⟩
      cases limit with
      | none => rfl
      | some d =>
        obtain ⟨n, hn⟩ := hl d rfl
        simp only [judge, Option.map_some, hn]
    | finished finish =>
      refine .inl ⟨finish, rfl, ?_⟩
      cases limit with
      | none => cases finish <;> rfl
      | some d =>
        obtain ⟨n, hn⟩ := hl d rfl
        cases finish <;> simp only [judge, Option.map_some, hn]
        rfl
  cases limit with
  | none => exact (hresult fun d hd => by cases hd).imp_right .inl
  | some d =>
    cases hw : watch d with
    | «over» => exact .inr (.inl ⟨d, [], judge_over hr hw⟩)
    | fails fault => exact .inr (.inr ⟨fun h => h d rfl fault hw, fault, judge_fails hr hw⟩)
    | counts n => exact (hresult fun _ hd => Option.some.inj hd ▸ ⟨n, hw⟩).imp_right .inl

/-- A judgement is a success of a command that ended with status zero, or a failure of the script, or
it is put down to the clock. -/
theorem judge_cases (command : List Text) (limit : Option Duration) (result : LimitedFinish)
    (s : Session) :
    (∃ output, result = .finished (.exited 0 output) ∧
      (judge command limit result s).1 = .ok (outputText output)) ∨
    (∃ failure, failure.OfScript ∧ (judge command limit result s).1 = .error failure) ∨
    ¬Heeded limit ∧ ∃ fault, (judge command limit result s).1 = .error (.badLimit fault) := by
  rcases judge_eq command limit result with ⟨finish, rfl, hj⟩ | ⟨d, output, hj⟩ | ⟨hn, fault, hj⟩
  · rw [hj]
    have haccount := conclude_account command limit finish s
    generalize (conclude command finish s).1 = outcome at haccount ⊢
    cases outcome with
    | error failure => exact .inr (.inl ⟨failure, haccount.ofScript, rfl⟩)
    | ok text =>
      cases haccount
      exact .inl ⟨_, rfl, rfl⟩
  · rw [hj]
    exact .inr (.inl ⟨_, .overran d _, rfl⟩)
  · rw [hj]
    exact .inr (.inr ⟨hn, fault, rfl⟩)

end Invocation

-- ---------------------------------------------------------------------------
-- Reading
-- ---------------------------------------------------------------------------

namespace Files

variable {fs fs' : Files} {here : Location} {path : String} {logs : List Location}

/-- What reading an entry gives. -/
def contents : Option Entry → Except FileError Bytes
  | some (.file content _) => .ok content
  | some .directory => .error .isDirectory
  | some _ => .ok []
  | none => .error .noEntry

theorem read_eq (fs : Files) (here : Location) (path : String) : fs.read here path =
    (fs.resolve here true path).bind fun loc => contents (fs.get? loc) := by
  rw [read, stat_eq]
  cases fs.resolve here true path with
  | error e => rfl
  | ok loc =>
    dsimp only [Except.bind]
    cases fs.get? loc with
    | none => rfl
    | some entry => cases entry <;> rfl

/-- Files that grew are read as they were, but for what was added to them. -/
theorem Grown.read (h : Grown logs fs fs') (here : Location) (path : String) :
    fs'.read here path = fs.read here path ∨
    ∃ loc ∈ logs, fs.resolve here true path = .ok loc ∧ ∃ content more,
      fs.read here path = .ok content ∧ fs'.read here path = .ok (content ++ more) := by
  simp only [read_eq, h.twin.resolve]
  cases hr : fs.resolve here true path with
  | error e => exact .inl rfl
  | ok loc =>
    dsimp only [Except.bind]
    rcases h loc with he | ⟨hm, content, more, mode, hb, ha⟩
    · exact .inl (by rw [he])
    · exact .inr ⟨loc, hm, rfl, content, more, by rw [hb, contents], by rw [ha, contents]⟩

end Files

-- ---------------------------------------------------------------------------
-- Decoding
-- ---------------------------------------------------------------------------

namespace Act

end Act

-- ---------------------------------------------------------------------------
-- Parsing
-- ---------------------------------------------------------------------------

namespace Frontend

/-- A script that ended with status zero. -/
def Succeeds (launcher : Launcher) (f : Frontend) (words : List Text) (picked : Session) : Prop :=
  ∃ printed, Invocation.answer launcher words f.configuration.timeout picked =
    .finished (.exited 0 printed)

/-- A script that succeeded, and what was read at the path of its output: what the script left there.
There may be more only if the path leads to a file of the log, namely what was logged meanwhile. -/
structure Delivers (launcher : Launcher) (f : Frontend) (words : List Text) (output : Path)
    (picked done : Session) (data : Bytes) : Prop where
  succeeds : Succeeds launcher f words picked
  ran : Ran launcher f words picked done
  data : ∃ content more, data = content ++ more ∧
    (leftBy launcher f words picked).read picked.machine.here output.toString = .ok content ∧
    (more ≠ [] → ∃ loc ∈ picked.log.files,
      (leftBy launcher f words picked).resolve picked.machine.here true output.toString = .ok loc)

section
variable {launcher : Launcher} {f : Frontend} {picked done : Session} {schema output : Path}
  {file : Text} {data : Bytes}

end

end Frontend

end Treewire
