import Mathlib.Data.List.Basic
import Treewire.Proofs.Reporting
import Treewire.Script.Command

/-!
# How the converter exits

A run with three arguments goes through six stages. `Script.Fails` says for each how it fails, once
it has what it needs, and `run_cases` that a run ends with the first stage that fails and leaves the
files as they were, or else writes the encoded form. `run_exits` draws the conclusions for any
arguments: exit code, report and output agree.
-/

namespace Treewire

-- ---------------------------------------------------------------------------
-- Writing and reading back
-- ---------------------------------------------------------------------------

namespace Files

variable {fs fs' : Files} {here : Location} {path : String} {content : Bytes}

/-- Whether a path leads to a file, or to where one can be made. -/
def Plain (fs : Files) (here : Location) (path : String) : Prop :=
  ∀ loc, fs.resolve here true path = .ok loc →
    fs.get? loc = none ∨ ∃ content mode, fs.get? loc = some (.file content mode)

theorem read_of_write (hp : fs.Plain here path) (h : fs.write here path content = .ok fs') :
    fs'.read here path = .ok content := by
  rw [write_eq] at h
  cases hw : fs.writable here path with
  | error e =>
    rw [hw] at h
    cases h
  | ok loc =>
    rw [hw] at h
    obtain rfl : fs.written loc content = fs' := Except.ok.inj h
    obtain ⟨hr, hd⟩ := writable_ok hw
    have hplain := hp loc hr
    have hput (mode : Nat) : (fs.put loc (.file content mode)).read here path = .ok content := by
      rw [read_eq, (Fuller.put hplain content mode).resolve_ok hr]
      simp only [Except.bind, get?_put_self _ (ne_root_of_get? hd), contents]
    unfold written
    rcases hplain with hg | ⟨old, mode, hg⟩
    · rw [hg]
      exact hput usualMode
    · rw [hg]
      exact hput mode

end Files

namespace Script

-- ---------------------------------------------------------------------------
-- Stages
-- ---------------------------------------------------------------------------

/-- What a run with three arguments goes through. -/
inductive Stage where
  | loading
  | input
  | reading
  | conversion
  | verification
  | output

/-- How many stages run before. -/
def Stage.index : Stage → Nat
  | .loading => 0
  | .input => 1
  | .reading => 2
  | .conversion => 3
  | .verification => 4
  | .output => 5

theorem Stage.index_inj {a b : Stage} (h : a.index = b.index) : a = b := by
  cases a <;> cases b <;> first | rfl | cases h

/-- How each stage fails, once it has what it needs. -/
inductive Fails (tools : Toolchain) (fs : Files) (here : Location) (schema input output : String) :
    Stage → Failure → Prop
  | loading (hl : tools.load schema = .error fault) :
      Fails tools fs here schema input output .loading (.loading fault)
  | input (hi : fs.read here input = .error error) :
      Fails tools fs here schema input output .input (.input error input)
  | reading (hi : fs.read here input = .ok bytes)
      (hr : tools.read (Utf8.decodeStringLossy bytes) = .error fault) :
      Fails tools fs here schema input output .reading (.reading fault)
  | conversion (hi : fs.read here input = .ok bytes)
      (hr : tools.read (Utf8.decodeStringLossy bytes) = .ok program)
      (hc : program.form = .error fault) :
      Fails tools fs here schema input output .conversion (.conversion fault)
  | verification (hi : fs.read here input = .ok bytes)
      (hr : tools.read (Utf8.decodeStringLossy bytes) = .ok program)
      (hc : program.form = .ok form) (hv : tools.verify form = some reason) (hn : reason ≠ "") :
      Fails tools fs here schema input output .verification (.invalid reason)
  | output (hw : fs.writable here output = .error error) :
      Fails tools fs here schema input output .output (.output error output)

/-- Whether no stage fails before one. -/
def Reaches (tools : Toolchain) (fs : Files) (here : Location) (schema input output : String)
    (stage : Stage) : Prop :=
  ∀ earlier failure, earlier.index < stage.index →
    ¬Fails tools fs here schema input output earlier failure

/-- Whether a stage fails in this way, and none does before. -/
def FailsFirst (tools : Toolchain) (fs : Files) (here : Location) (schema input output : String)
    (failure : Failure) : Prop :=
  ∃ stage, Reaches tools fs here schema input output stage ∧
    Fails tools fs here schema input output stage failure

/-- Whether all stages succeed, and what the form is then. -/
structure Succeeds (tools : Toolchain) (fs : Files) (here : Location)
    (schema input output : String) (form : Form) : Prop where
  loads : tools.load schema = .ok ()
  converts : ∃ bytes program, fs.read here input = .ok bytes ∧
    tools.read (Utf8.decodeStringLossy bytes) = .ok program ∧ program.form = .ok form
  verifies : ∀ reason, tools.verify form = some reason → reason = ""
  opens : ∃ loc, fs.writable here output = .ok loc

variable {tools : Toolchain} {fs : Files} {here : Location} {schema input output : String}
  {failure : Failure} {bytes : Bytes} {program : Program} {form : Form}

theorem not_fails_loading (hl : tools.load schema = .ok ()) :
    ¬Fails tools fs here schema input output .loading failure := by
  rintro ⟨h⟩
  cases hl.symm.trans h

theorem not_fails_input (hi : fs.read here input = .ok bytes) :
    ¬Fails tools fs here schema input output .input failure := by
  intro h
  cases h with
  | input h => cases hi.symm.trans h

theorem not_fails_reading (hi : fs.read here input = .ok bytes)
    (hr : tools.read (Utf8.decodeStringLossy bytes) = .ok program) :
    ¬Fails tools fs here schema input output .reading failure := by
  intro h
  cases h with
  | reading hi' h =>
    cases hi.symm.trans hi'
    cases hr.symm.trans h

theorem not_fails_conversion (hi : fs.read here input = .ok bytes)
    (hr : tools.read (Utf8.decodeStringLossy bytes) = .ok program) (hc : program.form = .ok form) :
    ¬Fails tools fs here schema input output .conversion failure := by
  intro h
  cases h with
  | conversion hi' hr' h =>
    cases hi.symm.trans hi'
    cases hr.symm.trans hr'
    cases hc.symm.trans h

theorem not_fails_verification (hi : fs.read here input = .ok bytes)
    (hr : tools.read (Utf8.decodeStringLossy bytes) = .ok program) (hc : program.form = .ok form)
    (hv : ∀ reason, tools.verify form = some reason → reason = "") :
    ¬Fails tools fs here schema input output .verification failure := by
  intro h
  cases h with
  | verification hi' hr' hc' h hn =>
    cases hi.symm.trans hi'
    cases hr.symm.trans hr'
    cases hc.symm.trans hc'
    exact hn (hv _ h)

theorem not_fails_output (hw : fs.writable here output = .ok loc) :
    ¬Fails tools fs here schema input output .output failure := by
  intro h
  cases h with
  | output h => cases hw.symm.trans h

theorem Succeeds.not_fails (h : Succeeds tools fs here schema input output form) (stage : Stage) :
    ¬Fails tools fs here schema input output stage failure := by
  obtain ⟨hl, ⟨bytes, program, hi, hr, hc⟩, hv, ⟨loc, hw⟩⟩ := h
  cases stage with
  | loading => exact not_fails_loading hl
  | input => exact not_fails_input hi
  | reading => exact not_fails_reading hi hr
  | conversion => exact not_fails_conversion hi hr hc
  | verification => exact not_fails_verification hi hr hc hv
  | output => exact not_fails_output hw

-- ---------------------------------------------------------------------------
-- Runs
-- ---------------------------------------------------------------------------

theorem reaches_loading : Reaches tools fs here schema input output .loading :=
  fun _ _ hlt => absurd hlt (Nat.not_lt_zero _)

/-- After a stage that does not fail comes the next one. -/
theorem Reaches.next {stage later : Stage} (h : Reaches tools fs here schema input output stage)
    (hn : ∀ failure, ¬Fails tools fs here schema input output stage failure)
    (hl : later.index = stage.index + 1) : Reaches tools fs here schema input output later := by
  intro earlier failure hlt
  rcases Nat.lt_or_eq_of_le (Nat.le_of_lt_succ (hl ▸ hlt)) with hless | heq
  · exact h earlier failure hless
  · rw [Stage.index_inj heq]
    exact hn failure

/-- The four stages between the schema and the output. -/
theorem convertFile_cases (output : String) (hl : tools.load schema = .ok ()) :
    (∃ failure script, FailsFirst tools fs here schema input output failure ∧
      convertFile tools fs here input = (script, .error failure)) ∨
    ∃ bytes program form script, fs.read here input = .ok bytes ∧
      tools.read (Utf8.decodeStringLossy bytes) = .ok program ∧ program.form = .ok form ∧
        (∀ reason, tools.verify form = some reason → reason = "") ∧
          Reaches tools fs here schema input output .output ∧
            convertFile tools fs here input = (script, .ok form) := by
  have hinput : Reaches tools fs here schema input output .input :=
    reaches_loading.next (fun _ => not_fails_loading hl) rfl
  cases hi : fs.read here input with
  | error e => exact .inl ⟨_, none, ⟨_, hinput, .input hi⟩, by simp only [convertFile, hi]⟩
  | ok bytes =>
  let script := Utf8.decodeStringLossy bytes
  have hreading : Reaches tools fs here schema input output .reading :=
    hinput.next (fun _ => not_fails_input hi) rfl
  cases hr : tools.read (Utf8.decodeStringLossy bytes) with
  | error fault =>
    refine .inl ⟨_, some script, ⟨_, hreading, .reading hi hr⟩, ?_⟩
    simp only [script, convertFile, hi, hr]
  | ok program =>
  have hconversion : Reaches tools fs here schema input output .conversion :=
    hreading.next (fun _ => not_fails_reading hi hr) rfl
  cases hc : program.form with
  | error fault =>
    refine .inl ⟨_, some script, ⟨_, hconversion, .conversion hi hr hc⟩, ?_⟩
    simp only [script, convertFile, hi, hr, hc]
  | ok form =>
  have hverification : Reaches tools fs here schema input output .verification :=
    hconversion.next (fun _ => not_fails_conversion hi hr hc) rfl
  have houtput (hv : ∀ reason, tools.verify form = some reason → reason = "") :
      Reaches tools fs here schema input output .output :=
    hverification.next (fun _ => not_fails_verification hi hr hc hv) rfl
  cases hverify : tools.verify form with
  | none =>
    have hv : ∀ reason, tools.verify form = some reason → reason = "" :=
      fun _ h => by cases hverify.symm.trans h
    refine .inr ⟨bytes, program, form, some script, rfl, hr, hc, hv, houtput hv, ?_⟩
    simp only [script, convertFile, hi, hr, hc, hverify]
  | some reason =>
  -- An empty reason is none.
  by_cases hn : reason = ""
  · have hv : ∀ reason, tools.verify form = some reason → reason = "" := by
      intro _ h
      cases hverify.symm.trans h
      exact hn
    refine .inr ⟨bytes, program, form, some script, rfl, hr, hc, hv, houtput hv, ?_⟩
    simp only [script, convertFile, hi, hr, hc, hverify, if_pos hn]
  · refine .inl ⟨_, some script, ⟨_, hverification, .verification hi hr hc hverify hn⟩, ?_⟩
    simp only [script, convertFile, hi, hr, hc, hverify, if_neg hn]

/-- A run with three arguments ends with the first stage that fails, and the files are as they were;
or no stage fails, and the form is written. -/
theorem run_cases (tools : Toolchain) (fs : Files) (here : Location)
    (schema input output : String) :
    (∃ failure script, FailsFirst tools fs here schema input output failure ∧
      run tools fs here [schema, input, output] = ⟨fs, some failure, script, none⟩) ∨
    ∃ form script fs', Succeeds tools fs here schema input output form ∧
      fs.write here output (tools.encode form) = .ok fs' ∧
        run tools fs here [schema, input, output] = ⟨fs', none, script, some form⟩ := by
  cases hl : tools.load schema with
  | error fault =>
    exact .inl ⟨_, none, ⟨_, reaches_loading, .loading hl⟩, by simp only [run, hl]⟩
  | ok =>
  rcases convertFile_cases output hl with ⟨failure, script, hfirst, hrun⟩ |
    ⟨bytes, program, form, script, hi, hr, hc, hv, houtput, hrun⟩
  · exact .inl ⟨failure, script, hfirst, by simp only [run, hl, hrun]⟩
  have hwrite := Files.write_eq fs here output (tools.encode form)
  cases hw : fs.writable here output with
  | error e =>
    rw [hw] at hwrite
    refine .inl ⟨_, script, ⟨_, houtput, .output hw⟩, ?_⟩
    simp only [run, hl, hrun, hwrite, Except.map]
  | ok loc =>
    rw [hw] at hwrite
    refine .inr ⟨form, script, _, ⟨hl, ⟨bytes, program, hi, hr, hc⟩, hv, loc, hw⟩, hwrite, ?_⟩
    simp only [run, hl, hrun, hwrite, Except.map]

/-- Whether a run wrote the encoding of its form to a path. -/
def Run.Wrote (r : Run) (tools : Toolchain) (fs : Files) (here : Location) (path : String) : Prop :=
  ∃ form, r.form = some form ∧ fs.write here path (tools.encode form) = .ok r.files

theorem Run.not_wrote {r : Run} (h : r.form = none) (path : String) :
    ¬r.Wrote tools fs here path := by
  rintro ⟨form, hform, -⟩
  rw [h] at hform
  cases hform

theorem FailsFirst.exitCode (h : FailsFirst tools fs here schema input output failure) :
    failure.exitCode = 1 := by
  obtain ⟨stage, -, hfails⟩ := h
  cases hfails <;> rfl

theorem FailsFirst.not_all (h : FailsFirst tools fs here schema input output failure) :
    ¬∀ stage failure, ¬Fails tools fs here schema input output stage failure := by
  obtain ⟨stage, -, hfails⟩ := h
  exact fun hnone => hnone stage failure hfails

theorem printed_ne_empty (text : String) : text ++ "\n" ≠ "" := by
  intro h
  have hlist := congrArg String.toList h
  rw [String.toList_append] at hlist
  simp at hlist

theorem run_usage {arguments : List String} (h0 : arguments ≠ []) (h3 : arguments.length ≠ 3) :
    run tools fs here arguments = ⟨fs, some .usage, none, none⟩ := by
  unfold run
  split
  · exact absurd rfl h0
  · exact absurd rfl h3
  · rfl

/-- Exit code, report and output agree, whatever the arguments. Without arguments nothing happens,
and with another number than three the usage is told. With three, the code is zero exactly if no
stage fails; the form is written then, and only then. Otherwise the code is one, what is printed is
the failure of the first stage that fails, and all files are as they were. -/
theorem run_exits (tools : Toolchain) (fs : Files) (here : Location) (arguments : List String) :
    let r := run tools fs here arguments
    (arguments = [] → r.exitCode = 0 ∧ r.printed = "" ∧ r.files = fs) ∧
    (arguments ≠ [] → arguments.length ≠ 3 →
      r.exitCode = 2 ∧ r.printed = Failure.usage.message ++ "\n" ∧ r.files = fs) ∧
    (∀ schema input output, arguments = [schema, input, output] →
      (r.exitCode = 0 ↔ ∀ stage failure, ¬Fails tools fs here schema input output stage failure) ∧
      (r.exitCode = 0 → ∃ form, Succeeds tools fs here schema input output form ∧
        r.form = some form ∧
          (fs.Plain here output → r.files.read here output = .ok (tools.encode form))) ∧
      (r.exitCode ≠ 0 → r.exitCode = 1 ∧ ∃ failure,
        FailsFirst tools fs here schema input output failure ∧
          r.printed = failure.message ++ "\n")) ∧
    ((∃ output, arguments.getLast? = some output ∧ r.Wrote tools fs here output) ↔
      arguments.length = 3 ∧ r.exitCode = 0) ∧
    (r.exitCode ≠ 0 → r.printed ≠ "" ∧ r.files = fs) := by
  intro r
  by_cases h0 : arguments = []
  · subst h0
    exact ⟨fun _ => ⟨rfl, rfl, rfl⟩, fun h => absurd rfl h, nofun,
      ⟨fun ⟨_, h, _⟩ => absurd h nofun, fun h => absurd h.1 (by decide)⟩, fun h => absurd rfl h⟩
  by_cases h3 : arguments.length = 3
  · obtain ⟨schema, input, output, rfl⟩ := List.length_eq_three.mp h3
    refine ⟨fun h => absurd h h0, fun _ h => absurd h3 h, ?_⟩
    rcases run_cases tools fs here schema input output with
      ⟨failure, script, hfirst, hrun⟩ | ⟨form, script, fs', hs, hw, hrun⟩
    · -- A stage fails, and with it the run.
      have hr : r = ⟨fs, some failure, script, none⟩ := hrun
      have hcode : r.exitCode = 1 := by rw [hr]; exact hfirst.exitCode
      have hnot : ¬r.exitCode = 0 := by rw [hcode]; decide
      refine ⟨?_, ⟨?_, fun h => absurd h.2 hnot⟩, fun _ => ?_⟩
      · rintro _ _ _ ⟨⟩
        refine ⟨iff_of_false hnot hfirst.not_all, fun h => absurd h hnot, fun _ => ⟨hcode, ?_⟩⟩
        exact ⟨failure, hfirst, by rw [hr]; rfl⟩
      · rintro ⟨path, -, hwrote⟩
        exact absurd hwrote (Run.not_wrote (congrArg Run.form hr) path)
      · rw [hr]
        exact ⟨printed_ne_empty _, rfl⟩
    · -- No stage fails.
      have hr : r = ⟨fs', none, script, some form⟩ := hrun
      have hcode : r.exitCode = 0 := by rw [hr]; rfl
      refine ⟨?_, ⟨fun _ => ⟨h3, hcode⟩, fun _ => ⟨output, rfl, form, ?_⟩⟩, fun h => absurd hcode h⟩
      · rintro _ _ _ ⟨⟩
        refine ⟨iff_of_true hcode fun stage _ => hs.not_fails stage, fun _ => ⟨form, hs, ?_⟩,
          fun h => absurd hcode h⟩
        rw [hr]
        exact ⟨rfl, fun hp => Files.read_of_write hp hw⟩
      · rw [hr]
        exact ⟨rfl, hw⟩
  · have hr : r = ⟨fs, some .usage, none, none⟩ := run_usage h0 h3
    have hcode : r.exitCode = 2 := by rw [hr]; rfl
    refine ⟨fun h => absurd h h0, fun _ _ => ⟨hcode, ?_⟩, ?_, ⟨?_, fun h => absurd h.1 h3⟩,
      fun _ => ?_⟩
    · rw [hr]
      exact ⟨rfl, rfl⟩
    · rintro _ _ _ rfl
      exact absurd rfl h3
    · rintro ⟨path, -, hwrote⟩
      exact absurd hwrote (Run.not_wrote (congrArg Run.form hr) path)
    · rw [hr]
      exact ⟨printed_ne_empty _, rfl⟩

/-- With neither input nor output, the input is told. -/
example : run ⟨fun _ => .ok (), fun _ => .ok ⟨[], []⟩, fun _ => none, fun _ => [0]⟩ ⟨[]⟩ []
    ["ast.proto", "", ""] = ⟨⟨[]⟩, some (.input .noEntry ""), none, none⟩ := rfl

end Script

end Treewire
