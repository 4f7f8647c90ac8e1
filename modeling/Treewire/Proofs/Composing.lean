import Treewire.Proofs.Calling

/-!
# Acts and their parts

Most properties of acts are closed under the ways to put acts together: what gives a result or fails
outright has them, and so has a sequence of acts that have them. An act of a frontend then has such
a property if the few acts have it that look at the session or change it. Each act is taken apart
once, for all such properties.
-/

namespace Treewire

/-- A property that an act has if its parts have it. -/
structure Act.Composes (P : ∀ {α : Type}, Act α → Prop) : Prop where
  pure {α : Type} (a : α) : P (Pure.pure a : Act α)
  throw {α : Type} (e : Failure) : P (MonadExcept.throw e : Act α)
  tell (source : String) (level : Log.Level) (message : Text) : P (Act.tell source level message)
  bind {α β : Type} {act : Act α} {next : α → Act β} (ha : P act) (hn : ∀ a, P (next a)) :
    P (act >>= next)
  attempt {α : Type} {act : Act α} (h : P act) : P act.attempt

namespace Act.Composes

open Frontend

variable {P : ∀ {α : Type}, Act α → Prop} {launcher : Launcher} {f : Frontend}

theorem ofExcept (hP : Composes P) (cause : ε → Failure) (x : Except ε α) :
    P (Act.ofExcept cause x) := by
  cases x with
  | error e => exact hP.throw _
  | ok a => exact hP.pure a

theorem judge (hP : Composes P) (command : List Text) (limit : Option Duration)
    (result : LimitedFinish) : P (Invocation.judge command limit result) :=
  Invocation.judge_induction hP.pure hP.throw
    (fun _ _ _ _ h => hP.bind (hP.tell _ _ _) fun _ => h) command limit result

-- ---------------------------------------------------------------------------
-- Schemas
-- ---------------------------------------------------------------------------

theorem decodeTree (hP : Composes P) (data : Bytes) {path : Text}
    (hl : P (Act.loadSchema path)) : P (Act.decodeTree data path) := by
  refine hP.bind (hP.bind hl fun schema => ?_) fun found => ?_
  · cases schema.message? Schema.treeMessage with
    | some type => exact hP.pure _
    | none => exact hP.throw _
  · obtain ⟨schema, type⟩ := found
    dsimp only
    cases Message.decode? schema type data with
    | some message => exact hP.pure _
    | none => exact hP.throw _

-- ---------------------------------------------------------------------------
-- Calls
-- ---------------------------------------------------------------------------

theorem temporaryPath (hP : Composes P) (hd : P Act.temporaryDirectory) (hn : P Act.freshName)
    (ending : Text) : P (f.temporaryPath ending) := by
  unfold Frontend.temporaryPath
  cases f.configuration.paths.temporary with
  | some directory => exact hP.bind (hP.pure _) fun _ => hP.bind hn fun _ => hP.pure _
  | none => exact hP.bind hd fun _ => hP.bind hn fun _ => hP.pure _

theorem parse (hP : Composes P) {file : Text} (hs : P f.schema)
    (ht : P (f.temporaryPath outputEnding))
    (hp : ∀ schema output, P (f.produce launcher schema output file))
    (hd : ∀ output, P (discardOutput output)) (hr : ∀ output, P (removeOutput output))
    (hl : ∀ path, P (Act.loadSchema path)) : P (f.parse launcher file) := by
  refine hP.bind hs fun schema => hP.bind ht fun output =>
    hP.bind (hP.attempt (hp schema output)) fun made => ?_
  cases made with
  | error failure => exact hP.bind (hd output) fun _ => hP.throw _
  | ok data => exact hP.bind (hr output) fun _ => hP.decodeTree _ (hl _)

theorem writeSource (hP : Composes P) {file : Path} (hp : P (Act.passable file.toText))
    (hw : ∀ octets, P (Act.change fun m => m.files.write m.here file.toString octets))
    (code : Text) : P (Frontend.writeSource file code) := by
  refine hP.bind hp fun _ => hP.bind (hw []) fun _ => ?_
  split
  · exact hP.throw _
  · exact hw _

theorem parseSource (hP : Composes P) (code name : Text)
    (ht : ∀ ending, P (f.temporaryPath ending)) (hw : ∀ file, P (Frontend.writeSource file code))
    (hp : ∀ file, P (f.parse launcher file)) (hr : ∀ file, P (removeSource file)) :
    P (f.parseSource launcher code name) :=
  hP.bind (ht _) fun file => hP.bind (hw file) fun _ =>
    hP.bind (hP.attempt (hp _)) fun outcome => hP.bind (hr file) fun _ => hP.ofExcept _ outcome

-- ---------------------------------------------------------------------------
-- Setting up
-- ---------------------------------------------------------------------------

theorem locate (hP : Composes P) {binary : Text}
    (hf : ∀ directories, P (Act.ask fun m => Search.find m binary directories))
    (vars : Configuration.Variables) (fallbacks : List Text) :
    P (Search.locate vars binary fallbacks) := by
  unfold Search.locate
  dsimp only
  split
  · exact hP.bind (hP.tell _ _ _) fun _ => hP.pure _
  · refine hP.bind (hf _) fun found => ?_
    split
    · exact hP.bind (hP.tell _ _ _) fun _ => hP.pure _
    · exact hP.bind (hP.tell _ _ _) fun _ => hP.pure _

theorem selfCheck (hP : Composes P) (hr : P (f.runScript launcher [])) :
    P (f.selfCheck launcher) := by
  refine hP.bind (hP.attempt hr) fun checked => ?_
  split
  · exact hP.pure _
  · split
    · exact hP.throw _
    · exact hP.throw _

theorem establish (hP : Composes P) (hf : ∀ c, P (findNode c))
    (hm : ∀ c node, P (make c node none)) (hs : ∀ f : Frontend, P (f.selfCheck launcher))
    (c : Configuration) : P (Frontend.establish launcher (some c)) := by
  refine hP.bind (hP.pure c) fun c => hP.bind (hf c) fun found => ?_
  split
  · exact hP.throw _
  · exact hP.bind (hm c _) fun f => hP.bind (hs f) fun _ => hP.bind (hP.tell _ _ _) fun _ =>
      hP.pure f

end Act.Composes

end Treewire
