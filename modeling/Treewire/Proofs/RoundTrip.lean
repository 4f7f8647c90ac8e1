import Treewire.Proofs.Conversion
import Treewire.Proofs.Dictionary
import Treewire.Session.Schemas

/-!
# From scripts to trees

What a reader makes of the encoded form of a script. The form of a well-formed script is an instance
of the message of whole trees; it can be encoded if it is representable; and however an encoder
writes it, the reader gets its dictionary, or fails because sub-messages nest too deep.
-/

namespace Treewire

open Schema

-- ---------------------------------------------------------------------------
-- Encodings
-- ---------------------------------------------------------------------------

namespace Script

/-- The octets of a form in the standard format, in which no message has two gibibytes. -/
def Form.Encodes (s : Schema) (t : MessageType) (o : Form) (w : Bytes) : Prop :=
  ∃ m, Form.Writes s (.one (.message t.name)) o [.message m] ∧ w = m.octets ∧
    w.length < 0x80000000

/-- The octets that the encoder gives. -/
def Form.encode? (s : Schema) (t : MessageType) (o : Form) : Option Bytes :=
  match o.values? s (.one (.message t.name)) with
  | some [.message m] => some m.octets
  | _ => none

variable {s : Schema} {t : MessageType} {o : Form} {w : Bytes}

theorem encodes_of_encode? (h : Form.Fits s (.one (.message t.name)) o)
    (hw : o.encode? s t = some w) (hs : w.length < 0x80000000) : o.Encodes s t w := by
  unfold Form.encode? at hw
  split at hw
  · rename_i m hm
    cases hw
    exact ⟨m, Fits.writes h hm, rfl, hs⟩
  · cases hw

/-- A form can be written exactly if it is representable. -/
theorem exists_writes_iff (hs : s.Regular) (h : Form.Fits s (.one (.message t.name)) o) :
    (∃ m, Form.Writes s (.one (.message t.name)) o [.message m]) ↔ o.representable = true := by
  constructor
  · rintro ⟨m, hm⟩
    exact (Writes.representable hs hm).2
  · intro hr
    obtain ⟨vs, hvs⟩ := Option.isSome_iff_exists.mp (Fits.values?_isSome hs h hr nofun)
    have hw := Fits.writes h hvs
    cases hw with
    | record ht hk hm hw => exact ⟨_, .record ht hk hm hw⟩

/-- However a form is encoded, it decodes to its dictionary unless it nests too deep. -/
theorem decode?_of_encodes (hs : s.Regular) (ht : s.message? t.name = some t)
    (h : o.Encodes s t w) :
    (o.depth ≤ Message.depthLimit + 1 → ∃ m, Message.decode? s t w = some m ∧
      m.toJson s t = o.dictionary s (.message t.name)) ∧
    (Message.depthLimit + 1 < o.depth → Message.decode? s t w = none) := by
  obtain ⟨m, hm, rfl, hsize⟩ := h
  have hfit : m.Fits s t := by
    obtain ⟨name, t', hk, ht', -, hfit⟩ := Writes.fits hs hm _ List.mem_cons_self
    cases hk
    rw [ht] at ht'
    cases ht'
    exact hfit
  have hdepth : m.depth ≤ Message.depthLimit ↔ o.depth ≤ Message.depthLimit + 1 := by
    rw [← Writes.depth_le hm, List.forall_mem_singleton, Value.depth, Nat.add_le_add_iff_right]
  have hdec := Message.decode?_octets hfit hsize
  constructor
  · intro hd
    refine ⟨_, by rw [hdec, if_pos (hdepth.mpr hd)], ?_⟩
    -- Any field that holds such messages shows what is seen of them.
    have hj := Writes.jsons (f := ⟨1, "", .message t.name, .explicit, none, none⟩) hs hm rfl
    simpa [Value.settled, ht, Message.fieldJson, Message.typeOf?, Form.jsons, Slot.kind,
      Message.toJson] using hj
  · intro hd
    rw [hdec, if_neg fun hle => Nat.not_lt.mpr (hdepth.mp hle) hd]

end Script

-- ---------------------------------------------------------------------------
-- Sessions
-- ---------------------------------------------------------------------------

variable {p : Script.Program} {o : Script.Form} {w : Bytes} {path : Text}
  {session after : Session}

theorem Act.bind_ok {act : Act α} {next : α → Act β} (h : act session = (.ok a, after)) :
    (act >>= next) session = next a after := by
  simp only [bind, ExceptT.bind, ExceptT.mk, StateT.bind, h]
  rfl

/-- A path that leads to the schema of syntax trees, and the session once it was followed. -/
def Act.Loads (path : Text) (session after : Session) : Prop :=
  Act.loadMessageType path treeMessage session = (.ok (bundled, Bundled.ast), after)

theorem bundled_ast : bundled.message? Bundled.ast.name = some Bundled.ast :=
  Script.bundled_message? Bundled.ast (by simp [bundled])

/-- A schema that is known already is loaded without further ado. -/
theorem Act.loads_of_lookup (hf : session.machine.files.canonical? session.machine.here
      (Path.ofText path).toString = some file)
    (hs : session.schemas.lookup file = some bundled) : Act.Loads path session session := by
  have hget : (get : Act Session) session = (.ok session, session) := rfl
  have hload : Act.loadSchema path session = (.ok bundled, session) := by
    rw [Act.loadSchema, Act.bind_ok hget]
    simp only [hf, hs]
    rfl
  rw [Act.Loads, Act.loadMessageType, Act.bind_ok hload]
  have ht : bundled.message? treeMessage = some Bundled.ast := bundled_ast
  simp only [ht]
  rfl

theorem Act.decodeTree_eq (h : Act.Loads path session after) :
    Act.decodeTree w path session = (match Message.decode? bundled Bundled.ast w with
      | some m => .ok ⟨bundled, Bundled.ast, m⟩
      | none => .error (.badPayload w.length), after) := by
  rw [Act.decodeTree, Act.bind_ok h]
  cases hm : Message.decode? bundled Bundled.ast w <;> simp only [hm] <;> rfl

-- ---------------------------------------------------------------------------
-- Some scripts
-- ---------------------------------------------------------------------------

/-- A session that knows the schema of syntax trees under a path. -/
def Session.informed : Session := { (default : Session) with schemas := [(["ast.proto"], bundled)] }

def informedPath : Text := Text.ofString "/ast.proto"

theorem Session.informed_loads : Act.Loads informedPath informed informed := by
  have hsteps : Files.steps (Path.ofText informedPath).toString = ["ast.proto"] := by
    rfl
  have hstart : Files.startOf informed.machine.here (Path.ofText informedPath).toString = [] := by
    rfl
  have hget : informed.machine.files.get? ([] ++ ["ast.proto"]) = none := by rfl
  have hfile : informed.machine.files.canonical? informed.machine.here
      (Path.ofText informedPath).toString = some ["ast.proto"] := by
    rw [Files.canonical?, hsteps, hstart, Files.follow, hget]
    simp [Files.follow]
  exact Act.loads_of_lookup hfile rfl

namespace Script

/-- The script `[,];`, an array that is one hole. -/
def Program.hole : Program := ⟨[], [.expressionStatement none (.arrayExpression none [.absent])]⟩

/-- A name negated so often. -/
def Node.negations : Nat → Node
  | 0 => .identifier none (Text.ofString "x")
  | k + 1 => .unaryExpression none (Text.ofString "!") (negations k)

/-- The script `!!…!x;`. -/
def Program.negated (k : Nat) : Program := ⟨[], [.expressionStatement none (.negations k)]⟩

def Form.negations : Nat → Form
  | 0 => .wrap "identifier" [("name", .text (Text.ofString "x"))]
  | k + 1 => .wrap "unaryExpression"
    [("operator", .text (Text.ofString "!")), ("argument", negations k)]

def Form.negated (k : Nat) : Form :=
  .record [("statements", .list [.wrap "expressionStatement" [("expression", .negations k)]])]

theorem negations_wellFormed (k : Nat) : (Node.negations k).WellFormed := by
  induction k with
  | zero => exact .mk rfl nofun
  | succ k ih =>
    refine .mk ?_ (List.forall_mem_singleton.mpr ih)
    cases k <;> rfl

theorem negated_wellFormed (k : Nat) : (Program.negated k).WellFormed := by
  refine ⟨rfl, List.forall_mem_singleton.mpr (.mk ?_ (List.forall_mem_singleton.mpr ?_))⟩
  · cases k <;> rfl
  · exact negations_wellFormed k

theorem expression_negations (k : Nat) : expression (.negations k) = .ok (.negations k) := by
  induction k with
  | zero => rfl
  | succ k ih =>
    rw [Node.negations, expression, ih]
    rfl

theorem negated_form (k : Nat) : (Program.negated k).form = .ok (.negated k) := by
  simp only [Program.negated, Program.form, statements, statement, expression_negations]
  rfl

theorem negated_depth (k : Nat) : (Form.negated k).depth = 2 * k + 5 := by
  have hk : (Form.negations k).depth = 2 * k + 2 := by
    induction k with
    | zero => rfl
    | succ k ih =>
      simp [Form.negations, Form.wrap, Form.depth, Form.membersDepth, ih]
      omega
  simp [Form.negated, Form.wrap, Form.depth, Form.membersDepth, Form.itemsDepth, hk]

theorem negated_representable (k : Nat) : (Form.negated k).representable = true := by
  have hk : (Form.negations k).representable = true := by
    induction k with
    | zero => rfl
    | succ k ih =>
      simp [Form.negations, Form.wrap, Form.representable, Form.membersRepresentable, ih,
        Text.toString?_ofString]
  simp [Form.negated, Form.wrap, Form.representable, Form.membersRepresentable,
    Form.itemsRepresentable, hk]

def Form.hole : Form :=
  .record [("statements", .list [.wrap "expressionStatement" [("expression",
    .wrap "arrayExpression" [("elements", .list [.record []])])]])]

def holeOctets : Bytes := [10, 8, 58, 6, 10, 4, 82, 2, 10, 0]

theorem hole_wellFormed : Program.hole.WellFormed := by
  refine ⟨rfl, List.forall_mem_singleton.mpr (.mk rfl (List.forall_mem_singleton.mpr (.mk rfl ?_)))⟩
  exact List.forall_mem_singleton.mpr (.mk rfl nofun)

theorem hole_form : Program.hole.form = .ok .hole := rfl

theorem hole_representable : Form.hole.representable = true := by rfl

theorem hole_encodes : Form.hole.Encodes bundled Bundled.ast holeOctets :=
  encodes_of_encode? (form_is_ast hole_wellFormed hole_form) (by decide +kernel) (by decide)

end Script

-- ---------------------------------------------------------------------------
-- Encoder and decoder
-- ---------------------------------------------------------------------------

/-- Encoder and decoder agree: however the form of a script is encoded, what is decoded shows the
form's dictionary, in which nothing but defaults and empty lists is missing. -/
theorem decodeTree_of_form (hp : p.WellFormed) (ho : p.form = .ok o)
    (hr : o.representable = true) (hd : o.depth ≤ Message.depthLimit + 1)
    (hl : Act.Loads path session after) :
    Script.Is Bundled.ast o ∧
      (∃ m, Script.Form.Writes bundled (.one (.message Bundled.ast.name)) o [.message m]) ∧
      ∀ w, o.Encodes bundled Bundled.ast w →
        ∃ d : Decoded, Act.decodeTree w path session = (.ok d, after) ∧
          d.toJson = o.dictionary bundled (.message Bundled.ast.name) := by
  have hfit : Script.Is Bundled.ast o := Script.form_is_ast hp ho
  refine ⟨hfit, (Script.exists_writes_iff Script.bundled_regular hfit).mpr hr, fun w hw => ?_⟩
  obtain ⟨m, hm, hj⟩ := (Script.decode?_of_encodes Script.bundled_regular bundled_ast hw).1 hd
  refine ⟨⟨bundled, Bundled.ast, m⟩, ?_, hj⟩
  rw [Act.decodeTree_eq hl, hm]

theorem hole_decodes :
    Script.Program.hole.WellFormed ∧ Script.Program.hole.form = .ok .hole ∧
      Script.Form.hole.representable = true ∧
      Script.Form.hole.depth ≤ Message.depthLimit + 1 ∧
      Act.Loads informedPath .informed .informed ∧
      Script.Form.hole.Encodes bundled Bundled.ast Script.holeOctets ∧
      ∃ d : Decoded, Act.decodeTree Script.holeOctets informedPath .informed =
        (.ok d, .informed) ∧
          d.toJson = Script.Form.hole.dictionary bundled (.message Bundled.ast.name) := by
  have h := decodeTree_of_form Script.hole_wellFormed Script.hole_form Script.hole_representable
    (by decide) Session.informed_loads
  exact ⟨Script.hole_wellFormed, Script.hole_form, Script.hole_representable, by decide,
    Session.informed_loads, Script.hole_encodes, h.2.2 _ Script.hole_encodes⟩

/-- Exactly which runs of the converter end in a failure to decode: the form of a script has an
encoding if it is representable, and then all its encodings are refused if it nests too deep, and
none is refused otherwise. -/
theorem decodeTree_outcome (hp : p.WellFormed) (ho : p.form = .ok o)
    (hl : Act.Loads path session after) :
    ((∃ m, Script.Form.Writes bundled (.one (.message Bundled.ast.name)) o [.message m]) ↔
      o.representable = true) ∧
    ∀ w, o.Encodes bundled Bundled.ast w →
      (o.depth ≤ Message.depthLimit + 1 →
        ∃ d : Decoded, Act.decodeTree w path session = (.ok d, after)) ∧
      (Message.depthLimit + 1 < o.depth →
        Act.decodeTree w path session = (.error (.badPayload w.length), after)) := by
  have hfit : Script.Is Bundled.ast o := Script.form_is_ast hp ho
  refine ⟨Script.exists_writes_iff Script.bundled_regular hfit, fun w hw => ?_⟩
  obtain ⟨hshallow, hdeep⟩ := Script.decode?_of_encodes Script.bundled_regular bundled_ast hw
  rw [Act.decodeTree_eq hl]
  constructor
  · intro hd
    obtain ⟨m, hm, -⟩ := hshallow hd
    exact ⟨_, by rw [hm]⟩
  · intro hd
    rw [hdeep hd]

/-- Both outcomes come up: one hole is read, and 49 negations are not. -/
theorem hole_and_negations_decode :
    (∃ d : Decoded, Act.decodeTree Script.holeOctets informedPath .informed =
      (.ok d, .informed)) ∧
    (∃ m, Script.Form.Writes bundled (.one (.message Bundled.ast.name)) (.negated 49)
      [.message m]) ∧
    ∀ w, (Script.Form.negated 49).Encodes bundled Bundled.ast w →
      Act.decodeTree w informedPath .informed = (.error (.badPayload w.length), .informed) := by
  have hread := decodeTree_outcome Script.hole_wellFormed Script.hole_form Session.informed_loads
  have hrefused := decodeTree_outcome (Script.negated_wellFormed 49) (Script.negated_form 49)
    Session.informed_loads
  refine ⟨(hread.2 _ Script.hole_encodes).1 (by decide),
    hrefused.1.mpr (Script.negated_representable 49), fun w hw => (hrefused.2 w hw).2 ?_⟩
  rw [Script.negated_depth]
  decide

/-- A script that is converted but whose encodings are all refused. -/
theorem negations_refused :
    ∃ p o, Script.Program.WellFormed p ∧ p.form = .ok o ∧ o.representable = true ∧
      ∀ w, o.Encodes bundled Bundled.ast w → Message.decode? bundled Bundled.ast w = none := by
  refine ⟨_, _, Script.negated_wellFormed 49, Script.negated_form 49,
    Script.negated_representable 49, fun w hw => ?_⟩
  have hdeep : Message.depthLimit + 1 < (Script.Form.negated 49).depth := by
    rw [Script.negated_depth]
    decide
  exact (Script.decode?_of_encodes Script.bundled_regular bundled_ast hw).2 hdeep

end Treewire
