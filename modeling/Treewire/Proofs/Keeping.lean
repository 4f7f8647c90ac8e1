import Treewire.Proofs.Conversion

/-!
# Readers that drop what they do not know

A lenient reader of forms is silent about members that it has no field for, and about values that a
field has no room for: it leaves them out. A form that fits its type loses nothing to such a reader,
so nothing that conversion says is lost on the way to a message.
-/

namespace Treewire.Script

open Schema

-- ---------------------------------------------------------------------------
-- The reader
-- ---------------------------------------------------------------------------

mutual

/-- What a lenient reader keeps of a form, if it keeps it at all. -/
def Form.kept? (s : Schema) : Slot → Form → Option Form
  | .one (.scalar .bool), .bool b => some (.bool b)
  | .one (.scalar .string), .text t => some (.text t)
  | .one (.scalar .double), .number x => some (.number x)
  | .one (.scalar .int64), .number x => if x.toInt?.isSome then some (.number x) else none
  | .one (.enum name), .text t =>
    (s.enum? name).bind fun e =>
      if e.values.any fun v => Text.ofString v.1 == t then some (.text t) else none
  | .one (.message name), .record members =>
    (s.message? name).map fun t => .record (keptMembers s t members)
  | .many kind, .list items => some (.list (keptItems s kind items))
  | _, _ => none

def keptItems (s : Schema) (kind : FieldKind) : List Form → List Form
  | [] => []
  | x :: rest => (x.kept? s (.one kind)).toList ++ keptItems s kind rest

def keptMembers (s : Schema) (t : MessageType) : Form.Members → Form.Members
  | [] => []
  | (key, x) :: rest =>
    match t.fields.find? (·.key == key) with
    | some f => (x.kept? s f.slot).toList.map (key, ·) ++ keptMembers s t rest
    | none => keptMembers s t rest

end

-- ---------------------------------------------------------------------------
-- Nothing is dropped
-- ---------------------------------------------------------------------------

variable {s : Schema} {t : MessageType} {f : Field} {members : Form.Members}

theorem find?_key (ht : t.Regular) (hf : f ∈ t.fields) :
    t.fields.find? (·.key == f.key) = some f := by
  cases h : t.fields.find? (·.key == f.key) with
  | none => simpa using List.find?_eq_none.mp h f hf
  | some g =>
    have hk : g.key = f.key := by simpa using List.find?_some h
    rw [key_inj ht (List.mem_of_find?_eq_some h) hf hk]

theorem keptItems_eq (h : ∀ x ∈ items, x.kept? s (.one kind) = some x) :
    keptItems s kind items = items := by
  induction items with
  | nil => rfl
  | cons x rest ih =>
    rw [List.forall_mem_cons] at h
    simp [keptItems, h.1, ih h.2]

theorem keptMembers_eq (ht : t.Regular)
    (hk : ∀ key ∈ members.map (·.1), ∃ f ∈ t.fields, f.key = key)
    (h : ∀ f ∈ t.fields, ∀ x, (f.key, x) ∈ members → x.kept? s f.slot = some x) :
    keptMembers s t members = members := by
  induction members with
  | nil => rfl
  | cons m rest ih =>
    obtain ⟨key, x⟩ := m
    rw [List.map_cons, List.forall_mem_cons] at hk
    obtain ⟨f, hf, rfl⟩ := hk.1
    have hx := h f hf x List.mem_cons_self
    have hrest := ih hk.2 fun g hg y hy => h g hg y (List.mem_cons_of_mem _ hy)
    simp [keptMembers, find?_key ht hf, hx, hrest]

/-- A form that fits loses nothing. -/
theorem Form.Fits.kept (hs : s.Regular) (h : Form.Fits s slot x) : x.kept? s slot = some x := by
  induction h with
  | bool | text | number => rfl
  | index hx => simp [Form.kept?, hx]
  | @choice _ _ value n he hv =>
    rw [Form.choice, Form.kept?, he, Option.bind_some, if_pos]
    exact List.any_eq_true.mpr ⟨(value, n), hv, beq_self_eq_true (Text.ofString value)⟩
  | list _ ih => rw [Form.kept?, keptItems_eq ih]
  | record ht hk _ ih =>
    have hr := hs.messages _ (List.mem_of_find?_eq_some ht)
    simp [Form.kept?, ht, keptMembers_eq hr hk.known ih]

/-- What a script is converted to is an instance of the message of whole trees, and a lenient reader
of such messages drops nothing of it. -/
theorem form_kept {p : Program} (hp : p.WellFormed) (h : p.form = .ok o) :
    Is Bundled.ast o ∧ o.kept? bundled (.one (.message Bundled.ast.name)) = some o :=
  have hfit := form_is_ast hp h
  ⟨hfit, hfit.kept bundled_regular⟩

/-- The script `({ "m"() {} })`, whose method has a name where it has a key. -/
def Program.method : Program :=
  ⟨[], [.expressionStatement none (.objectExpression none
    [.objectMethod none false (Text.ofString "method") ⟨false, false⟩
      (.stringLiteral none (Text.ofString "m")) [] (.blockStatement none [] [])])]⟩

theorem method_wellFormed : Program.method.WellFormed := by
  refine ⟨rfl, List.forall_mem_singleton.mpr (.mk rfl (List.forall_mem_singleton.mpr (.mk rfl
    (List.forall_mem_singleton.mpr (.mk rfl ?_)))))⟩
  simp only [Node.children, List.forall_mem_cons]
  exact ⟨.leaf rfl rfl, .leaf rfl rfl, List.forall_mem_nil _⟩

theorem method_kept :
    Program.method.WellFormed ∧ ∃ o, Program.method.form = .ok o ∧
      Is Bundled.ast o ∧ o.kept? bundled (.one (.message Bundled.ast.name)) = some o :=
  ⟨method_wellFormed, _, rfl, form_kept method_wellFormed rfl⟩

end Treewire.Script
