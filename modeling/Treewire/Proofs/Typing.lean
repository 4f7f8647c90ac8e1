import Treewire.Proofs.Records
import Treewire.Schema.Bundled
import Treewire.Script.Form

/-!
# Forms of a type

When a form is an instance of a message type: its members are named after fields of that very type
in lower camel case, each holds what its field asks for, none comes twice, and no two of them
belong to one oneof.

The judgement speaks of any schema. `Is` is its case for a message of the schema of syntax trees,
together with what it takes to build such a form member by member.
-/

namespace Treewire

-- ---------------------------------------------------------------------------
-- Keys
-- ---------------------------------------------------------------------------

/-- An underscore goes, and the letter after it becomes a capital. -/
def camelChars : List Char → List Char
  | '_' :: c :: rest => c.toUpper :: camelChars rest
  | c :: rest => c :: camelChars rest
  | [] => []

def lowerCamel (name : String) : String := String.ofList (camelChars name.toList)

/-- What a field has room for: one value, or any number of them. -/
inductive Slot
  | one (kind : FieldKind)
  | many (kind : FieldKind)

/-- Whether forms have values of a kind. -/
def FieldKind.isPlain : FieldKind → Bool
  | .scalar .bool | .scalar .string | .scalar .double | .scalar .int64 => true
  | .enum _ | .message _ => true
  | _ => false

namespace Field

/-- The name that a field goes by in forms. -/
def key (f : Field) : String := lowerCamel f.name

def slot (f : Field) : Slot :=
  match f.cardinality with
  | .repeated => .many f.kind
  | _ => .one f.kind

end Field

namespace MessageType

/-- Whether a form may have exactly these members. -/
structure Admits (t : MessageType) (keys : List String) : Prop where
  distinct : keys.Nodup
  known : ∀ key ∈ keys, ∃ f ∈ t.fields, f.key = key
  apart : ∀ f ∈ t.fields, ∀ g ∈ t.fields, f.key ∈ keys → g.key ∈ keys → excludes f g = false

/-- A message type without maps and extensions, whose fields are sorted, hold kinds that forms have,
and go by different keys; `index` is the key of integers, and of nothing else. -/
structure Regular (t : MessageType) : Prop where
  single : t.isMapEntry = false
  own : t.extensions = []
  sorted : t.fields.Pairwise (·.number < ·.number)
  valid : ∀ f ∈ t.fields, Wire.IsNumber f.number ∧ f.extensionName = none
  plain : ∀ f ∈ t.fields, f.kind.isPlain = true
  present : ∀ f ∈ t.fields, f.oneof.isSome = true ∨ f.kind = .scalar .int64 →
    f.cardinality = .explicit
  keyed : (t.fields.map fun f => camelChars f.name.toList).Nodup ∧
    ∀ f ∈ t.fields, camelChars f.name.toList = "index".toList ↔ f.kind = .scalar .int64

/-- A field with that number, for members of that key. -/
def Declares (t : MessageType) (n : Nat) (key : String) (slot : Slot) : Prop :=
  ∃ f, t.field? n = some f ∧ f.key = key ∧ f.slot = slot

/-- Whether fields with these numbers may be set together. -/
def agree (t : MessageType) (ns : List Nat) : Bool :=
  isDistinct ns && (ns.filterMap t.field?).all fun f =>
    (ns.filterMap t.field?).all fun g => !excludes f g

end MessageType

/-- An open enumeration in which names and numbers stand for each other. -/
structure EnumType.Regular (e : EnumType) : Prop where
  isOpen : e.closed = false
  named : ∀ v ∈ e.values, e.nameOf? v.2 = some v.1
  distinct : (e.values.map (·.1)).Nodup
  narrow : ∀ v ∈ e.values, -0x80000000 ≤ v.2 ∧ v.2 < 0x80000000

/-- A schema all of whose types are regular. -/
structure Schema.Regular (s : Schema) : Prop where
  messages : ∀ t ∈ s.messages, t.Regular
  enums : ∀ e ∈ s.enums, e.Regular

-- ---------------------------------------------------------------------------
-- The judgement
-- ---------------------------------------------------------------------------

namespace Script

inductive Form.Fits (s : Schema) : Slot → Form → Prop
  | bool : Fits s (.one (.scalar .bool)) (.bool b)
  | text : Fits s (.one (.scalar .string)) (.text t)
  | number : Fits s (.one (.scalar .double)) (.number x)
  | index (hx : x.toInt? = some i) : Fits s (.one (.scalar .int64)) (.number x)
  | choice (he : s.enum? name = some e) (hv : (value, n) ∈ e.values) :
      Fits s (.one (.enum name)) (.choice value)
  | list (h : ∀ x ∈ items, Fits s (.one kind) x) : Fits s (.many kind) (.list items)
  | record (ht : s.message? name = some t) (hk : t.Admits (members.map (·.1)))
      (hm : ∀ f ∈ t.fields, ∀ x, (f.key, x) ∈ members → Fits s f.slot x) :
      Fits s (.one (.message name)) (.record members)

-- ---------------------------------------------------------------------------
-- Fields of a regular type
-- ---------------------------------------------------------------------------

variable {s : Schema} {t : MessageType} {f g : Field} {members rest : Form.Members}

theorem key_inj (ht : t.Regular) (hf : f ∈ t.fields) (hg : g ∈ t.fields) (h : f.key = g.key) :
    f = g := by
  have hp : t.fields.Pairwise fun f g => f.key ≠ g.key :=
    (List.pairwise_map.mp ht.keyed.1).imp fun hne heq => hne (String.ofList_injective heq)
  refine List.Pairwise.forall_of_forall_of_flip (R := fun f g => f.key = g.key → f = g)
    (fun _ _ _ => rfl) (hp.imp fun hne heq => absurd heq hne)
    (hp.imp fun hne heq => absurd heq.symm hne) hf hg h

theorem field?_eq_some (ht : t.Regular) : t.field? n = some f ↔ f ∈ t.fields ∧ f.number = n := by
  simp only [MessageType.field?, ht.own, List.find?_nil, Option.or_none]
  refine ⟨fun h => ⟨List.mem_of_find?_eq_some h, by simpa using List.find?_some h⟩, ?_⟩
  rintro ⟨hf, rfl⟩
  have hs := ht.sorted
  generalize t.fields = fields at hf hs
  induction fields with
  | nil => cases hf
  | cons g rest ih =>
    rw [List.pairwise_cons] at hs
    rcases List.mem_cons.mp hf with rfl | hf
    · simp
    · have hne : g.number ≠ f.number := Nat.ne_of_lt (hs.1 f hf)
      rw [List.find?_cons_of_neg (by simpa using hne)]
      exact ih hf hs.2

theorem number_inj (ht : t.Regular) (hf : f ∈ t.fields) (hg : g ∈ t.fields)
    (h : f.number = g.number) : f = g :=
  Option.some.inj (((field?_eq_some ht).mpr ⟨hf, h⟩).symm.trans
    ((field?_eq_some ht).mpr ⟨hg, rfl⟩))

-- ---------------------------------------------------------------------------
-- Members one by one
-- ---------------------------------------------------------------------------

/-- A field written out, its name as characters; `rfl` finds it. -/
theorem declares {cs : List Char}
    (h : (t.field? n, key, slot) =
      (some ⟨number, String.ofList cs, kind, cardinality, oneof, extensionName⟩,
        String.ofList (camelChars cs),
        Field.slot ⟨number, String.ofList cs, kind, cardinality, oneof, extensionName⟩)) :
    t.Declares n key slot := by
  simp only [Prod.mk.injEq] at h
  obtain ⟨hf, rfl, rfl⟩ := h
  refine ⟨_, hf, ?_, rfl⟩
  rw [Field.key, lowerCamel, String.toList_ofList]

/-- Members that fit a type and are for fields among those with the given numbers, in order. -/
inductive MembersFit (s : Schema) (t : MessageType) : List Nat → Form.Members → Prop
  | nil : MembersFit s t [] []
  | cons (hd : t.Declares n key slot) (hx : Form.Fits s slot x) (hr : MembersFit s t ns others) :
      MembersFit s t (n :: ns) ((key, x) :: others)
  | skip (hr : MembersFit s t ns others) : MembersFit s t (n :: ns) others

namespace MembersFit

theorem one (hd : t.Declares n key slot) (hx : Form.Fits s slot x) :
    MembersFit s t [n] [(key, x)] :=
  .cons hd hx .nil

theorem append (hm : MembersFit s t ns members) (hr : MembersFit s t more rest) :
    MembersFit s t (ns ++ more) (members ++ rest) := by
  induction hm with
  | nil => exact hr
  | cons hd hx _ ih => exact .cons hd hx ih
  | skip _ ih => exact .skip ih

/-- Every member is for a field with one of the numbers. -/
theorem exists_declares (hm : MembersFit s t ns members) (h : (key, x) ∈ members) :
    ∃ n ∈ ns, ∃ slot, t.Declares n key slot ∧ Form.Fits s slot x := by
  induction hm with
  | nil => cases h
  | cons hd hx _ ih =>
    rcases List.mem_cons.mp h with he | h
    · cases he
      exact ⟨_, List.mem_cons_self, _, hd, hx⟩
    · obtain ⟨n, hn, rest⟩ := ih h
      exact ⟨n, List.mem_cons_of_mem _ hn, rest⟩
  | skip _ ih =>
    obtain ⟨n, hn, rest⟩ := ih h
    exact ⟨n, List.mem_cons_of_mem _ hn, rest⟩

theorem exists_field (ht : t.Regular) (hm : MembersFit s t ns members)
    (hf : f ∈ t.fields) (h : (f.key, x) ∈ members) : f.number ∈ ns ∧ Form.Fits s f.slot x := by
  obtain ⟨n, hn, slot, ⟨g, hg, hk, rfl⟩, hx⟩ := hm.exists_declares h
  obtain ⟨hmem, rfl⟩ := (field?_eq_some ht).mp hg
  obtain rfl := key_inj ht hmem hf hk
  exact ⟨hn, hx⟩

theorem nodup (ht : t.Regular) (hm : MembersFit s t ns members) (hn : ns.Nodup) :
    (members.map (·.1)).Nodup := by
  induction hm with
  | nil => exact List.nodup_nil
  | cons hd _ hr ih =>
    rw [List.nodup_cons] at hn
    rw [List.map_cons, List.nodup_cons]
    refine ⟨fun h => ?_, ih hn.2⟩
    obtain ⟨f, hf, rfl, -⟩ := hd
    obtain ⟨hmem, rfl⟩ := (field?_eq_some ht).mp hf
    obtain ⟨⟨_, y⟩, hy, rfl⟩ := List.mem_map.mp h
    exact hn.1 (hr.exists_field ht hmem hy).1
  | skip _ ih => exact ih (List.nodup_cons.mp hn).2

end MembersFit

theorem isDistinct_iff {ns : List Nat} : isDistinct ns = true ↔ ns.Nodup := by
  induction ns with
  | nil => simp [isDistinct]
  | cons n rest ih => simp [isDistinct, ih]

theorem MembersFit.admits (ht : t.Regular) (hm : MembersFit s t ns members)
    (hn : t.agree ns = true) : t.Admits (members.map (·.1)) := by
  simp only [MessageType.agree, Bool.and_eq_true, isDistinct_iff, List.all_eq_true,
    List.mem_filterMap, Bool.not_eq_true'] at hn
  have declared (f : Field) (hf : f ∈ t.fields) (h : f.key ∈ members.map (·.1)) :
      ∃ n ∈ ns, t.field? n = some f := by
    obtain ⟨⟨_, x⟩, hx, rfl⟩ := List.mem_map.mp h
    exact ⟨_, (hm.exists_field ht hf hx).1, (field?_eq_some ht).mpr ⟨hf, rfl⟩⟩
  refine ⟨hm.nodup ht hn.1, fun key h => ?_, fun f hf g hg h h' =>
    hn.2 f (declared f hf h) g (declared g hg h')⟩
  obtain ⟨⟨_, x⟩, hx, rfl⟩ := List.mem_map.mp h
  obtain ⟨n, -, slot, ⟨f, hf, hk, -⟩, -⟩ := hm.exists_declares hx
  exact ⟨f, ((field?_eq_some ht).mp hf).1, hk⟩

-- ---------------------------------------------------------------------------
-- The schema of syntax trees
-- ---------------------------------------------------------------------------

/-- What is read off the tables of the schema, all at once. All names of messages begin with the
package, so it is what comes after that tells them apart. -/
theorem bundled_tables :
    (∀ t ∈ Schema.bundled.messages,
      t.isMapEntry = false ∧ t.extensions = [] ∧ t.fields.Pairwise (·.number < ·.number) ∧
        (t.fields.map fun f => camelChars f.name.toList).Nodup ∧
        ∀ f ∈ t.fields, (0 < f.number ∧ f.number < 0x20000000) ∧ f.extensionName = none ∧
          f.kind.isPlain = true ∧
          (f.oneof.isSome = true ∨ f.kind = .scalar .int64 → f.cardinality = .explicit) ∧
          (camelChars f.name.toList = "index".toList ↔ f.kind = .scalar .int64)) ∧
      (∀ e ∈ Schema.bundled.enums,
        e.closed = false ∧ (e.values.map (·.1)).Nodup ∧
          ∀ v ∈ e.values, e.nameOf? v.2 = some v.1 ∧ -0x80000000 ≤ v.2 ∧ v.2 < 0x80000000) ∧
      (Schema.bundled.messages.map fun t => t.name.toByteArray.data.toList.drop 18).Nodup ∧
      ∀ e ∈ Schema.bundled.enums, Schema.bundled.enum? e.name = some e := by
  decide +kernel

theorem bundled_regular : Schema.bundled.Regular := by
  obtain ⟨types, enums, -, -⟩ := bundled_tables
  refine ⟨fun t ht => ?_, fun e he => ?_⟩
  · obtain ⟨single, own, sorted, distinct, fields⟩ := types t ht
    exact ⟨single, own, sorted, fun f hf => ⟨(fields f hf).1, (fields f hf).2.1⟩,
      fun f hf => (fields f hf).2.2.1, fun f hf => (fields f hf).2.2.2.1, distinct,
      fun f hf => (fields f hf).2.2.2.2⟩
  · obtain ⟨isOpen, distinct, values⟩ := enums e he
    exact ⟨isOpen, fun v hv => (values v hv).1, distinct, fun v hv => (values v hv).2⟩

theorem find?_of_nodup {list : List MessageType} (hd : (list.map (·.name)).Nodup)
    (h : t ∈ list) : list.find? (·.name == t.name) = some t := by
  induction list with
  | nil => cases h
  | cons u rest ih =>
    rw [List.map_cons, List.nodup_cons] at hd
    rcases List.mem_cons.mp h with rfl | h
    · simp
    · have hne : u.name ≠ t.name := fun he => hd.1 (List.mem_map.mpr ⟨t, h, he.symm⟩)
      rw [List.find?_cons_of_neg (by simpa using hne)]
      exact ih hd.2 h

theorem bundled_message? : ∀ t ∈ Schema.bundled.messages,
    Schema.bundled.message? t.name = some t := by
  obtain ⟨-, -, distinct, -⟩ := bundled_tables
  refine fun t ht => find?_of_nodup (List.pairwise_map.mpr ?_) ht
  refine (List.pairwise_map.mp distinct).imp fun hne heq => ?_
  rw [heq] at hne
  exact hne rfl

theorem bundled_enum? : ∀ e ∈ Schema.bundled.enums, Schema.bundled.enum? e.name = some e :=
  bundled_tables.2.2.2

/-- An instance of a message of syntax trees. -/
abbrev Is (t : MessageType) (x : Form) : Prop := Form.Fits Schema.bundled (.one (.message t.name)) x

/-- Instances of a message, one after the other. -/
abbrev Are (t : MessageType) (xs : List Form) : Prop := ∀ x ∈ xs, Is t x

theorem is_record (t : MessageType) (ns : List Nat) (ht : t ∈ Schema.bundled.messages)
    (hn : t.agree ns = true) (hm : MembersFit Schema.bundled t ns members) :
    Is t (.record members) := by
  have hr := bundled_regular.messages t ht
  exact .record (bundled_message? t ht) (hm.admits hr hn) fun f hf x h =>
    (hm.exists_field hr hf h).2

end Script

end Treewire
