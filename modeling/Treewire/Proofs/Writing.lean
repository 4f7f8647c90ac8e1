import Treewire.Proofs.Encoding
import Treewire.Proofs.Typing

/-!
# Forms as messages

`Form.Writes` says which messages an encoder may write for a form. It chooses one thing only: a
field without presence whose value is the default may be written or left out. `Form.dictionary` is
the form as a reader of the message shall see it.

Three things follow for every schema whose types are regular: what is written is a message of its
type, it nests as deep as the form, and once it is settled its JSON value is the dictionary.
-/

namespace Treewire

/-- The kind of what a slot holds. -/
def Slot.kind : Slot → FieldKind
  | .one kind | .many kind => kind

@[simp] theorem Field.slot_kind (f : Field) : f.slot.kind = f.kind := by
  cases h : f.cardinality <;> simp [Field.slot, Slot.kind, h]

def IsInt64 (i : Int) : Prop := -0x8000000000000000 ≤ i ∧ i < 0x8000000000000000

instance (i : Int) : Decidable (IsInt64 i) := by
  unfold IsInt64
  infer_instance

/-- What an encoder may make of the values that a form gives for a field, if it has a member for
the field at all: all of them, or nothing where an unset field stands for the same. -/
def Field.Keeps (s : Schema) (f : Field) (isMember : Bool) (values kept : List Value) : Prop :=
  match isMember with
  | true => kept = values ∨ (∀ v ∈ values, Message.countsAsUnset f v = true) ∧ kept = []
  | false => kept = [] ∨ Message.countsAsUnset f (Message.defaultOf s f.kind) = true ∧
      kept = [Message.defaultOf s f.kind]

namespace Script

-- ---------------------------------------------------------------------------
-- Encoders
-- ---------------------------------------------------------------------------

/-- The values that a form is written as in a slot, and so the messages that may be written for
it. Fields stand in the order of their type. -/
inductive Form.Writes (s : Schema) : Slot → Form → List Value → Prop
  | bool : Writes s (.one (.scalar .bool)) (.bool b) [.bool b]
  | text (h : t.toString? = some str) : Writes s (.one (.scalar .string)) (.text t) [.string str]
  | number : Writes s (.one (.scalar .double)) (.number x) [.double x]
  | index (hx : x.toInt? = some i) (hi : IsInt64 i) :
      Writes s (.one (.scalar .int64)) (.number x) [.int i]
  | choice (he : s.enum? name = some e) (hv : (value, n) ∈ e.values) :
      Writes s (.one (.enum name)) (.choice value) [.int n]
  | nil : Writes s (.many kind) (.list []) []
  | cons (hx : Writes s (.one kind) x [v]) (hr : Writes s (.many kind) (.list items) vs) :
      Writes s (.many kind) (.list (x :: items)) (v :: vs)
  | record {values kept : Field → List Value} (ht : s.message? name = some t)
      (hk : t.Admits (members.map (·.1)))
      (hm : ∀ f ∈ t.fields, ∀ x, members.lookup f.key = some x → Writes s f.slot x (values f))
      (hw : ∀ f ∈ t.fields, f.Keeps s (members.lookup f.key).isSome (values f) (kept f)) :
      Writes s (.one (.message name)) (.record members)
        [.message (.ofList (t.fields.flatMap fun f => (kept f).map (f.number, ·)))]

-- ---------------------------------------------------------------------------
-- Nesting
-- ---------------------------------------------------------------------------

namespace Form

mutual
/-- How many records of a form lie within each other. -/
def depth : Form → Nat
  | .list items => itemsDepth items
  | .record members => membersDepth members + 1
  | _ => 0
def itemsDepth : List Form → Nat
  | [] => 0
  | x :: rest => max x.depth (itemsDepth rest)
def membersDepth : Members → Nat
  | [] => 0
  | (_, x) :: rest => max x.depth (membersDepth rest)
end

theorem membersDepth_le {members : Members} :
    membersDepth members ≤ n ↔ ∀ key x, (key, x) ∈ members → x.depth ≤ n := by
  induction members with
  | nil => simp [membersDepth]
  | cons m rest ih =>
    obtain ⟨key, x⟩ := m
    simp only [membersDepth, Nat.max_le, ih, List.mem_cons, Prod.mk.injEq]
    constructor
    · rintro ⟨hx, hr⟩ key' y (⟨-, rfl⟩ | hy)
      · exact hx
      · exact hr key' y hy
    · exact fun h => ⟨h key x (.inl ⟨rfl, rfl⟩), fun key' y hy => h key' y (.inr hy)⟩

end Form

variable {s : Schema} {t : MessageType} {f : Field} {members : Form.Members} {kept : List Value}
  {values : List Value} {v : Value} {e : EnumType}

-- ---------------------------------------------------------------------------
-- What an encoder keeps
-- ---------------------------------------------------------------------------

theorem depth_of_countsAsUnset (h : Message.countsAsUnset f v = true) : v.depth = 0 := by
  cases v with
  | message => simp [Message.countsAsUnset, Value.isDefault] at h
  | _ => rfl

theorem cardinality_of_countsAsUnset (h : Message.countsAsUnset f v = true) :
    f.cardinality = .implicit := by
  simp only [Message.countsAsUnset, Bool.and_eq_true, beq_iff_eq] at h
  exact h.1

/-- What is kept was given, or is a default that nobody asked for. -/
theorem Keeps.cases (h : f.Keeps s isMember values kept) (hv : v ∈ kept) :
    isMember = true ∧ v ∈ values ∨
      v = Message.defaultOf s f.kind ∧ Message.countsAsUnset f v = true := by
  cases isMember with
  | true =>
    rcases h with rfl | ⟨-, rfl⟩
    · exact .inl ⟨rfl, hv⟩
    · cases hv
  | false =>
    rcases h with rfl | ⟨hu, rfl⟩
    · cases hv
    · obtain rfl := List.mem_singleton.mp hv
      exact .inr ⟨rfl, hu⟩

/-- What is given is kept, unless it is a default. -/
theorem Keeps.mem (h : f.Keeps s true values kept) (hv : v ∈ values) :
    v ∈ kept ∨ Message.countsAsUnset f v = true := by
  rcases h with rfl | ⟨hu, -⟩
  · exact .inl hv
  · exact .inr (hu v hv)

theorem Keeps.atMostOne (h : f.Keeps s isMember values kept)
    (hv : isMember = true → ∃ v, values = [v]) : kept = [] ∨ ∃ v, kept = [v] := by
  cases isMember with
  | true =>
    rcases h with rfl | ⟨-, rfl⟩
    · exact .inr (hv rfl)
    · exact .inl rfl
  | false =>
    rcases h with rfl | ⟨-, rfl⟩
    · exact .inl rfl
    · exact .inr ⟨_, rfl⟩

/-- Without defaults, encoders do not differ. -/
theorem Keeps.filter (h : f.Keeps s isMember values kept) :
    kept.filter (fun v => !Message.countsAsUnset f v) =
      if isMember then values.filter (fun v => !Message.countsAsUnset f v) else [] := by
  cases isMember with
  | true =>
    rcases h with rfl | ⟨hu, rfl⟩
    · rfl
    · simpa using hu
  | false =>
    rcases h with rfl | ⟨hu, rfl⟩
    · rfl
    · simp [hu]

-- ---------------------------------------------------------------------------
-- Members and fields
-- ---------------------------------------------------------------------------

theorem mem_of_lookup (h : members.lookup key = some x) : (key, x) ∈ members := by
  obtain ⟨before, after, rfl, -⟩ := List.lookup_eq_some_iff.mp h
  simp

theorem lookup_of_mem (hd : (members.map (·.1)).Nodup) (h : (key, x) ∈ members) :
    members.lookup key = some x := by
  induction members with
  | nil => cases h
  | cons m rest ih =>
    rw [List.map_cons, List.nodup_cons] at hd
    rcases List.mem_cons.mp h with rfl | h
    · simp
    · have hne : key ≠ m.1 := by
        rintro rfl
        exact hd.1 (List.mem_map.mpr ⟨_, h, rfl⟩)
      rw [List.lookup_cons, beq_false_of_ne hne]
      exact ih hd.2 h

/-- Every member of an admissible record is found for a field. -/
theorem exists_field_of_mem (hk : t.Admits (members.map (·.1))) (h : (key, x) ∈ members) :
    ∃ f ∈ t.fields, f.key = key ∧ members.lookup f.key = some x := by
  obtain ⟨f, hf, rfl⟩ := hk.known key (List.mem_map_of_mem h)
  exact ⟨f, hf, rfl, lookup_of_mem hk.distinct h⟩

theorem message?_mem (h : s.message? name = some t) : t ∈ s.messages :=
  List.mem_of_find?_eq_some h

theorem enum?_mem (h : s.enum? name = some e) : e ∈ s.enums :=
  List.mem_of_find?_eq_some h

theorem kind_slot (f : Field) : f.slot = .many f.kind ∧ f.cardinality = .repeated ∨
    f.slot = .one f.kind ∧ f.cardinality ≠ .repeated := by
  cases h : f.cardinality <;> simp [Field.slot, h]

theorem Writes.singleton (h : Form.Writes s (.one kind) x vs) : ∃ v, vs = [v] := by
  cases h <;> exact ⟨_, rfl⟩

-- ---------------------------------------------------------------------------
-- Depth
-- ---------------------------------------------------------------------------

theorem message_depth_le {m : Message} : m.depth ≤ n ↔ ∀ e ∈ m.toList, e.2.depth ≤ n := by
  induction m using Message.entries_induction with
  | empty => simp [Message.depth, Message.toList]
  | entry _ _ _ ih => rw [Message.depth, Nat.max_le, ih, Message.toList, List.forall_mem_cons]

/-- A message nests exactly as deep as the form that it was written for. -/
theorem Writes.depth_le (h : Form.Writes s slot x vs) :
    (∀ v ∈ vs, v.depth ≤ n) ↔ x.depth ≤ n := by
  induction h generalizing n with
  | nil => simp [Form.depth, Form.itemsDepth]
  | cons _ _ ihx ihr =>
    have hr := ihr (n := n)
    have hx := ihx (n := n)
    rw [Form.depth] at hr ⊢
    rw [List.forall_mem_cons, hr, Form.itemsDepth, Nat.max_le, ← hx]
    simp
  | @record name t members values kept ht hk hm hw ih =>
    have fields_le (n : Nat) : (∀ f ∈ t.fields, ∀ v ∈ kept f, v.depth ≤ n) ↔
        Form.membersDepth members ≤ n := by
      rw [Form.membersDepth_le]
      constructor
      · intro h key x hx
        obtain ⟨f, hf, -, hl⟩ := exists_field_of_mem hk hx
        have hw := hw f hf
        rw [hl] at hw
        refine (ih f hf x hl).mp fun v hv => ?_
        rcases Keeps.mem hw hv with hv | hu
        · exact h f hf v hv
        · simp [depth_of_countsAsUnset hu]
      · intro h f hf v hv
        rcases Keeps.cases (hw f hf) hv with ⟨hmem, hv⟩ | ⟨-, hu⟩
        · obtain ⟨x, hl⟩ := Option.isSome_iff_exists.mp hmem
          exact (ih f hf x hl).mpr (h _ x (mem_of_lookup hl)) v hv
        · simp [depth_of_countsAsUnset hu]
    cases n with
    | zero => simp [Value.depth, Form.depth]
    | succ n =>
      simp only [List.mem_singleton, forall_eq, Value.depth, Form.depth, Nat.add_le_add_iff_right,
        ← fields_le, message_depth_le, Message.toList_ofList, List.mem_flatMap, List.mem_map]
      constructor
      · exact fun h f hf v hv => h (f.number, v) ⟨f, hf, v, hv, rfl⟩
      · rintro h e ⟨f, hf, v, hv, rfl⟩
        exact h f hf v hv
  | _ => simp [Value.depth, Form.depth, Form.choice]

-- ---------------------------------------------------------------------------
-- Messages of their types
-- ---------------------------------------------------------------------------

theorem defaultOf_fits (hs : s.Regular) (hf : f.kind.isPlain = true)
    (hu : Message.countsAsUnset f (Message.defaultOf s f.kind) = true) :
    (Message.defaultOf s f.kind).Fits s f.kind := by
  simp only [Message.countsAsUnset, Bool.and_eq_true] at hu
  obtain ⟨-, hu⟩ := hu
  cases hk : f.kind with
  | scalar kind =>
    rw [hk] at hf
    cases kind <;> simp [FieldKind.isPlain] at hf <;> simp [Message.defaultOf, Value.Fits]
  | message => simp [hk, Message.defaultOf, Value.isDefault] at hu
  | group => simp [hk, Message.defaultOf, Value.isDefault] at hu
  | enum name =>
    cases he : s.enum? name with
    | none => simp [Message.defaultOf, he, Value.Fits, Message.enumHolds]
    | some e =>
      simp [Message.defaultOf, he, Value.Fits, Message.enumHolds,
        (hs.enums e (enum?_mem he)).isOpen]

theorem fits_ofList {list : List (Nat × Value)}
    (hv : ∀ e ∈ list, ∃ f, t.field? e.1 = some f ∧ e.2.Fits s f.kind)
    (hn : ∀ e ∈ list, Wire.IsNumber e.1) (ho : list.Pairwise fun a b => t.Orders a.1 b.1) :
    (Message.ofList list).Fits s t := by
  induction list with
  | nil => trivial
  | cons e rest ih =>
    rw [List.forall_mem_cons] at hv hn
    rw [List.pairwise_cons] at ho
    rw [Message.ofList, Message.Fits, Message.toList_ofList]
    exact ⟨hv.1, hn.1, ho.1, ih hv.2 hn.2 ho.2⟩

/-- Values of one field may stand side by side if there may be several of them. -/
theorem orders_self (ht : t.Regular) (hf : f ∈ t.fields) (hc : f.cardinality = .repeated) :
    t.Orders f.number f.number := by
  refine ⟨Nat.le_refl _, fun g hg => ?_⟩
  obtain rfl : f = g := by
    rw [(field?_eq_some ht).mpr ⟨hf, rfl⟩] at hg
    exact Option.some.inj hg
  refine ⟨fun _ => hc, fun g _ hx => ?_⟩
  simp only [MessageType.excludes, Bool.and_eq_true, bne_iff_ne] at hx
  exact hx.2

theorem orders_of_lt {g : Field} (ht : t.Regular) (hf : f ∈ t.fields) (hg : g ∈ t.fields)
    (hlt : f.number < g.number) (hx : MessageType.excludes g f = false) :
    t.Orders f.number g.number := by
  refine ⟨Nat.le_of_lt hlt, fun g' hg' => ?_⟩
  obtain rfl : g = g' := by
    rw [(field?_eq_some ht).mpr ⟨hg, rfl⟩] at hg'
    exact Option.some.inj hg'
  refine ⟨fun he => absurd he (Nat.ne_of_lt hlt), fun h hh hex he => ?_⟩
  rw [← number_inj ht hf hh he, hx] at hex
  cases hex

/-- Fields of one oneof are never both written. -/
theorem excludes_eq_false {g : Field} {fvalues gvalues fkept gkept : List Value}
    (ht : t.Regular) (hk : t.Admits (members.map (·.1))) (hf : f ∈ t.fields) (hg : g ∈ t.fields)
    (hwf : f.Keeps s (members.lookup f.key).isSome fvalues fkept)
    (hwg : g.Keeps s (members.lookup g.key).isSome gvalues gkept) (hv : v ∈ fkept)
    (hv' : v' ∈ gkept) : MessageType.excludes g f = false := by
  cases hx : MessageType.excludes g f with
  | false => rfl
  | true =>
    have hoo := hx
    simp only [MessageType.excludes, Bool.and_eq_true, beq_iff_eq] at hoo
    obtain ⟨⟨hog, hgf⟩, -⟩ := hoo
    have member {h : Field} {hvalues hkept : List Value} {w : Value} (hh : h ∈ t.fields)
        (ho : h.oneof.isSome = true)
        (hw : h.Keeps s (members.lookup h.key).isSome hvalues hkept) (hv : w ∈ hkept) :
        h.key ∈ members.map (·.1) := by
      have hc := ht.present h hh (.inl ho)
      rcases Keeps.cases hw hv with ⟨hmem, -⟩ | ⟨-, hu⟩
      · obtain ⟨x, hl⟩ := Option.isSome_iff_exists.mp hmem
        exact List.mem_map.mpr ⟨_, mem_of_lookup hl, rfl⟩
      · rw [cardinality_of_countsAsUnset hu] at hc
        cases hc
    rw [hk.apart g hg f hf (member hg hog hwg hv') (member hf (hgf ▸ hog) hwf hv)] at hx
    cases hx

/-- What is written for a form fits the form's slot. -/
theorem Writes.fits (hs : s.Regular) (h : Form.Writes s slot x vs) :
    ∀ v ∈ vs, v.Fits s slot.kind := by
  induction h with
  | nil => nofun
  | cons _ _ ihx ihr =>
    rw [List.forall_mem_singleton] at ihx
    exact List.forall_mem_cons.mpr ⟨ihx, ihr⟩
  | index _ hi => exact List.forall_mem_singleton.mpr (.inl ⟨rfl, hi⟩)
  | choice he hv =>
    have hn := (hs.enums _ (enum?_mem he)).narrow _ hv
    simp [Value.Fits, Slot.kind, Message.enumHolds, he, (hs.enums _ (enum?_mem he)).isOpen, hn]
  | @record name t members values kept ht hk hm hw ih =>
    have hr := hs.messages t (message?_mem ht)
    rw [List.forall_mem_singleton]
    refine ⟨name, t, rfl, ht, hr.single, fits_ofList ?_ ?_ ?_⟩
    · intro e he
      obtain ⟨f, hf, he⟩ := List.mem_flatMap.mp he
      obtain ⟨v, hv, rfl⟩ := List.mem_map.mp he
      refine ⟨f, (field?_eq_some hr).mpr ⟨hf, rfl⟩, ?_⟩
      rcases Keeps.cases (hw f hf) hv with ⟨hmem, hv⟩ | ⟨rfl, hu⟩
      · obtain ⟨x, hl⟩ := Option.isSome_iff_exists.mp hmem
        simpa using ih f hf x hl v hv
      · exact defaultOf_fits hs (hr.plain f hf) hu
    · intro e he
      obtain ⟨f, hf, he⟩ := List.mem_flatMap.mp he
      obtain ⟨v, hv, rfl⟩ := List.mem_map.mp he
      exact (hr.valid f hf).1
    · refine List.pairwise_flatMap.mpr ⟨fun f hf => ?_, hr.sorted.imp_of_mem ?_⟩
      · rcases kind_slot f with ⟨-, hc⟩ | ⟨hslot, -⟩
        · exact List.pairwise_map.mpr (List.pairwise_of_forall fun _ _ => orders_self hr hf hc)
        · have hone := Keeps.atMostOne (hw f hf) fun hmem => by
            obtain ⟨x, hl⟩ := Option.isSome_iff_exists.mp hmem
            have hx := hm f hf x hl
            rw [hslot] at hx
            exact Writes.singleton hx
          rcases hone with he | ⟨v, he⟩ <;> simp [he]
      · intro f g hf hg hlt a ha b hb
        obtain ⟨v, hv, rfl⟩ := List.mem_map.mp ha
        obtain ⟨v', hv', rfl⟩ := List.mem_map.mp hb
        exact orders_of_lt hr hf hg hlt
          (excludes_eq_false hr hk hf hg (hw f hf) (hw g hg) hv hv')
  | _ => exact List.forall_mem_singleton.mpr rfl

-- ---------------------------------------------------------------------------
-- Forms that can be written
-- ---------------------------------------------------------------------------

namespace Form

/-- Whether a form is an integer of 64 bits. -/
def isIndex : Form → Bool
  | .number x => x.toInt?.any fun i => decide (IsInt64 i)
  | _ => false

mutual
/-- Whether all texts of a form have an encoding, and all its indices have 64 bits. -/
def representable : Form → Bool
  | .text t => t.toString?.isSome
  | .list items => itemsRepresentable items
  | .record members => membersRepresentable members
  | _ => true
def itemsRepresentable : List Form → Bool
  | [] => true
  | x :: rest => x.representable && itemsRepresentable rest
def membersRepresentable : Members → Bool
  | [] => true
  | (key, x) :: rest =>
    (key != "index" || x.isIndex) && x.representable && membersRepresentable rest
end

theorem membersRepresentable_iff {members : Members} : membersRepresentable members = true ↔
    ∀ key x, (key, x) ∈ members → (key = "index" → x.isIndex = true) ∧ x.representable = true := by
  induction members with
  | nil => simp [membersRepresentable]
  | cons m rest ih =>
    obtain ⟨key, x⟩ := m
    simp only [membersRepresentable, Bool.and_eq_true, Bool.or_eq_true, bne_iff_ne, ih,
      List.mem_cons, Prod.mk.injEq]
    constructor
    · rintro ⟨⟨hi, hx⟩, hr⟩ key' y (⟨rfl, rfl⟩ | hy)
      · exact ⟨fun hk => hi.resolve_left fun hne => hne hk, hx⟩
      · exact hr key' y hy
    · intro h
      obtain ⟨hi, hx⟩ := h key x (.inl ⟨rfl, rfl⟩)
      refine ⟨⟨?_, hx⟩, fun key' y hy => h key' y (.inr hy)⟩
      by_cases hk : key = "index"
      · exact .inr (hi hk)
      · exact .inl hk

theorem itemsRepresentable_iff {items : List Form} :
    itemsRepresentable items = true ↔ ∀ x ∈ items, x.representable = true := by
  induction items with
  | nil => simp [itemsRepresentable]
  | cons x rest ih => simp [itemsRepresentable, ih]

end Form

/-- The key of integers. -/
theorem key_eq_index (ht : t.Regular) (hf : f ∈ t.fields) :
    f.key = "index" ↔ f.kind = .scalar .int64 := by
  rw [← ht.keyed.2 f hf, Field.key, lowerCamel]
  constructor
  · intro h
    rw [← h, String.toList_ofList]
  · intro h
    rw [h, String.ofList_toList]

/-- Only representable forms are ever written. -/
theorem Writes.representable (hs : s.Regular) (h : Form.Writes s slot x vs) :
    (slot = .one (.scalar .int64) → x.isIndex = true) ∧ x.representable = true := by
  induction h with
  | text h => simp [Form.representable, h]
  | index hx hi => simp [Form.isIndex, Form.representable, hx, hi]
  | choice => simp [Form.choice, Form.representable, Text.toString?_ofString]
  | cons _ _ ihx ihr =>
    have hr := ihr.2
    rw [Form.representable] at hr
    simp [Form.representable, Form.itemsRepresentable, ihx.2, hr]
  | @record name t members values kept ht hk hm hw ih =>
    have hr := hs.messages t (message?_mem ht)
    refine ⟨nofun, ?_⟩
    rw [Form.representable, Form.membersRepresentable_iff]
    intro key x hx
    obtain ⟨f, hf, rfl, hl⟩ := exists_field_of_mem hk hx
    obtain ⟨hi, hrep⟩ := ih f hf x hl
    refine ⟨fun hkey => hi ?_, hrep⟩
    have hkind := (key_eq_index hr hf).mp hkey
    simp [Field.slot, hr.present f hf (.inr hkind), hkind]
  | _ => simp [Form.representable, Form.itemsRepresentable]

-- ---------------------------------------------------------------------------
-- An encoder
-- ---------------------------------------------------------------------------

namespace Form

mutual
/-- The values of a form for an encoder that leaves nothing out. -/
def values? (s : Schema) : Slot → Form → Option (List Value)
  | .one (.scalar .bool), .bool b => some [.bool b]
  | .one (.scalar .string), .text t => t.toString?.map fun str => [.string str]
  | .one (.scalar .double), .number x => some [.double x]
  | .one (.scalar .int64), .number x =>
    (x.toInt?.filter fun i => decide (IsInt64 i)).map fun i => [.int i]
  | .one (.enum name), .text t =>
    ((s.enum? name).bind fun e => e.values.find? fun v => Text.ofString v.1 == t).map
      fun v => [.int v.2]
  | .many kind, .list items => itemValues? s kind items
  | .one (.message name), .record members => do
    let t ← s.message? name
    let entries ← t.fields.mapM fun f =>
      (memberValues? s f members).map fun vs => vs.map (f.number, ·)
    return [.message (.ofList entries.flatten)]
  | _, _ => none
def itemValues? (s : Schema) (kind : FieldKind) : List Form → Option (List Value)
  | [] => some []
  | x :: rest => do
    let vs ← values? s (.one kind) x
    return vs ++ (← itemValues? s kind rest)
def memberValues? (s : Schema) (f : Field) : Members → Option (List Value)
  | [] => some []
  | (key, x) :: rest => if f.key == key then values? s f.slot x else memberValues? s f rest
end

theorem memberValues?_eq (s : Schema) (f : Field) (members : Members) :
    memberValues? s f members = match members.lookup f.key with
      | some x => values? s f.slot x
      | none => some [] := by
  induction members with
  | nil => rfl
  | cons m rest ih =>
    obtain ⟨key, x⟩ := m
    rw [memberValues?, List.lookup_cons, ih]
    cases f.key == key <;> rfl

theorem flatten_mapM_eq_some {g : Field → Option (List α)} {fields : List Field} {all : List α} :
    (fields.mapM g).map List.flatten = some all ↔
      (∀ f ∈ fields, (g f).isSome = true) ∧ all = fields.flatMap fun f => (g f).getD [] := by
  induction fields generalizing all with
  | nil => exact ⟨fun h => ⟨nofun, (Option.some.inj h).symm⟩, fun ⟨_, h⟩ => by rw [h]; rfl⟩
  | cons f rest ih =>
    rw [List.mapM_cons, List.forall_mem_cons, List.flatMap_cons]
    cases hf : g f with
    | none => simp
    | some found =>
      have hcons : (rest.mapM g >>= fun more => pure (found :: more)).map List.flatten =
          ((rest.mapM g).map List.flatten).map (found ++ ·) := by
        cases rest.mapM g <;> rfl
      rw [Option.bind_eq_bind, Option.bind_some, hcons, Option.map_eq_some_iff]
      simp only [ih, Option.isSome_some, Option.getD_some, true_and]
      constructor
      · rintro ⟨more, ⟨hall, rfl⟩, rfl⟩
        exact ⟨hall, rfl⟩
      · rintro ⟨hall, rfl⟩
        exact ⟨_, ⟨hall, rfl⟩, rfl⟩

/-- The encoder gives a message for a record if it gives values for all members. -/
theorem values?_record (ht : s.message? name = some t) :
    (record members).values? s (.one (.message name)) = some values ↔
      (∀ f ∈ t.fields, (memberValues? s f members).isSome = true) ∧
        values = [.message (.ofList (t.fields.flatMap fun f =>
          ((memberValues? s f members).getD []).map (f.number, ·)))] := by
  have hgetD (f : Field) : ((memberValues? s f members).map fun vs =>
      vs.map (f.number, ·)).getD [] = ((memberValues? s f members).getD []).map (f.number, ·) := by
    cases memberValues? s f members <;> rfl
  have hflat {all : List (Nat × Value)} : (t.fields.mapM fun f =>
      (memberValues? s f members).map fun vs => vs.map (f.number, ·)).map List.flatten = some all ↔
        (∀ f ∈ t.fields, (memberValues? s f members).isSome = true) ∧
          all = t.fields.flatMap fun f => ((memberValues? s f members).getD []).map (f.number, ·) := by
    rw [flatten_mapM_eq_some]
    simp only [hgetD, Option.isSome_map]
  have hmessage : (record members).values? s (.one (.message name)) =
      ((t.fields.mapM fun f => (memberValues? s f members).map fun vs =>
        vs.map (f.number, ·)).map List.flatten).map fun all => [.message (.ofList all)] := by
    rw [values?, ht, Option.bind_eq_bind, Option.bind_some]
    cases t.fields.mapM fun f => (memberValues? s f members).map fun vs =>
      vs.map (f.number, ·) <;> rfl
  rw [hmessage, Option.map_eq_some_iff]
  constructor
  · rintro ⟨all, h, rfl⟩
    obtain ⟨hall, rfl⟩ := hflat.mp h
    exact ⟨hall, rfl⟩
  · rintro ⟨hall, rfl⟩
    exact ⟨_, hflat.mpr ⟨hall, rfl⟩, rfl⟩

end Form

/-- Values of items may be written for the list of them. -/
theorem Writes.items {items : List Form}
    (ih : ∀ x ∈ items, ∀ vs, x.values? s (.one kind) = some vs → Form.Writes s (.one kind) x vs)
    (h : Form.itemValues? s kind items = some vs) :
    Form.Writes s (.many kind) (.list items) vs := by
  induction items generalizing vs with
  | nil =>
    cases h
    exact .nil
  | cons x rest ihrest =>
    rw [List.forall_mem_cons] at ih
    simp only [Form.itemValues?, Option.bind_eq_bind, Option.bind_eq_some_iff] at h
    obtain ⟨v, hx, more, hr, h⟩ := h
    cases h
    have hx := ih.1 _ hx
    obtain ⟨v, rfl⟩ := Writes.singleton hx
    exact .cons hx (ihrest ih.2 hr)

/-- What the encoder gives may be written. -/
theorem Fits.writes (h : Form.Fits s slot x) (hv : x.values? s slot = some vs) :
    Form.Writes s slot x vs := by
  induction h generalizing vs with
  | bool =>
    cases hv
    exact .bool
  | text =>
    obtain ⟨str, hstr, rfl⟩ := Option.map_eq_some_iff.mp hv
    exact .text hstr
  | number =>
    cases hv
    exact .number
  | index =>
    obtain ⟨i, hi, rfl⟩ := Option.map_eq_some_iff.mp hv
    obtain ⟨hx, hi⟩ := Option.filter_eq_some_iff.mp hi
    exact .index hx (of_decide_eq_true hi)
  | @choice name _ value =>
    obtain ⟨v, hf, rfl⟩ := Option.map_eq_some_iff.mp hv
    obtain ⟨e, he, hf⟩ := Option.bind_eq_some_iff.mp hf
    have hname : Text.ofString v.1 = Text.ofString value := by simpa using List.find?_some hf
    rw [← Text.ofString_injective hname]
    exact .choice he (List.mem_of_find?_eq_some hf)
  | list _ ih =>
    rw [Form.values?] at hv
    exact Writes.items (fun x hx vs => ih x hx) hv
  | @record name t members ht hk hm ih =>
    obtain ⟨hall, rfl⟩ := (Form.values?_record ht).mp hv
    have hwrites : ∀ f ∈ t.fields, ∀ x, members.lookup f.key = some x →
        Form.Writes s f.slot x ((Form.memberValues? s f members).getD []) := by
      intro f hf x hl
      obtain ⟨vs, hvs⟩ := Option.isSome_iff_exists.mp (hall f hf)
      rw [hvs]
      rw [Form.memberValues?_eq, hl] at hvs
      exact ih f hf x (mem_of_lookup hl) hvs
    refine .record ht hk hwrites fun f hf => ?_
    cases hl : members.lookup f.key with
    | some => exact .inl rfl
    | none =>
      rw [Form.memberValues?_eq, hl]
      exact .inl rfl

theorem itemValues?_isSome {items : List Form}
    (ih : ∀ x ∈ items, (x.values? s (.one kind)).isSome = true) :
    (Form.itemValues? s kind items).isSome = true := by
  induction items with
  | nil => rfl
  | cons x rest ihrest =>
    rw [List.forall_mem_cons] at ih
    obtain ⟨vs, hvs⟩ := Option.isSome_iff_exists.mp ih.1
    obtain ⟨more, hmore⟩ := Option.isSome_iff_exists.mp (ihrest ih.2)
    simp [Form.itemValues?, hvs, hmore]

/-- The encoder takes every instance of a type that is representable. -/
theorem Fits.values?_isSome (hs : s.Regular) (h : Form.Fits s slot x)
    (hr : x.representable = true)
    (hi : slot.kind = .scalar .int64 → slot = .one (.scalar .int64) ∧ x.isIndex = true) :
    (x.values? s slot).isSome = true := by
  induction h with
  | bool => rfl
  | number => rfl
  | text => simpa [Form.values?, Form.representable] using hr
  | index hx =>
    have hi := (hi rfl).2
    simpa [Form.values?, Form.isIndex, hx, Option.isSome_filter] using hi
  | @choice name e value n he hv =>
    have hfind : (e.values.find? fun v => Text.ofString v.1 == Text.ofString value).isSome := by
      rw [List.find?_isSome]
      exact ⟨_, hv, by simp⟩
    simpa [Form.values?, Form.choice, he] using hfind
  | @list items kind h ih =>
    rw [Form.representable, Form.itemsRepresentable_iff] at hr
    have hkind : kind ≠ .scalar .int64 := fun hk => nomatch (hi hk).1
    rw [Form.values?]
    exact itemValues?_isSome fun x hx => ih x hx (hr x hx) fun hk => absurd hk hkind
  | @record name t members ht hk hm ih =>
    have hreg := hs.messages t (message?_mem ht)
    rw [Form.representable, Form.membersRepresentable_iff] at hr
    refine Option.isSome_iff_exists.mpr ⟨_, (Form.values?_record ht).mpr ⟨fun f hf => ?_, rfl⟩⟩
    rw [Form.memberValues?_eq]
    cases hl : members.lookup f.key with
    | none => rfl
    | some x =>
      have hx := mem_of_lookup hl
      obtain ⟨hidx, hrep⟩ := hr f.key x hx
      refine ih f hf x hx hrep fun hkind => ?_
      rw [Field.slot_kind] at hkind
      refine ⟨?_, hidx ((key_eq_index hreg hf).mpr hkind)⟩
      simp [Field.slot, hreg.present f hf (.inr hkind), hkind]

end Script

end Treewire
