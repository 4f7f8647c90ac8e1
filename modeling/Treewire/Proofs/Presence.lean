import Treewire.Proofs.RoundTrip

/-!
# Presence

A field with presence keeps a default that it was set to, such as a member of a oneof; a field
without presence is set only while it differs from its default. A value of a message type has
entries for the set fields and for no others. `decodeTree_serialize` says that the reader undoes the
standard encoding of such values up to the limit on nesting, and refuses them beyond it.
-/

namespace Treewire

open Schema Wire

-- ---------------------------------------------------------------------------
-- Values of a type
-- ---------------------------------------------------------------------------

mutual
/-- Whether every entry within a value is that of a set field. -/
def Value.Present (s : Schema) (kind : FieldKind) : Value → Prop
  | .message m => ∀ name t, kind = .message name → s.message? name = some t → m.Present s t
  | _ => True
/-- Whether every entry of a message, at any depth, is that of a set field. -/
def Message.Present (s : Schema) (t : MessageType) : Message → Prop
  | .empty => True
  | .entry number value rest =>
    (∀ f, t.field? number = some f →
      Message.countsAsUnset f value = false ∧ value.Present s f.kind) ∧ rest.Present s t
end

namespace Message

variable {s : Schema} {t : MessageType} {m : Message} {w : Bytes}

/-- A value of a message type. -/
structure Instance (s : Schema) (t : MessageType) (m : Message) : Prop where
  fits : m.Fits s t
  present : m.Present s t

/-- The standard encoding; messages of two gibibytes and more have none. -/
def serialize? (m : Message) : Option Bytes :=
  if m.octets.length < 0x80000000 then some m.octets else none

theorem serialize?_eq_some :
    m.serialize? = some w ↔ m.octets.length < 0x80000000 ∧ w = m.octets := by
  rw [serialize?, Option.ite_none_right_eq_some, Option.some.injEq, eq_comm (a := w)]

/-- Settling takes out what is not set, so it leaves a message of set fields as it is. -/
theorem settled_of_present (h : m.Present s t) : m.settled s t = m := by
  induction m using Message.rec
    (motive_1 := fun v => ∀ kind, v.Present s kind → v.settled s kind = v) generalizing t with
  | empty => rfl
  | entry number value rest ihv ih =>
    obtain ⟨hv, hr⟩ := h
    rw [settled]
    cases hf : t.field? number with
    | none => simp only [ih hr]
    | some f =>
      obtain ⟨hset, hv⟩ := hv f hf
      simp only [hset, ihv f.kind hv, ih hr, Bool.false_eq_true, if_false]
  | message n ih =>
    rename_i kind h
    cases kind with
    | message name =>
      cases ht : s.message? name with
      | none => simp only [Value.settled, ht]
      | some t => simp only [Value.settled, ht, ih (h name t rfl ht)]
    | _ => rfl
  | _ => rfl

theorem Instance.decode? (h : m.Instance s t) (hw : m.serialize? = some w) :
    Message.decode? s t w = if m.depth ≤ depthLimit then some m else none := by
  obtain ⟨hs, rfl⟩ := serialize?_eq_some.mp hw
  rw [decode?_octets h.fits hs, settled_of_present h.present]

/-- An entry for a set field may stand before those that the type puts after it. -/
theorem Instance.entry {f : Field} {value : Value} {rest : Message} (hf : t.field? n = some f)
    (hn : IsNumber n) (hv : value.Fits s f.kind) (hp : value.Present s f.kind)
    (hset : countsAsUnset f value = false) (ho : ∀ e ∈ rest.toList, t.Orders n e.1)
    (hr : rest.Instance s t) : (Message.entry n value rest).Instance s t where
  fits := ⟨⟨f, hf, hv⟩, hn, ho, hr.fits⟩
  present := by
    refine ⟨fun g hg => ?_, hr.present⟩
    cases hf.symm.trans hg
    exact ⟨hset, hp⟩

theorem Instance.empty : Message.empty.Instance s t := ⟨trivial, trivial⟩

theorem present_message {n : Message} {kind : FieldKind} {name : String} {type : MessageType}
    (hk : kind = .message name) (ht : s.message? name = some type) (hn : n.Present s type) :
    (Value.message n).Present s kind := by
  subst hk
  rintro name type ⟨⟩ ht'
  cases ht.symm.trans ht'
  exact hn

/-- A sub-message is an entry like any other, and always set. -/
theorem Instance.nested {f : Field} {sub rest : Message} {type : MessageType} {name : String}
    (hf : t.field? n = some f) (hn : IsNumber n) (hk : f.kind = .message name)
    (ht : s.message? name = some type) (hmap : type.isMapEntry = false)
    (hsub : sub.Instance s type) (ho : ∀ e ∈ rest.toList, t.Orders n e.1)
    (hr : rest.Instance s t) : (Message.entry n (.message sub) rest).Instance s t := by
  have hv : (Value.message sub).Fits s f.kind := ⟨name, type, hk, ht, hmap, hsub.fits⟩
  refine .entry hf hn hv (present_message hk ht hsub.present) ?_ ho hr
  rw [countsAsUnset, Value.isDefault, Bool.and_false]

theorem Instance.only {f : Field} {sub : Message} {type : MessageType} {name : String}
    (hf : t.field? n = some f) (hn : IsNumber n) (hk : f.kind = .message name)
    (ht : s.message? name = some type) (hmap : type.isMapEntry = false)
    (hsub : sub.Instance s type) : (Message.entry n (.message sub) .empty).Instance s t :=
  .nested hf hn hk ht hmap hsub (fun _ h => absurd h List.not_mem_nil) .empty

/-- A class with one property, whose key is the index zero. -/
def indexed (value : Message) : Message :=
  .entry 5 (.message (.entry 3 (.message (.entry 2 (.int 0) (.entry 5 (.message value) .empty)))
    .empty)) .empty

/-- A statement in so many blocks. -/
def inBlocks (statement : Message) : Nat → Message
  | 0 => statement
  | k + 1 => .entry 2 (.message (.entry 1 (.message (inBlocks statement k)) .empty)) .empty

/-- A tree with a class in 48 blocks. -/
def buried (value : Message) : Message :=
  .entry 1 (.message (inBlocks (indexed value) 48)) .empty

theorem depth_inBlocks (k : Nat) : (inBlocks m k).depth = m.depth + 2 * k := by
  induction k with
  | zero => rfl
  | succ k ih =>
    simp only [inBlocks, depth, Value.depth, ih]
    omega

theorem depth_buried (value : Message) : (buried value).depth = value.depth + 100 := by
  simp only [buried, indexed, depth, Value.depth, depth_inBlocks]
  omega

theorem message?_of_mem {name : String} (ht : t ∈ bundled.messages) (hn : t.name = name) :
    bundled.message? name = some t := hn ▸ Script.bundled_message? t ht

theorem inBlocks_instance (h : m.Instance bundled Bundled.statement) (k : Nat) :
    (inBlocks m k).Instance bundled Bundled.statement := by
  induction k with
  | zero => exact h
  | succ k ih =>
    have hblock := message?_of_mem (t := Bundled.blockStatement) (by simp [bundled]) rfl
    have hstatement := message?_of_mem (t := Bundled.statement) (by simp [bundled]) rfl
    exact .only rfl (by decide) rfl hblock rfl (.only rfl (by decide) rfl hstatement rfl ih)

theorem indexed_instance {value : Message} (h : value.Instance bundled Bundled.expression) :
    (indexed value).Instance bundled Bundled.statement := by
  have hexpression := message?_of_mem (t := Bundled.expression) (by simp [bundled]) rfl
  have hproperty := message?_of_mem (t := Bundled.classProperty) (by simp [bundled]) rfl
  have hclass := message?_of_mem (t := Bundled.classDeclaration) (by simp [bundled]) rfl
  have hvalue : (Message.entry 5 (.message value) .empty).Instance bundled Bundled.classProperty :=
    .only rfl (by decide) rfl hexpression rfl h
  have hkeyed : (Message.entry 2 (.int 0) (.entry 5 (.message value) .empty)).Instance bundled
      Bundled.classProperty := by
    refine .entry rfl (by decide) (.inl ⟨rfl, by decide⟩) trivial rfl ?_ hvalue
    have hlt : 2 < 5 := by decide
    refine List.forall_mem_singleton.mpr ⟨Nat.le_of_lt hlt, fun f hf => ?_⟩
    have hf : some (Bundled.one "Expression" 5 "value") = some f := hf
    cases hf
    exact ⟨fun h => absurd h (Nat.ne_of_lt hlt), by decide⟩
  exact .only rfl (by decide) rfl hclass rfl (.only rfl (by decide) rfl hproperty rfl hkeyed)

theorem buried_instance {value : Message} (h : value.Instance bundled Bundled.expression) :
    (buried value).Instance bundled Bundled.ast :=
  .only rfl (by decide) rfl (message?_of_mem (by simp [bundled]) rfl) rfl
    (inBlocks_instance (indexed_instance h) 48)

/-- An expression that spreads nothing. -/
def spread : Message := .entry 25 (.message .empty) .empty

theorem spread_instance : spread.Instance bundled Bundled.expression :=
  .only rfl (by decide) rfl
    (message?_of_mem (t := Bundled.spreadElement) (by simp [bundled]) rfl) rfl .empty

/-- A sub-message comes after one tag and one length. -/
theorem length_octets_nested (m rest : Message) :
    (Message.entry n (.message m) rest).octets.length ≤
      m.octets.length + rest.octets.length + 20 := by
  have htag := length_varintOctets_le (8 * n + 2)
  have hlength := length_varintOctets_le m.octets.length
  simp only [octets, Value.mark, itemOctets, Mark.octets, Mark.wireType, List.length_append]
  omega

theorem length_octets_inBlocks (k : Nat) :
    (inBlocks m k).octets.length ≤ m.octets.length + 40 * k := by
  induction k with
  | zero => exact Nat.le_refl _
  | succ k ih =>
    have hinner := length_octets_nested (n := 1) (inBlocks m k) .empty
    have houter := length_octets_nested (n := 2)
      (.entry 1 (.message (inBlocks m k)) .empty) .empty
    simp only [inBlocks]
    simp only [octets, List.length_nil] at hinner houter ⊢
    omega

theorem serialize?_buried {value : Message} (h : (indexed value).octets.length < 0x10000) :
    (buried value).serialize? = some (buried value).octets := by
  have hblocks := length_octets_inBlocks (m := indexed value) 48
  have htree := length_octets_nested (n := 1) (inBlocks (indexed value) 48) .empty
  refine if_pos (Nat.lt_of_le_of_lt htree ?_)
  simp only [octets, List.length_nil]
  omega

end Message

/-- The reader undoes the standard encoding of every tree, unless sub-messages nest too deep. -/
theorem decodeTree_serialize {m : Message} {w : Bytes} {path : Text} {session after : Session}
    (hm : m.Instance bundled Bundled.ast) (hw : m.serialize? = some w)
    (hl : Act.Loads path session after) :
    (m.depth ≤ Message.depthLimit →
      Act.decodeTree w path session = (.ok ⟨bundled, Bundled.ast, m⟩, after)) ∧
    (Message.depthLimit < m.depth →
      Act.decodeTree w path session = (.error (.badPayload w.length), after)) := by
  have hd := hm.decode? hw
  constructor
  · intro h
    rw [Act.decodeTree_eq hl, hd, if_pos h]
  · intro h
    rw [Act.decodeTree_eq hl, hd, if_neg (Nat.not_le.mpr h)]

open Message in
/-- Nested exactly as deep as the limit, with an index zero and an expression that is nothing, a
tree is read back; one level deeper, it is refused. -/
theorem buried_decodes :
    ((buried .empty).Instance bundled Bundled.ast ∧
      (buried .empty).serialize? = some (buried .empty).octets ∧
      Act.Loads informedPath .informed .informed ∧ (buried .empty).depth = 100 ∧
      Act.decodeTree (buried .empty).octets informedPath .informed =
        (.ok ⟨bundled, Bundled.ast, buried .empty⟩, .informed)) ∧
    (buried spread).Instance bundled Bundled.ast ∧
      (buried spread).serialize? = some (buried spread).octets ∧ (buried spread).depth = 101 ∧
      Act.decodeTree (buried spread).octets informedPath .informed =
        (.error (.badPayload (buried spread).octets.length), .informed) := by
  have hempty : (buried .empty).depth = 100 := depth_buried .empty
  have hspread : (buried spread).depth = 101 := depth_buried spread
  have hwritten : (buried .empty).serialize? = some (buried .empty).octets :=
    serialize?_buried (by decide)
  have hwritten' : (buried spread).serialize? = some (buried spread).octets :=
    serialize?_buried (by decide)
  have hread := decodeTree_serialize (buried_instance .empty) hwritten
    Session.informed_loads
  have hrefused := decodeTree_serialize (buried_instance spread_instance) hwritten'
    Session.informed_loads
  exact ⟨⟨buried_instance .empty, hwritten, Session.informed_loads, hempty,
      hread.1 (Nat.le_of_eq hempty)⟩,
    buried_instance spread_instance, hwritten', hspread,
    hrefused.2 (by rw [hspread]; decide)⟩

end Treewire
