import Treewire.Message.Decode
import Treewire.Message.Listing
import Treewire.Proofs.Records
import Treewire.Proofs.Utf8

/-!
# Messages read back

A message is written entry by entry. `decode?_octets` says what comes back for every message of a
type, however it is nested: the message itself, settled, as long as sub-messages nest no deeper
than the limit, and nothing beyond it.

A message may hold defaults of implicit fields here. An encoder is free to write them, a decoder
drops them, and `settled` is the message without them.
-/

namespace Treewire

open Wire

-- ---------------------------------------------------------------------------
-- Writing
-- ---------------------------------------------------------------------------

/-- The 64 bits of an integer of any width, in two's complement. -/
def intBits (i : Int) : UInt64 := (Int64.ofInt i).toUInt64

mutual
/-- How a value is written after the tag of its field. -/
def Value.mark : Value → Mark
  | .int i => .varint (intBits i)
  | .bool b => .varint (if b then 1 else 0)
  | .double x => .fixed64 x.bits
  | .float x => .fixed32 x.bits
  | .string s => .block (Utf8.encodeString s)
  | .bytes b => .block b
  | .message m => .block m.octets
/-- The octets of a message. -/
def Message.octets : Message → Bytes
  | .empty => []
  | .entry number value rest => itemOctets number value.mark ++ rest.octets
end

/-- What a record that was written for a value holds. -/
def Value.content (v : Value) : Content :=
  match v.mark with
  | .varint v => .varint v
  | .fixed64 v => .fixed64 v
  | .fixed32 v => .fixed32 v
  | .block b => .block b
  | .openGroup | .closeGroup => .group []

mutual
/-- How many messages deep a value is. -/
def Value.depth : Value → Nat
  | .message m => m.depth + 1
  | _ => 0
/-- How deep sub-messages nest. -/
def Message.depth : Message → Nat
  | .empty => 0
  | .entry _ value rest => max value.depth rest.depth
end

-- ---------------------------------------------------------------------------
-- Messages of a type
-- ---------------------------------------------------------------------------

/-- Whether an entry numbered `a` may stand before one numbered `b`: numbers ascend, only repeated
fields come again, and members of one oneof never meet. -/
def MessageType.Orders (t : MessageType) (a b : Nat) : Prop :=
  a ≤ b ∧ ∀ f, t.field? b = some f →
    (a = b → f.cardinality = .repeated) ∧ ∀ g ∈ t.fields, excludes f g → a ≠ g.number

mutual
/-- A value of a field's kind. Groups and maps are left out, and so are the kinds of integers that
have a form of their own on the wire. -/
def Value.Fits (s : Schema) (kind : FieldKind) : Value → Prop
  | .int i =>
    kind = .scalar .int64 ∧ -0x8000000000000000 ≤ i ∧ i < 0x8000000000000000 ∨
      ∃ name, kind = .enum name ∧ Message.enumHolds s name i ∧ -0x80000000 ≤ i ∧ i < 0x80000000
  | .bool _ => kind = .scalar .bool
  | .double _ => kind = .scalar .double
  | .float _ => kind = .scalar .float
  | .string _ => kind = .scalar .string
  | .bytes _ => kind = .scalar .bytes
  | .message m =>
    ∃ name t, kind = .message name ∧ s.message? name = some t ∧ t.isMapEntry = false ∧ m.Fits s t
/-- A message of a type. -/
def Message.Fits (s : Schema) (t : MessageType) : Message → Prop
  | .empty => True
  | .entry number value rest =>
    (∃ f, t.field? number = some f ∧ value.Fits s f.kind) ∧ IsNumber number ∧
      (∀ e ∈ rest.toList, t.Orders number e.1) ∧ rest.Fits s t
end

mutual
/-- A value of a field's kind without the defaults in it. -/
def Value.settled (s : Schema) (kind : FieldKind) : Value → Value
  | .message m =>
    match kind with
    | .message name => .message (match s.message? name with
      | some t => m.settled s t
      | none => m)
    | _ => .message m
  | v => v
/-- A message without the values that unset fields stand for. -/
def Message.settled (s : Schema) (t : MessageType) : Message → Message
  | .empty => .empty
  | .entry number value rest =>
    match t.field? number with
    | some f =>
      if Message.countsAsUnset f value then rest.settled s t
      else .entry number (value.settled s f.kind) (rest.settled s t)
    | none => .entry number value (rest.settled s t)
end

namespace Message

variable {s : Schema} {t : MessageType} {f : Field} {m : Message} {room : Nat}
  {list : List Record}

-- ---------------------------------------------------------------------------
-- Entries
-- ---------------------------------------------------------------------------

/-- Induction on the entries of a message and of the messages in them. -/
theorem deep_induction {motive : Message → Prop} (empty : motive .empty)
    (entry : ∀ number value rest, (∀ sub, value = .message sub → motive sub) → motive rest →
      motive (.entry number value rest)) (m : Message) : motive m := by
  induction m using Message.rec (motive_1 := fun v => ∀ sub, v = .message sub → motive sub) with
  | empty => exact empty
  | entry number value rest hvalue ih => exact entry number value rest hvalue ih
  | message m ih =>
    rename_i h
    cases h
    exact ih
  | _ =>
    rename_i h
    cases h

/-- Induction on the entries of a message, whatever is in them. -/
theorem entries_induction {motive : Message → Prop} (empty : motive .empty)
    (entry : ∀ number value rest, motive rest → motive (.entry number value rest)) (m : Message) :
    motive m :=
  deep_induction empty (fun number value rest _ ih => entry number value rest ih) m

/-- The entries of two messages, one after the other. -/
def concat : Message → Message → Message
  | .empty, m => m
  | .entry number value rest, m => .entry number value (rest.concat m)

@[simp] theorem concat_empty (m : Message) : m.concat .empty = m := by
  induction m using entries_induction with
  | empty => rfl
  | entry _ _ _ ih => rw [concat, ih]

theorem concat_entry (m rest : Message) :
    m.concat (.entry number value rest) = (m.concat (.entry number value .empty)).concat rest := by
  induction m using entries_induction with
  | empty => rfl
  | entry _ _ _ ih => rw [concat, ih, concat, concat]

@[simp] theorem toList_concat (m n : Message) : (m.concat n).toList = m.toList ++ n.toList := by
  induction m using entries_induction with
  | empty => rfl
  | entry _ _ _ ih => rw [concat, toList, toList, ih, List.cons_append]

theorem values_eq_nil (h : ∀ e ∈ m.toList, e.1 ≠ number) :
    m.values number = [] := by
  induction m using entries_induction with
  | empty => rfl
  | entry n _ _ ih =>
    rw [toList, List.forall_mem_cons] at h
    rw [values, if_neg h.1, ih h.2]

theorem erase_of_absent (h : ∀ e ∈ m.toList, e.1 ≠ number) :
    m.erase number = m := by
  induction m using entries_induction with
  | empty => rfl
  | entry n _ _ ih =>
    rw [toList, List.forall_mem_cons] at h
    rw [erase, if_neg h.1, ih h.2]

theorem append_of_le (h : ∀ e ∈ m.toList, e.1 ≤ number) :
    m.append number value = m.concat (.entry number value .empty) := by
  induction m using entries_induction with
  | empty => rfl
  | entry n _ _ ih =>
    rw [toList, List.forall_mem_cons] at h
    rw [append, if_pos h.1, ih h.2, concat]

-- ---------------------------------------------------------------------------
-- Putting a value behind the others
-- ---------------------------------------------------------------------------

theorem erase_all_of_absent {fields : List Field} (h : ∀ g ∈ fields, ∀ e ∈ m.toList, e.1 ≠ g.number) :
    fields.foldl (fun m g => m.erase g.number) m = m := by
  induction fields with
  | nil => rfl
  | cons g rest ih =>
    rw [List.forall_mem_cons] at h
    rw [List.foldl_cons, erase_of_absent h.1, ih h.2]

theorem field?_number (h : t.field? number = some f) : f.number = number := by
  simp only [MessageType.field?, Option.or_eq_some_iff] at h
  rcases h with h | ⟨-, h⟩ <;> simpa using List.find?_some h

/-- In a message whose entries may stand before the field's, a value goes to the end, unless it is
a default that need not be kept. -/
theorem put_of_orders (hf : t.field? number = some f)
    (ho : ∀ e ∈ m.toList, t.Orders e.1 number) :
    put t f value m = if countsAsUnset f value then m
      else m.concat (.entry number value .empty) := by
  have hn := field?_number hf
  have hle : ∀ e ∈ m.toList, e.1 ≤ number := fun e he => (ho e he).1
  have hne (hc : f.cardinality ≠ .repeated) : ∀ e ∈ m.toList, e.1 ≠ number :=
    fun e he heq => hc (((ho e he).2 f hf).1 heq)
  unfold put
  rw [hn]
  cases hc : f.cardinality with
  | repeated => simp [countsAsUnset, hc, append_of_le hle]
  | implicit =>
    have hne := hne (by simp [hc])
    simp [countsAsUnset, hc, set, erase_of_absent hne, append_of_le hle]
  | explicit =>
    have hne := hne (by simp [hc])
    have hothers : ∀ g ∈ t.fields.filter (MessageType.excludes f),
        ∀ e ∈ m.toList, e.1 ≠ g.number := by
      intro g hg e he
      obtain ⟨hg, hx⟩ := List.mem_filter.mp hg
      exact ((ho e he).2 f hf).2 g hg hx
    simp [countsAsUnset, hc, set, erase_all_of_absent hothers, erase_of_absent hne,
      append_of_le hle]

theorem current_of_orders (hf : t.field? number = some f)
    (ho : ∀ e ∈ m.toList, t.Orders e.1 number) : current f m = .empty := by
  cases hc : f.cardinality with
  | repeated => simp [current, hc]
  | _ =>
    have hne : ∀ e ∈ m.toList, e.1 ≠ f.number := by
      intro e he heq
      have := ((ho e he).2 f hf).1 (heq.trans (field?_number hf))
      simp [hc] at this
    simp [current, hc, get?, values_eq_nil hne]

-- ---------------------------------------------------------------------------
-- Records of a message
-- ---------------------------------------------------------------------------

/-- What the records of a written message hold. -/
def records (m : Message) : List Record := m.toList.map fun e => (e.1, e.2.content)

theorem octets_eq_flatMap (m : Message) :
    m.octets = (m.toList.map fun e => (e.1, e.2.mark)).flatMap fun e => itemOctets e.1 e.2 := by
  induction m using entries_induction with
  | empty => rfl
  | entry _ _ _ ih => rw [octets, ih, toList, List.map_cons, List.flatMap_cons]

theorem mark_octets_length_le (h : e ∈ m.toList) :
    e.2.mark.octets.length ≤ m.octets.length := by
  induction m using entries_induction with
  | empty => cases h
  | entry n v rest ih =>
    rw [octets, List.length_append, itemOctets, List.length_append]
    rcases List.mem_cons.mp h with rfl | h
    · simp only
      omega
    · exact Nat.le_trans (ih h) (by omega)

theorem nest?_mark (v : Value) :
    nest? done outer ((number, v.mark) :: items) =
      nest? ((number, v.content) :: done) outer items := by
  cases v <;> rfl

theorem nest?_marks (entries : List (Nat × Value)) :
    nest? done [] (entries.map fun e => (e.1, e.2.mark)) =
      some (done.reverse ++ entries.map fun e => (e.1, e.2.content)) := by
  induction entries generalizing done with
  | nil => simp [nest?]
  | cons e rest ih => rw [List.map_cons, nest?_mark, ih]; simp

theorem records?_octets (hn : ∀ e ∈ m.toList, IsNumber e.1)
    (hs : m.octets.length < 0x80000000) : records? m.octets = some m.records := by
  have hitems : items? m.octets = some (m.toList.map fun e => (e.1, e.2.mark)) := by
    rw [octets_eq_flatMap]
    refine items?_flatMap fun item hitem => ?_
    obtain ⟨e, he, rfl⟩ := List.mem_map.mp hitem
    exact ⟨hn e he, Nat.lt_of_le_of_lt (mark_octets_length_le he) hs⟩
  rw [records?, hitems, Option.bind_some, nest?_marks]
  rfl

theorem isNumber_of_fits (h : m.Fits s t) : ∀ e ∈ m.toList, IsNumber e.1 := by
  induction m using entries_induction with
  | empty => simp [toList]
  | entry _ _ _ ih =>
    obtain ⟨-, hn, -, hr⟩ := h
    rw [toList, List.forall_mem_cons]
    exact ⟨hn, ih hr⟩

-- ---------------------------------------------------------------------------
-- Reading a leaf
-- ---------------------------------------------------------------------------

theorem signed64_intBits (hl : -0x8000000000000000 ≤ i) (hh : i < 0x8000000000000000) :
    signed64 (intBits i) = i := by
  simp only [signed64, intBits, Int64.toInt64_toUInt64]
  exact Int64.toInt_ofInt_of_le hl hh

/-- Narrowing forgets where the sign came from. -/
theorem toInt32_narrow (x : Int64) : x.toUInt64.toUInt32.toInt32 = x.toInt32 := by
  apply Int32.toBitVec.inj
  simp only [UInt32.toBitVec_toInt32, UInt64.toBitVec_toUInt32, Int64.toBitVec_toUInt64,
    Int64.toBitVec_toInt32]
  exact (BitVec.signExtend_eq_setWidth_of_le _ (by decide)).symm

theorem signed32_intBits (hl : -0x80000000 ≤ i) (hh : i < 0x80000000) :
    signed32 (intBits i) = i := by
  rw [signed32, intBits, toInt32_narrow, Int64.toInt32_ofInt]
  exact Int32.toInt_ofInt_of_le hl hh

/-- A value that is no message is read back from its content. -/
theorem readLeaf_content {v : Value} (hv : v.Fits s kind) (hm : ∀ m, v ≠ .message m) :
    readLeaf s kind v.content = .value v := by
  cases v with
  | int i =>
    rcases hv with ⟨rfl, hl, hh⟩ | ⟨name, rfl, he, hl, hh⟩
    · simp [readLeaf, readScalar, Value.content, Value.mark, signed64_intBits hl hh]
    · simp [readLeaf, Value.content, Value.mark, signed32_intBits hl hh, he]
  | bool b =>
    obtain rfl : kind = _ := hv
    cases b <;> rfl
  | double x =>
    obtain rfl : kind = _ := hv
    rfl
  | float x =>
    obtain rfl : kind = _ := hv
    rfl
  | string str =>
    obtain rfl : kind = _ := hv
    simp [readLeaf, readScalar, Value.content, Value.mark, Utf8.decodeString?_encodeString]
  | bytes b =>
    obtain rfl : kind = _ := hv
    rfl
  | message m => exact absurd rfl (hm m)

-- ---------------------------------------------------------------------------
-- Absorbing
-- ---------------------------------------------------------------------------

/-- What reads sub-messages while they may still nest so deep. -/
def nestedReader (s : Schema) : Nat → Option Absorb
  | 0 => none
  | room + 1 => some (absorb s room)

theorem absorb_eq_foldlM : absorb s room t m list =
    list.foldlM (absorbRecord s (nestedReader s room) room t) m := by
  cases room <;> rfl

theorem absorb_nil : absorb s room t m [] = some m := by
  rw [absorb_eq_foldlM]
  rfl

theorem absorb_cons : absorb s room t m (record :: list) =
    (absorbRecord s (nestedReader s room) room t m record).bind
      fun m => absorb s room t m list := by
  rw [absorb_eq_foldlM, List.foldlM_cons]
  simp only [absorb_eq_foldlM]
  rfl

theorem absorb_append {more : List Record} :
    absorb s room t m (list ++ more) =
      (absorb s room t m list).bind fun m => absorb s room t m more := by
  simp only [absorb_eq_foldlM, List.foldlM_append]
  rfl

theorem decode?_eq_some {w : Bytes} : decode? s t w = some m ↔
    ∃ list, records? w = some list ∧ absorb s depthLimit t .empty list = some m :=
  Option.bind_eq_some_iff

/-- Whether all entries of one message may stand before all entries of another. -/
def Precedes (t : MessageType) (m n : Message) : Prop :=
  ∀ a ∈ m.toList, ∀ b ∈ n.toList, t.Orders a.1 b.1

/-- A message is absorbed behind another one, settled, if there is room for it. -/
def ReadsBack (s : Schema) (n : Message) : Prop :=
  ∀ t m room, n.Fits s t → Precedes t m n → n.octets.length < 0x80000000 →
    absorb s room t m n.records =
      if n.depth ≤ room then some (m.concat (n.settled s t)) else none

theorem absorbRecord_leaf {v : Value} (hf : t.field? number = some f) (hv : v.Fits s f.kind)
    (hm : ∀ m, v ≠ .message m) :
    absorbRecord s nested room t m (number, v.content) = some (put t f v m) := by
  have hr := readLeaf_content hv hm
  cases v with
  | message m => exact absurd rfl (hm m)
  | int =>
    rcases hv with ⟨hk, -⟩ | ⟨name, hk, -⟩ <;> rw [hk] at hr <;> simp [absorbRecord, hf, hk, hr]
  | _ =>
    have hk := hv
    simp only [Value.Fits] at hk
    rw [hk] at hr
    simp [absorbRecord, hf, hk, hr]

theorem absorbRecord_message {n : Message} (hf : t.field? number = some f)
    (hv : (Value.message n).Fits s f.kind) (ho : ∀ e ∈ m.toList, t.Orders e.1 number)
    (hs : n.octets.length < 0x80000000) (hn : ReadsBack s n) :
    absorbRecord s (nestedReader s room) room t m (number, (Value.message n).content) =
      if n.depth + 1 ≤ room then
        some (m.concat (.entry number ((Value.message n).settled s f.kind) .empty))
      else none := by
  obtain ⟨name, type, hk, ht, hmap, hfit⟩ := hv
  have hrec := records?_octets (isNumber_of_fits hfit) hs
  have hput : put t f (.message (n.settled s type)) m =
      m.concat (.entry number (.message (n.settled s type)) .empty) := by
    rw [put_of_orders hf ho]
    simp [countsAsUnset, Value.isDefault]
  cases room with
  | zero => simp [absorbRecord, Value.content, Value.mark, hf, hk, ht, hrec, nestedReader]
  | succ room =>
    have hread := hn type .empty room hfit (by simp [Precedes, toList]) hs
    simp only [absorbRecord, Value.content, Value.mark, hf, hk, ht, hrec, nestedReader,
      current_of_orders hf ho, Option.bind_eq_bind, Option.bind_some, hread]
    by_cases hd : n.depth ≤ room
    · simp [hd, hmap, putMessage, hput, Value.settled, ht, concat]
    · simp [hd]

/-- How one record of a written message is absorbed. -/
theorem absorbRecord_content {v : Value} (hf : t.field? number = some f) (hv : v.Fits s f.kind)
    (ho : ∀ e ∈ m.toList, t.Orders e.1 number) (hs : v.mark.octets.length < 0x80000000)
    (hn : ∀ n, v = .message n → ReadsBack s n) :
    absorbRecord s (nestedReader s room) room t m (number, v.content) =
      if v.depth ≤ room then
        some (if countsAsUnset f v then m
          else m.concat (.entry number (v.settled s f.kind) .empty))
      else none := by
  cases v with
  | message n =>
    have hs : n.octets.length < 0x80000000 := by
      simp only [Value.mark, Mark.octets, List.length_append] at hs
      omega
    rw [absorbRecord_message hf hv ho hs (hn n rfl)]
    simp [Value.depth, countsAsUnset, Value.isDefault]
  | _ =>
    rw [absorbRecord_leaf hf hv (by simp), put_of_orders hf ho]
    simp [Value.depth, Value.settled]

theorem readsBack (n : Message) : ReadsBack s n := by
  induction n using deep_induction with
  | empty =>
    intro t m room _ _ _
    simp [records, toList, absorb_nil, Message.depth, settled]
  | entry number v rest ihv ih =>
    intro t m room hfit hp hs
    obtain ⟨⟨f, hf, hv⟩, hn, hfollow, hrest⟩ := hfit
    have hv' : v.mark.octets.length < 0x80000000 :=
      Nat.lt_of_le_of_lt (mark_octets_length_le (e := (number, v)) (by simp [toList])) hs
    have hrs : rest.octets.length < 0x80000000 := by
      simp only [octets, List.length_append] at hs
      omega
    have hp1 : ∀ e ∈ m.toList, t.Orders e.1 number :=
      fun e he => hp e he (number, v) (by simp [toList])
    have hp2 : Precedes t m rest := fun a ha b hb => hp a ha b (by simp [toList, hb])
    rw [records, toList, List.map_cons, absorb_cons,
      absorbRecord_content hf hv hp1 hv' ihv]
    simp only [Message.depth, Nat.max_le, settled, hf]
    by_cases hd : v.depth ≤ room
    · by_cases hu : countsAsUnset f v
      · simp only [hd, hu, ↓reduceIte, Option.bind_some, true_and]
        exact ih t m room hrest hp2 hrs
      · have hp3 : Precedes t (m.concat (.entry number (v.settled s f.kind) .empty)) rest := by
          intro a ha b hb
          simp only [toList_concat, toList, List.mem_append, List.mem_singleton] at ha
          rcases ha with ha | rfl
          · exact hp2 a ha b hb
          · exact hfollow b hb
        simp only [hd, hu, ↓reduceIte, Option.bind_some, true_and, Bool.false_eq_true]
        rw [concat_entry m (rest.settled s t)]
        exact ih t _ room hrest hp3 hrs
    · simp [hd]

/-- A written message comes back settled when it nests no deeper than the limit, and not at all
when it nests deeper. -/
theorem decode?_octets (hm : m.Fits s t) (hs : m.octets.length < 0x80000000) :
    decode? s t m.octets = if m.depth ≤ depthLimit then some (m.settled s t) else none := by
  have h := readsBack m t .empty depthLimit hm (by simp [Precedes, toList]) hs
  rw [decode?, records?_octets (isNumber_of_fits hm) hs]
  simpa [concat] using h

end Message

end Treewire
