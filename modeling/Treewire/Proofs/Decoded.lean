import Treewire.Proofs.Presence

/-!
# Decoded messages

Whatever octets a reader accepts, it delivers a value of the message type: entries stand in number
order, each holds a value of its field's kind, members of one oneof never meet, and no entry is a
default of a field without presence. `absorbRecord_instance` shows that each record keeps this, from
records that the type does not know to packed ones, and `decode?_instance` follows.
-/

namespace Treewire.Message

open Wire

variable {s : Schema} {t : MessageType} {f : Field} {m : Message} {v : Value}

-- ---------------------------------------------------------------------------
-- Instances entry by entry
-- ---------------------------------------------------------------------------

/-- Whether a set field may have a value. -/
structure Suits (s : Schema) (f : Field) (v : Value) : Prop where
  fits : v.Fits s f.kind
  present : v.Present s f.kind
  kept : countsAsUnset f v = false

theorem instance_iff (ht : t.Regular) : m.Instance s t ↔
    (∀ e ∈ m.toList, ∃ f ∈ t.fields, f.number = e.1 ∧ Suits s f e.2) ∧
      m.toList.Pairwise fun a b => t.Orders a.1 b.1 := by
  induction m using entries_induction with
  | empty =>
    refine ⟨fun _ => ⟨fun e he => ?_, .nil⟩, fun _ => .empty⟩
    cases he
  | entry number value rest ih =>
    rw [toList, List.forall_mem_cons, List.pairwise_cons]
    constructor
    · rintro ⟨⟨⟨f, hf, hv⟩, -, ho, hfits⟩, hset, hpresent⟩
      obtain ⟨hall, hsorted⟩ := ih.mp ⟨hfits, hpresent⟩
      obtain ⟨hmem, hn⟩ := (Script.field?_eq_some ht).mp hf
      obtain ⟨hkept, hp⟩ := hset f hf
      exact ⟨⟨⟨f, hmem, hn, hv, hp, hkept⟩, hall⟩, ho, hsorted⟩
    · rintro ⟨⟨⟨f, hmem, hn, hv⟩, hall⟩, ho, hsorted⟩
      have hf : t.field? number = some f := (Script.field?_eq_some ht).mpr ⟨hmem, hn⟩
      have hnumber : IsNumber f.number := (ht.valid f hmem).1
      rw [hn] at hnumber
      exact .entry hf hnumber hv.fits hv.present hv.kept ho (ih.mpr ⟨hall, hsorted⟩)

theorem toList_erase (number : Nat) (m : Message) :
    (m.erase number).toList = m.toList.filter fun e => e.1 != number := by
  induction m using entries_induction with
  | empty => rfl
  | entry n v rest ih =>
    rw [erase, toList, List.filter_cons]
    by_cases hn : n = number
    · simp [hn, ih]
    · simp [hn, toList, ih]

/-- A value goes behind the entries with numbers up to its own. -/
theorem toList_append (number : Nat) (v : Value) (m : Message) : ∃ before after,
    m.toList = before ++ after ∧
      (m.append number v).toList = before ++ (number, v) :: after ∧
        (∀ e ∈ before, e.1 ≤ number) ∧ ∀ e, after.head? = some e → number < e.1 := by
  induction m using entries_induction with
  | empty =>
    refine ⟨[], [], rfl, rfl, fun e he => ?_, fun e he => ?_⟩
    · cases he
    · cases he
  | entry n w rest ih =>
    rw [append]
    by_cases hn : n ≤ number
    · obtain ⟨before, after, hlist, happend, hb, ha⟩ := ih
      rw [if_pos hn, toList, toList, hlist, happend]
      exact ⟨(n, w) :: before, after, rfl, rfl, List.forall_mem_cons.mpr ⟨hn, hb⟩, ha⟩
    · rw [if_neg hn]
      refine ⟨[], (n, w) :: rest.toList, rfl, rfl, fun e he => (by cases he), ?_⟩
      rintro e ⟨⟩
      exact Nat.lt_of_not_le hn

theorem erase_all_toList (fields : List Field) (m : Message) :
    (fields.foldl (fun m g => m.erase g.number) m).toList =
      m.toList.filter fun e => fields.all fun g => e.1 != g.number := by
  induction fields generalizing m with
  | nil => exact (List.filter_eq_self.mpr fun _ _ => rfl).symm
  | cons g rest ih =>
    rw [List.foldl_cons, ih, toList_erase, List.filter_filter]
    simp only [List.all_cons, Bool.and_comm]

/-- An instance remains one when entries are taken out. -/
theorem Instance.sublist {n : Message} (ht : t.Regular) (hm : m.Instance s t)
    (h : n.toList.Sublist m.toList) : n.Instance s t := by
  obtain ⟨hall, hsorted⟩ := (instance_iff ht).mp hm
  exact (instance_iff ht).mpr ⟨fun e he => hall e (h.subset he), hsorted.sublist h⟩

theorem erase_instance (ht : t.Regular) (hm : m.Instance s t) (number : Nat) :
    (m.erase number).Instance s t := by
  refine hm.sublist ht ?_
  rw [toList_erase]
  exact List.filter_sublist

-- ---------------------------------------------------------------------------
-- Putting values in place
-- ---------------------------------------------------------------------------

/-- Whether a field may get one more value: only a repeated one may have others, and no other
member of its oneof is set. -/
def Free (t : MessageType) (f : Field) (m : Message) : Prop :=
  ∀ e ∈ m.toList, (e.1 = f.number → f.cardinality = .repeated) ∧
    ∀ g ∈ t.fields, MessageType.excludes f g → e.1 ≠ g.number

theorem excludes_symm {g : Field} (h : MessageType.excludes f g = true) :
    MessageType.excludes g f = true := by
  simp only [MessageType.excludes, Bool.and_eq_true, beq_iff_eq, bne_iff_ne] at h ⊢
  obtain ⟨⟨hf, heq⟩, hne⟩ := h
  exact ⟨⟨heq ▸ hf, heq.symm⟩, hne.symm⟩

theorem append_instance (ht : t.Regular) (hm : m.Instance s t) (hf : f ∈ t.fields)
    (hv : Suits s f v) (hfree : Free t f m) : (m.append f.number v).Instance s t := by
  obtain ⟨hall, hsorted⟩ := (instance_iff ht).mp hm
  obtain ⟨before, after, hlist, happend, hbefore, hafter⟩ := toList_append f.number v m
  rw [Free, hlist] at hfree
  rw [hlist, List.pairwise_append] at hsorted
  obtain ⟨hb, ha, hba⟩ := hsorted
  have hlt : ∀ e ∈ after, f.number < e.1 := by
    cases after with
    | nil => exact fun e he => by cases he
    | cons first others =>
      have hfirst := hafter first rfl
      exact List.forall_mem_cons.mpr
        ⟨hfirst, fun e he => Nat.lt_of_lt_of_le hfirst (List.rel_of_pairwise_cons ha he).1⟩
  rw [instance_iff ht, happend, List.pairwise_append, List.pairwise_cons]
  refine ⟨fun e he => ?_, hb, ⟨fun e he => ?_, ha⟩,
    fun e he => List.forall_mem_cons.mpr ⟨?_, hba e he⟩⟩
  · obtain rfl | he : e = (f.number, v) ∨ e ∈ m.toList := by
      rw [hlist]
      simp only [List.mem_append, List.mem_cons] at he ⊢
      exact or_left_comm.mp he
    · exact ⟨f, hf, rfl, hv⟩
    · exact hall e he
  · -- No field behind excludes the one that gets the value.
    have hmem : e ∈ before ++ after := List.mem_append_right _ he
    obtain ⟨g, hg, hn, -⟩ := hall e (hlist ▸ hmem)
    have hx : MessageType.excludes g f = false := Bool.eq_false_iff.mpr fun hx =>
      (hfree e hmem).2 g hg (excludes_symm hx) hn.symm
    have hless := hlt e he
    rw [← hn] at hless ⊢
    exact Script.orders_of_lt ht hf hg hless hx
  · refine ⟨hbefore e he, fun g hg => ?_⟩
    obtain ⟨hgm, hgn⟩ := (Script.field?_eq_some ht).mp hg
    obtain rfl := Script.number_inj ht hgm hf hgn
    exact hfree e (List.mem_append_left _ he)

/-- A field that excludes another one keeps its defaults. -/
theorem excludes_eq_false (ht : t.Regular) (hf : f ∈ t.fields) (hc : f.cardinality ≠ .explicit)
    (g : Field) : MessageType.excludes f g = false := by
  have hnone : f.oneof.isSome = false :=
    Bool.eq_false_iff.mpr fun h => hc (ht.present f hf (.inl h))
  rw [MessageType.excludes, hnone, Bool.false_and, Bool.false_and]

theorem put_instance (ht : t.Regular) (hm : m.Instance s t) (hf : f ∈ t.fields)
    (hv : v.Fits s f.kind) (hp : v.Present s f.kind) : (put t f v m).Instance s t := by
  have hne (n : Message) : ∀ e ∈ (n.erase f.number).toList, e.1 ≠ f.number := by
    intro e he
    rw [toList_erase] at he
    simpa using (List.mem_filter.mp he).2
  have alone (hc : f.cardinality ≠ .explicit) : ∀ g ∈ t.fields, ∀ e ∈ m.toList,
      MessageType.excludes f g → e.1 ≠ g.number := fun g _ e _ hx => by
    rw [excludes_eq_false ht hf hc] at hx
    cases hx
  unfold put
  cases hc : f.cardinality with
  | repeated =>
    have hset : countsAsUnset f v = false := by simp [countsAsUnset, hc]
    have halone := alone (by simp [hc])
    exact append_instance ht hm hf ⟨hv, hp, hset⟩ fun e he =>
      ⟨fun _ => hc, fun g hg => halone g hg e he⟩
  | implicit =>
    have halone := alone (by simp [hc])
    dsimp only
    cases hd : v.isDefault with
    | true => exact erase_instance ht hm _
    | false =>
      have hset : countsAsUnset f v = false := by simp [countsAsUnset, hd]
      have herased := toList_erase f.number m
      refine append_instance ht (erase_instance ht hm _) hf ⟨hv, hp, hset⟩ fun e he =>
        ⟨fun h => absurd h (hne m e he), fun g hg => halone g hg e ?_⟩
      rw [herased] at he
      exact (List.mem_filter.mp he).1
  | explicit =>
    have hset : countsAsUnset f v = false := by simp [countsAsUnset, hc]
    dsimp only
    generalize ho : (t.fields.filter (MessageType.excludes f)).foldl
      (fun m g => m.erase g.number) m = others
    have hlist := erase_all_toList (t.fields.filter (MessageType.excludes f)) m
    rw [ho] at hlist
    have hothers : others.Instance s t := hm.sublist ht (hlist ▸ List.filter_sublist)
    refine append_instance ht (erase_instance ht hothers _) hf ⟨hv, hp, hset⟩ fun e he =>
      ⟨fun h => absurd h (hne others e he), fun g hg hx => ?_⟩
    rw [toList_erase, hlist] at he
    have hall := (List.mem_filter.mp (List.mem_filter.mp he).1).2
    simpa using List.all_eq_true.mp hall g (List.mem_filter.mpr ⟨hg, hx⟩)

theorem put_all_instance (ht : t.Regular) (hf : f ∈ t.fields) {values : List Value}
    (hv : ∀ v ∈ values, v.Fits s f.kind ∧ v.Present s f.kind) (hm : m.Instance s t) :
    (values.foldl (fun m v => put t f v m) m).Instance s t := by
  induction values generalizing m with
  | nil => exact hm
  | cons v rest ih =>
    rw [List.forall_mem_cons] at hv
    exact ih hv.2 (put_instance ht hm hf hv.1.1 hv.1.2)

-- ---------------------------------------------------------------------------
-- Absorbing
-- ---------------------------------------------------------------------------

theorem signed32_bounds (v : UInt64) : -0x80000000 ≤ signed32 v ∧ signed32 v < 0x80000000 :=
  ⟨Int32.le_toInt _, Int32.toInt_lt _⟩

theorem signed64_bounds (v : UInt64) :
    -0x8000000000000000 ≤ signed64 v ∧ signed64 v < 0x8000000000000000 :=
  ⟨Int64.le_toInt _, Int64.toInt_lt _⟩

/-- What is read for a kind is of that kind. -/
theorem readLeaf_fits {kind : FieldKind} {content : Content} (hk : kind.isPlain = true)
    (h : readLeaf s kind content = .value v) : v.Fits s kind ∧ v.Present s kind := by
  unfold readLeaf at h
  split at h
  · unfold readScalar at h
    split at h
    all_goals try exact absurd hk Bool.false_ne_true
    · cases h
      exact ⟨.inl ⟨rfl, signed64_bounds _⟩, trivial⟩
    · cases h
      exact ⟨rfl, trivial⟩
    · cases h
      exact ⟨rfl, trivial⟩
    · split at h
      · cases h
        exact ⟨rfl, trivial⟩
      · cases h
    · cases h
  · split at h
    · split at h
      · rename_i hholds
        cases h
        exact ⟨.inr ⟨_, rfl, hholds, signed32_bounds _⟩, trivial⟩
      · cases h
    · cases h
  · cases h

theorem mem_toList_of_values {number : Nat} (h : v ∈ m.values number) : (number, v) ∈ m.toList := by
  induction m using entries_induction with
  | empty => cases h
  | entry n w rest ih =>
    rw [toList]
    rw [values] at h
    split at h
    · rename_i hn
      rcases List.mem_cons.mp h with rfl | h
      · rw [hn]
        exact List.mem_cons_self
      · exact List.mem_cons_of_mem _ (ih h)
    · exact List.mem_cons_of_mem _ (ih h)

theorem Instance.suits (ht : t.Regular) (hm : m.Instance s t) (hf : f ∈ t.fields)
    (hv : v ∈ m.values f.number) : Suits s f v := by
  obtain ⟨g, hg, hn, hs⟩ := ((instance_iff ht).mp hm).1 _ (mem_toList_of_values hv)
  obtain rfl := Script.number_inj ht hg hf hn
  exact hs

/-- The message in a field of a message type is of that type. -/
theorem Suits.nested {n : Message} {name : String} {type : MessageType}
    (h : Suits s f (.message n)) (hk : f.kind = .message name)
    (htype : s.message? name = some type) : n.Instance s type := by
  obtain ⟨name', type', hk', htype', -, hfits⟩ := h.fits
  have hname : FieldKind.message name = .message name' := hk.symm.trans hk'
  cases hname
  cases htype.symm.trans htype'
  exact ⟨hfits, h.present name type hk htype⟩

/-- The constructors that values of a plain kind have. -/
inductive Typed (s : Schema) : FieldKind → Value → Prop
  | bool : Typed s (.scalar .bool) (.bool b)
  | string : Typed s (.scalar .string) (.string str)
  | double : Typed s (.scalar .double) (.double x)
  | int64 : Typed s (.scalar .int64) (.int i)
  | enum : Typed s (.enum name) (.int i)
  | message (ht : s.message? name = some type) : Typed s (.message name) (.message body)

theorem typed_of_fits {kind : FieldKind} (hk : kind.isPlain = true) (h : v.Fits s kind) :
    Typed s kind v := by
  cases v with
  | int i =>
    rcases h with ⟨rfl, -⟩ | ⟨name, rfl, -⟩
    · exact .int64
    · exact .enum
  | message m =>
    obtain ⟨name, t, rfl, ht, -⟩ := h
    exact .message ht
  | _ =>
    obtain rfl : kind = _ := h
    first
      | constructor
      | cases hk

theorem current_instance {name : String} {type : MessageType} (ht : t.Regular)
    (hm : m.Instance s t) (hf : f ∈ t.fields) (hk : f.kind = .message name)
    (htype : s.message? name = some type) : (current f m).Instance s type := by
  unfold current
  split
  · exact .empty
  · rename_i hget _
    exact (hm.suits ht hf (List.mem_of_head? hget)).nested hk htype
  · exact .empty

theorem putMessage_instance {value : Message} {name : String} {type : MessageType}
    (ht : t.Regular) (hm : m.Instance s t) (hf : f ∈ t.fields) (hk : f.kind = .message name)
    (htype : s.message? name = some type) (hsingle : type.isMapEntry = false)
    (hvalue : value.Instance s type) : (putMessage s t f type value m).Instance s t := by
  simp only [putMessage, hsingle, Bool.false_eq_true, false_and, if_false]
  exact put_instance ht hm hf ⟨name, type, hk, htype, hsingle, hvalue.fits⟩
    (present_message hk htype hvalue.present)

theorem leaves_instance (ht : t.Regular) (hf : f ∈ t.fields) {values : List Value}
    (hv : ∀ v ∈ values, ∃ content, readLeaf s f.kind content = .value v) (hm : m.Instance s t) :
    (values.foldl (fun m v => put t f v m) m).Instance s t :=
  put_all_instance ht hf (fun v hmem => by
    obtain ⟨content, hread⟩ := hv v hmem
    exact readLeaf_fits (ht.plain f hf) hread) hm

/-- A record that is passed over leaves the message as it is. -/
theorem passed_instance {content : Content} {room : Nat} {n : Message} (hm : m.Instance s t)
    (h : (if content.depth ≤ room then some m else none) = some n) : n.Instance s t := by
  obtain ⟨-, h⟩ := Option.ite_none_right_eq_some.mp h
  cases h
  exact hm

/-- Whether a reader of sub-messages makes instances of instances. -/
def Delivers (s : Schema) (read : Absorb) : Prop :=
  ∀ t ∈ s.messages, ∀ m records n, m.Instance s t → read t m records = some n → n.Instance s t

theorem absorbRecord_instance {n : Message} {record : Record} (hs : s.Regular)
    (htm : t ∈ s.messages) (hn : ∀ read, nested = some read → Delivers s read) (hm : m.Instance s t)
    (h : absorbRecord s nested room t m record = some n) : n.Instance s t := by
  have ht := hs.messages t htm
  obtain ⟨number, content⟩ := record
  simp only [absorbRecord] at h
  cases hfield : t.field? number with
  | none => exact passed_instance hm (by simpa only [hfield] using h)
  | some f =>
    obtain ⟨hf, -⟩ := (Script.field?_eq_some ht).mp hfield
    simp only [hfield] at h
    split at h
    · -- A sub-message, which extends the one in place.
      rename_i name bytes hk
      simp only [Option.bind_eq_bind, Option.bind_eq_some_iff] at h
      obtain ⟨type, htype, records, -, read, hread, value, hvalue, h⟩ := h
      have htypem := Script.message?_mem htype
      have hsingle := (hs.messages type htypem).single
      have hsub : value.Instance s type :=
        hn read hread type htypem _ _ _ (current_instance ht hm hf hk htype) hvalue
      simp only [hsingle, Bool.false_and, Bool.false_eq_true, if_false] at h
      cases h
      exact putMessage_instance ht hm hf hk htype hsingle hsub
    · rename_i hk
      have hplain := ht.plain f hf
      rw [hk] at hplain
      cases hplain
    · exact passed_instance hm h
    · exact passed_instance hm h
    · split at h
      · rename_i v hread
        cases h
        exact leaves_instance ht hf (List.forall_mem_singleton.mpr ⟨_, hread⟩) hm
      · cases h
      · split at h
        · -- Packed values stand for as many records.
          obtain ⟨contents, -, h⟩ := Option.bind_eq_some_iff.mp h
          cases h
          refine leaves_instance ht hf (fun v hmem => ?_) hm
          obtain ⟨content, -, hread⟩ := List.mem_filterMap.mp hmem
          split at hread
          · rename_i hvalue
            cases hread
            exact ⟨content, hvalue⟩
          · cases hread
        · exact passed_instance hm h

/-- What reads records makes instances if what reads sub-messages does. -/
theorem Delivers.deeper {depth : Nat} (hs : s.Regular)
    (hn : ∀ read, nestedReader s depth = some read → Delivers s read) :
    Delivers s (absorb s depth) := by
  intro t ht m records n hm h
  induction records generalizing m with
  | nil =>
    rw [absorb_nil] at h
    cases h
    exact hm
  | cons record rest ih =>
    rw [absorb_cons, Option.bind_eq_some_iff] at h
    obtain ⟨next, hnext, h⟩ := h
    exact ih next (absorbRecord_instance hs ht hn hm hnext) h

theorem absorb_delivers (hs : s.Regular) (depth : Nat) : Delivers s (absorb s depth) := by
  induction depth with
  | zero => exact .deeper hs fun read h => by cases h
  | succ depth ih =>
    refine .deeper hs ?_
    rintro read ⟨⟩
    exact ih

/-- Only values of the type are ever decoded. -/
theorem decode?_instance {w : Bytes} (hs : s.Regular) (ht : t ∈ s.messages)
    (h : decode? s t w = some m) : m.Instance s t := by
  obtain ⟨records, -, h⟩ := Option.bind_eq_some_iff.mp h
  exact absorb_delivers hs depthLimit t ht .empty records m .empty h

end Treewire.Message
