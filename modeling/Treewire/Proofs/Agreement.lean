import Mathlib.Data.List.Basic
import Treewire.Proofs.Decoded
import Treewire.Proofs.Dictionary

/-!
# Messages that agree

Two messages of a type agree if every field has as many values in one as in the other, and these
agree one by one. All NaNs count as one value, but the two zeros are different. `leveled` gives
every NaN the same bits: two values of a type agree exactly if they are equal once leveled
(`agrees_iff_leveled`), and no dictionary and no listing sees the difference.
-/

namespace Treewire

-- ---------------------------------------------------------------------------
-- Agreement field by field
-- ---------------------------------------------------------------------------

mutual
/-- Whether two values of a field's kind agree. -/
inductive Value.Agrees (s : Schema) : FieldKind → Value → Value → Prop
  | same : Value.Agrees s kind v v
  | nan (hx : x.value = .nan) (hy : y.value = .nan) :
      Value.Agrees s kind (.double x) (.double y)
  | message (ht : s.message? name = some t) (h : Message.Agrees s t m n) :
      Value.Agrees s (.message name) (.message m) (.message n)
/-- Whether two messages agree on every field of a type, set or not. -/
inductive Message.Agrees (s : Schema) : MessageType → Message → Message → Prop
  | mk {m n : Message}
      (hl : ∀ f ∈ t.fields, (m.values f.number).length = (n.values f.number).length)
      (hv : ∀ f ∈ t.fields, ∀ (i : Nat) v w, (m.values f.number)[i]? = some v →
        (n.values f.number)[i]? = some w → Value.Agrees s f.kind v w) : Message.Agrees s t m n
end

namespace Binary64

/-- The number, with the same bits for every NaN. -/
def leveled (x : Binary64) : Binary64 :=
  match x.value with
  | .nan => .nan
  | _ => x

theorem leveled_of_nan {x : Binary64} (h : x.value = .nan) :
    x.leveled = .nan := by
  rw [leveled, h]

theorem leveled_of_number {x : Binary64} (h : x.value ≠ .nan) : x.leveled = x := by
  unfold leveled
  split
  · rename_i hx
    exact absurd hx h
  · rfl

theorem leveled_value (x : Binary64) : x.leveled.value = x.value := by
  by_cases h : x.value = .nan
  · rw [leveled_of_nan h, h]
    rfl
  · rw [leveled_of_number h]

theorem leveled_inj {x y : Binary64} (h : x.leveled = y.leveled) :
    x = y ∨ x.value = .nan ∧ y.value = .nan := by
  have hvalue : x.value = y.value := by rw [← leveled_value x, h, leveled_value y]
  by_cases hx : x.value = .nan
  · exact .inr ⟨hx, hvalue ▸ hx⟩
  · rw [leveled_of_number hx, leveled_of_number (hvalue ▸ hx)] at h
    exact .inl h

end Binary64

mutual
/-- The value, with the same bits for every NaN in it. -/
def Value.leveled : Value → Value
  | .double x => .double x.leveled
  | .message m => .message m.leveled
  | v => v
/-- The message, with the same bits for every NaN in it. -/
def Message.leveled : Message → Message
  | .empty => .empty
  | .entry number value rest => .entry number value.leveled rest.leveled
end

/-- Values that are equal once leveled are equal, or both NaN, or messages of that sort. -/
theorem Value.leveled_cases {v w : Value} (h : v.leveled = w.leveled) :
    v = w ∨
      (∃ x y, v = .double x ∧ w = .double y ∧ x.value = .nan ∧ y.value = .nan) ∨
      ∃ m n, v = .message m ∧ w = .message n ∧ m.leveled = n.leveled := by
  cases v with
  | double x =>
    cases w with
    | double y =>
      rcases Binary64.leveled_inj (Value.double.inj h) with rfl | ⟨hx, hy⟩
      · exact .inl rfl
      · exact .inr (.inl ⟨x, y, rfl, rfl, hx, hy⟩)
    | _ => cases h
  | message m =>
    cases w with
    | message n => exact .inr (.inr ⟨m, n, rfl, rfl, Value.message.inj h⟩)
    | _ => cases h
  | _ =>
    cases w with
    | double _ => cases h
    | message _ => cases h
    | _ => exact .inl h

namespace Message

variable {s : Schema} {t : MessageType} {f : Field} {m n : Message} {v w : Value}

/-- What holds of a message if it holds of those in its fields holds of every message. -/
theorem nested_induction {motive : Message → Prop}
    (step : ∀ m, (∀ e ∈ m.toList, ∀ n, e.2 = .message n → motive n) → motive m) (m : Message) :
    motive m := by
  have fields : motive m ∧ ∀ e ∈ m.toList, ∀ n, e.2 = .message n → motive n := by
    induction m using deep_induction with
    | empty =>
      have none : ∀ e ∈ Message.empty.toList, ∀ n, e.2 = .message n → motive n :=
        fun _ h => by cases h
      exact ⟨step _ none, none⟩
    | entry number value rest hvalue ih =>
      have all : ∀ e ∈ (Message.entry number value rest).toList, ∀ n, e.2 = .message n → motive n :=
        List.forall_mem_cons.mpr ⟨fun n h => (hvalue n h).1, ih.2⟩
      exact ⟨step _ all, all⟩
  exact fields.1

-- ---------------------------------------------------------------------------
-- Messages laid out by fields
-- ---------------------------------------------------------------------------

theorem values_eq_filter (number : Nat) (m : Message) :
    m.values number = (m.toList.filter fun e => e.1 == number).map (·.2) := by
  induction m using entries_induction with
  | empty => rfl
  | entry n v rest ih =>
    rw [values, toList, List.filter_cons]
    by_cases h : n = number
    · simp [h, ih]
    · simp [h, ih]

/-- Entries in number order are those for the first field, those for the second and so on. -/
theorem eq_flatMap_filter {fields : List Field} {list : List (Nat × Value)}
    (hf : fields.Pairwise (·.number < ·.number))
    (hl : list.Pairwise fun a b => a.1 ≤ b.1) (hn : ∀ e ∈ list, ∃ f ∈ fields, f.number = e.1) :
    list = fields.flatMap fun f => list.filter fun e => e.1 == f.number := by
  induction list with
  | nil => simp
  | cons e rest ih =>
    rw [List.forall_mem_cons] at hn
    rw [List.pairwise_cons] at hl
    have ih := ih hl.2 hn.2
    obtain ⟨f, hmem, hnumber⟩ := hn.1
    obtain ⟨before, after, rfl⟩ := List.append_of_mem hmem
    rw [List.pairwise_append, List.pairwise_cons] at hf
    obtain ⟨-, ⟨hafter, -⟩, hbefore⟩ := hf
    -- No entry is for a field before, and the first one is for no field after.
    have hnone : ∀ list : List (Nat × Value), (∀ a ∈ list, e.1 ≤ a.1) →
        (before.flatMap fun g => list.filter fun a => a.1 == g.number) = [] := by
      intro list hle
      refine List.flatMap_eq_nil_iff.mpr fun g hg => List.filter_eq_nil_iff.mpr fun a ha => ?_
      have hlt := hbefore g hg f List.mem_cons_self
      have hle := hle a ha
      rw [beq_iff_eq]
      omega
    have hsame : (after.flatMap fun g => (e :: rest).filter fun a => a.1 == g.number) =
        after.flatMap fun g => rest.filter fun a => a.1 == g.number := by
      refine List.flatMap_congr fun g hg => List.filter_cons_of_neg ?_
      have hlt := hafter g hg
      rw [beq_iff_eq]
      omega
    rw [List.flatMap_append, List.flatMap_cons, hnone rest hl.1, List.nil_append] at ih
    rw [List.flatMap_append, List.flatMap_cons, hsame,
      hnone (e :: rest) (List.forall_mem_cons.mpr ⟨Nat.le_refl _, hl.1⟩), List.nil_append,
      List.filter_cons_of_pos (by rw [beq_iff_eq, hnumber]), List.cons_append, ← ih]

/-- An instance is the values of its type's fields, one after the other. -/
theorem Instance.toList_eq (ht : t.Regular) (hm : m.Instance s t) :
    m.toList = t.fields.flatMap fun f => (m.values f.number).map (f.number, ·) := by
  obtain ⟨hall, hsorted⟩ := (instance_iff ht).mp hm
  have hnumbers : ∀ e ∈ m.toList, ∃ f ∈ t.fields, f.number = e.1 := by
    intro e he
    obtain ⟨f, hf, hn, -⟩ := hall e he
    exact ⟨f, hf, hn⟩
  refine (eq_flatMap_filter ht.sorted (hsorted.imp fun h => h.1) hnumbers).trans
    (List.flatMap_congr fun f _ => ?_)
  rw [values_eq_filter, List.map_map]
  refine (List.map_id _).symm.trans (List.map_congr_left fun e he => ?_)
  have he : e.1 = f.number := by simpa using (List.mem_filter.mp he).2
  rw [Function.comp_apply, ← he]
  rfl

/-- A field that is not repeated has one value at most. -/
theorem Instance.values_length_le (ht : t.Regular) (hm : m.Instance s t) (hf : f ∈ t.fields)
    (hc : f.cardinality ≠ .repeated) : (m.values f.number).length ≤ 1 := by
  have hsorted := ((instance_iff ht).mp hm).2
  have hvalues := values_eq_filter f.number m
  have hpairs := hsorted.sublist (List.filter_sublist (p := fun e => e.1 == f.number))
  have hnumber : ∀ e ∈ m.toList.filter fun e => e.1 == f.number, e.1 = f.number :=
    fun e he => by simpa using (List.mem_filter.mp he).2
  rw [hvalues, List.length_map]
  generalize m.toList.filter (fun e => e.1 == f.number) = list at hpairs hnumber
  rcases list with _ | ⟨a, _ | ⟨b, rest⟩⟩
  · exact Nat.zero_le 1
  · exact Nat.le_refl 1
  · have ha := hnumber a List.mem_cons_self
    have hb := hnumber b (List.mem_cons_of_mem _ List.mem_cons_self)
    have horders := List.rel_of_pairwise_cons hpairs List.mem_cons_self
    have hfield : t.field? b.1 = some f := (Script.field?_eq_some ht).mpr ⟨hf, hb.symm⟩
    exact absurd ((horders.2 f hfield).1 (ha.trans hb.symm)) hc

-- ---------------------------------------------------------------------------
-- Leveled messages
-- ---------------------------------------------------------------------------

theorem toList_leveled (m : Message) :
    m.leveled.toList = m.toList.map fun e => (e.1, e.2.leveled) := by
  induction m using entries_induction with
  | empty => rfl
  | entry number value rest ih => rw [leveled, toList, toList, ih, List.map_cons]

theorem values_leveled (number : Nat) (m : Message) :
    m.leveled.values number = (m.values number).map Value.leveled := by
  rw [values_eq_filter, values_eq_filter, toList_leveled, List.filter_map, List.map_map,
    List.map_map]
  rfl

theorem Instance.toList_leveled (ht : t.Regular) (hm : m.Instance s t) :
    m.leveled.toList = t.fields.flatMap fun f =>
      (m.leveled.values f.number).map (f.number, ·) := by
  rw [Message.toList_leveled, hm.toList_eq ht, List.map_flatMap]
  refine List.flatMap_congr fun f _ => ?_
  rw [values_leveled, List.map_map, List.map_map]
  rfl

theorem toList_inj (h : m.toList = n.toList) : m = n := by
  rw [← ofList_toList m, h, ofList_toList]

theorem agrees_of_leveled (hs : s.Regular) (m : Message) : ∀ n t, t ∈ s.messages →
    m.Instance s t → n.Instance s t → m.leveled = n.leveled → m.Agrees s t n := by
  induction m using nested_induction with
  | step m ih =>
    intro n t ht hm hn h
    have hr := hs.messages t ht
    have hvalues (number : Nat) :
        (m.values number).map Value.leveled = (n.values number).map Value.leveled := by
      rw [← values_leveled, h, values_leveled]
    refine .mk (fun f _ => by simpa using congrArg List.length (hvalues f.number))
      fun f hf i v w hv hw => ?_
    have heq : v.leveled = w.leveled := by
      have hi := congrArg (·[i]?) (hvalues f.number)
      simpa [hv, hw] using hi
    have hvmem := List.mem_of_getElem? hv
    have hvs := hm.suits hr hf hvmem
    have hws := hn.suits hr hf (List.mem_of_getElem? hw)
    rcases Value.leveled_cases heq with rfl | ⟨x, y, rfl, rfl, hx, hy⟩ | ⟨sub, sub', rfl, rfl, hsub⟩
    · exact .same
    · exact .nan hx hy
    · obtain ⟨name, type, hk, htype, -⟩ := hvs.fits
      rw [hk]
      exact .message htype (ih _ (mem_toList_of_values hvmem) sub rfl sub' type
        (Script.message?_mem htype) (hvs.nested hk htype) (hws.nested hk htype) hsub)

/-- Instances with as many values in each field, equal one by one once leveled, are equal once
leveled. -/
theorem Instance.leveled_ext (ht : t.Regular) (hm : m.Instance s t) (hn : n.Instance s t)
    (hl : ∀ f ∈ t.fields, (m.values f.number).length = (n.values f.number).length)
    (hv : ∀ f ∈ t.fields, ∀ (i : Nat) v w, (m.values f.number)[i]? = some v →
      (n.values f.number)[i]? = some w → v.leveled = w.leveled) : m.leveled = n.leveled := by
  refine toList_inj ?_
  rw [hm.toList_leveled ht, hn.toList_leveled ht]
  refine List.flatMap_congr fun f hf => congrArg (List.map _) ?_
  rw [values_leveled, values_leveled]
  refine List.ext_getElem? fun i => ?_
  have hlength := hl f hf
  rw [List.getElem?_map, List.getElem?_map]
  cases hvi : (m.values f.number)[i]? with
  | none =>
    have hi : (n.values f.number)[i]? = none :=
      List.getElem?_eq_none (hlength ▸ List.getElem?_eq_none_iff.mp hvi)
    rw [hi]
  | some v =>
    obtain ⟨hi, -⟩ := List.getElem?_eq_some_iff.mp hvi
    have hw := List.getElem?_eq_getElem (hlength ▸ hi)
    rw [hw, Option.map_some, Option.map_some, hv f hf i v _ hvi hw]

theorem leveled_eq_of_agrees (hs : s.Regular) (m : Message) : ∀ n t, t ∈ s.messages →
    m.Instance s t → n.Instance s t → m.Agrees s t n → m.leveled = n.leveled := by
  induction m using nested_induction with
  | step m ih =>
    intro n t ht hm hn h
    have hr := hs.messages t ht
    obtain ⟨hl, hv⟩ := h
    refine hm.leveled_ext hr hn hl fun f hf i v w hvi hwi => ?_
    have hvmem := List.mem_of_getElem? hvi
    have hvs := hm.suits hr hf hvmem
    have hws := hn.suits hr hf (List.mem_of_getElem? hwi)
    have hagrees := hv f hf i v w hvi hwi
    generalize hk : f.kind = kind at hagrees
    cases hagrees with
    | same => rfl
    | nan hx hy =>
      rw [Value.leveled, Value.leveled, Binary64.leveled_of_nan hx, Binary64.leveled_of_nan hy]
    | message htype hsub =>
      rw [Value.leveled, Value.leveled, ih _ (mem_toList_of_values hvmem) _ rfl _ _
        (Script.message?_mem htype) (hvs.nested hk htype) (hws.nested hk htype) hsub]

/-- Values of a type agree on every field exactly if they are equal up to the bits of NaNs. -/
theorem agrees_iff_leveled (hs : s.Regular) (ht : t ∈ s.messages) (hm : m.Instance s t)
    (hn : n.Instance s t) : m.Agrees s t n ↔ m.leveled = n.leveled :=
  ⟨leveled_eq_of_agrees hs m n t ht hm hn, agrees_of_leveled hs m n t ht hm hn⟩

-- ---------------------------------------------------------------------------
-- Views
-- ---------------------------------------------------------------------------

theorem doubleJson_leveled (x : Binary64) : doubleJson x.leveled = doubleJson x := by
  by_cases h : x.value = .nan
  · simp only [doubleJson, Json.floatText, Binary64.leveled_value, h]
  · rw [Binary64.leveled_of_number h]

theorem toJson_leveled (s : Schema) (t : MessageType) (m : Message) :
    m.leveled.toJson s t = m.toJson s t := by
  have hfields : ∀ t, fieldsJson s t m.leveled = fieldsJson s t m := by
    induction m using Message.rec
      (motive_1 := fun v => ∀ f, fieldJson s f v.leveled = fieldJson s f v) with
    | empty => exact fun _ => rfl
    | entry number value rest hvalue ih =>
      intro t
      rw [leveled, fieldsJson, fieldsJson]
      simp only [hvalue, ih]
    | message m ih =>
      rename_i f
      rw [Value.leveled, fieldJson, fieldJson]
      simp only [ih]
    | double x =>
      rename_i f
      exact doubleJson_leveled x
    | _ => rfl
  rw [toJson, hfields, toJson]

theorem countsAsUnset_leveled (f : Field) (v : Value) :
    countsAsUnset f v.leveled = countsAsUnset f v := by
  have hdefault : v.leveled.isDefault = v.isDefault := by
    cases v with
    | double x =>
      by_cases h : x.value = .nan
      · have hx : x.bits ≠ 0 := by
          intro h0
          obtain ⟨bits⟩ := x
          cases h0
          cases h
        rw [Value.leveled, Binary64.leveled_of_nan h, Value.isDefault, Value.isDefault,
          beq_eq_false_iff_ne.mpr hx]
        rfl
      · rw [Value.leveled, Binary64.leveled_of_number h]
    | _ => rfl
  rw [countsAsUnset, hdefault, countsAsUnset]

theorem listing_leveled (s : Schema) (t : MessageType) (m : Message) :
    m.leveled.listing s t = m.listing s t := by
  have hchars : ∀ t level, messageChars s t level m.leveled = messageChars s t level m := by
    induction m using Message.rec (motive_1 := fun v =>
      ∀ f level, valueChars s f level v.leveled = valueChars s f level v) with
    | empty => exact fun _ _ => rfl
    | entry number value rest hvalue ih =>
      intro t level
      rw [leveled, messageChars, messageChars]
      simp only [countsAsUnset_leveled, hvalue, ih]
    | message m ih =>
      rename_i f level
      rw [Value.leveled, valueChars, valueChars]
      simp only [ih]
    | double x =>
      rename_i f level
      simp only [Value.leveled, valueChars, leafText, DecimalLayout.shortest,
        Binary64.leveled_value]
    | _ => rfl
  rw [listing, hchars, listing]

/-- Values that agree have the same dictionary. -/
theorem Agrees.toJson_eq (hs : s.Regular) (ht : t ∈ s.messages) (hm : m.Instance s t)
    (hn : n.Instance s t) (h : m.Agrees s t n) : m.toJson s t = n.toJson s t := by
  rw [← toJson_leveled, (agrees_iff_leveled hs ht hm hn).mp h, toJson_leveled]

/-- Values that agree have the same listing. -/
theorem Agrees.listing_eq (hs : s.Regular) (ht : t ∈ s.messages) (hm : m.Instance s t)
    (hn : n.Instance s t) (h : m.Agrees s t n) : m.listing s t = n.listing s t := by
  rw [← listing_leveled, (agrees_iff_leveled hs ht hm hn).mp h, listing_leveled]

end Message

end Treewire
