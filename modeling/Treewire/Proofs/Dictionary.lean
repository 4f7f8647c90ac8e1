import Treewire.Message.Dictionary
import Treewire.Proofs.Writing

/-!
# Forms as dictionaries

`Form.dictionary` is a form as a reader of its message shall see it. `Writes.toJson`: whatever an
encoder chose to write for a form, once the message is settled its JSON value is the dictionary of
the form.
-/

namespace Treewire.Script

-- ---------------------------------------------------------------------------
-- Forms as JSON values
-- ---------------------------------------------------------------------------

namespace Form

/-- Whether a form is what a field without presence stands for when it is unset. -/
def isDefault (s : Schema) : FieldKind → Form → Bool
  | .scalar .bool, .bool b => !b
  | .scalar .string, .text t => t.isEmpty
  | .scalar .double, .number x => x.bits == 0
  | .scalar .int64, .number x => x.toInt? == some 0
  | .enum name, .text t =>
    ((s.enum? name).bind (·.nameOf? 0)).map Text.ofString == some t
  | _, _ => false

/-- Whether a dictionary does without a member. -/
def isUnset (s : Schema) (f : Field) (x : Form) : Bool :=
  match f.cardinality, x with
  | .implicit, x => x.isDefault s f.kind
  | .repeated, .list [] => true
  | _, _ => false

mutual
/-- A form as a JSON value: members are renamed to their fields, those that say nothing are left
out, integers are written as decimal texts. -/
def dictionary (s : Schema) : FieldKind → Form → Json
  | _, .bool b => .bool b
  | .scalar .int64, .number x => .ofString (toString (x.toInt?.getD 0))
  | _, .number x => Message.doubleJson x
  | _, .text t => .text t
  | kind, .list items => .array (dictionaries s kind items)
  | .message name, .record members =>
    .object (((s.message? name).map (·.fields)).getD [] |>.filterMap fun f =>
      memberDictionary s f members)
  | _, .record _ => .object []
/-- The items of a list. -/
def dictionaries (s : Schema) (kind : FieldKind) : List Form → List Json
  | [] => []
  | x :: rest => dictionary s kind x :: dictionaries s kind rest
/-- The member for a field, under the field's name. -/
def memberDictionary (s : Schema) (f : Field) : Members → Option (String × Json)
  | [] => none
  | (key, x) :: rest =>
    if f.key == key then
      if x.isUnset s f then none else some (f.name, dictionary s f.kind x)
    else memberDictionary s f rest
end

theorem memberDictionary_eq (s : Schema) (f : Field) (members : Members) :
    memberDictionary s f members = (members.lookup f.key).bind fun x =>
      if x.isUnset s f then none else some (f.name, dictionary s f.kind x) := by
  induction members with
  | nil => rfl
  | cons m rest ih =>
    obtain ⟨key, x⟩ := m
    rw [memberDictionary, List.lookup_cons, ih]
    cases f.key == key <;> rfl

end Form

variable {s : Schema} {t : MessageType} {f : Field} {v : Value}

-- ---------------------------------------------------------------------------
-- Defaults
-- ---------------------------------------------------------------------------

theorem ofChars_of_toChars? {text : Text} (h : Text.toChars? text = some cs) :
    Text.ofChars cs = text := by
  induction text generalizing cs with
  | nil =>
    cases h
    rfl
  | cons symbol rest ih =>
    simp only [Text.toChars?, List.mapM_cons, Option.bind_eq_bind, Option.bind_eq_some_iff] at h
    obtain ⟨c, hc, cs, hcs, h⟩ := h
    cases h
    cases symbol with
    | surrogate => cases hc
    | scalar =>
      cases hc
      rw [← ih hcs]
      rfl

theorem ofString_of_toString? {text : Text} (h : text.toString? = some str) :
    Text.ofString str = text := by
  obtain ⟨cs, hcs, rfl⟩ := Option.map_eq_some_iff.mp h
  rw [Text.ofString, String.toList_ofList, ofChars_of_toChars? hcs]

/-- Names of an enumeration have one number each. -/
theorem number_unique {e : EnumType} (he : e.Regular) (hv : (value, n) ∈ e.values)
    (hw : (value, k) ∈ e.values) : n = k := by
  have hd := he.distinct
  generalize e.values = values at hv hw hd
  induction values with
  | nil => cases hv
  | cons v rest ih =>
    rw [List.map_cons, List.nodup_cons] at hd
    rcases List.mem_cons.mp hv with rfl | hv'
    · rcases List.mem_cons.mp hw with hw | hw'
      · cases hw
        rfl
      · exact (hd.1 (List.mem_map.mpr ⟨(value, k), hw', rfl⟩)).elim
    · rcases List.mem_cons.mp hw with rfl | hw'
      · exact (hd.1 (List.mem_map.mpr ⟨(value, n), hv', rfl⟩)).elim
      · exact ih hv' hw' hd.2

theorem mem_of_nameOf? {e : EnumType} (h : e.nameOf? n = some value) : (value, n) ∈ e.values := by
  obtain ⟨⟨name, number⟩, hf, rfl⟩ := Option.map_eq_some_iff.mp h
  obtain rfl : number = n := by simpa using List.find?_some hf
  exact List.mem_of_find?_eq_some hf

/-- A value is a default exactly if the form it was written for is one. -/
theorem Writes.isDefault (hs : s.Regular) (h : Form.Writes s (.one kind) x [v]) :
    v.isDefault = x.isDefault s kind := by
  cases h with
  | bool => rfl
  | number => rfl
  | record => rfl
  | @text str text h =>
    rw [Form.isDefault, Value.isDefault, ← ofString_of_toString? h]
    cases hstr : str.toList with
    | nil =>
      obtain rfl : str = "" := String.toList_inj.mp (by simpa using hstr)
      rfl
    | cons c cs =>
      have hne : str ≠ "" := by
        rintro rfl
        simp at hstr
      simp [Text.ofString, Text.ofChars, hstr, String.isEmpty_eq_false_iff.mpr hne]
  | index hx hi => simp [Value.isDefault, Form.isDefault, hx]
  | @choice name e value n he hv =>
    have hr := hs.enums e (enum?_mem he)
    simp only [Value.isDefault, Form.choice, Form.isDefault, he, Option.bind_some]
    by_cases hn : n = 0
    · subst hn
      simp [hr.named _ hv]
    · rw [beq_false_of_ne hn, eq_comm, beq_eq_false_iff_ne]
      intro h0
      obtain ⟨value0, h0, hv0⟩ := Option.map_eq_some_iff.mp h0
      rw [Text.ofString_injective hv0] at h0
      exact hn (number_unique hr hv (mem_of_nameOf? h0))

-- ---------------------------------------------------------------------------
-- Gathering
-- ---------------------------------------------------------------------------

/-- The member for a field that has these values. -/
def grouped (f : Field) (values : List Json) : Option (String × Json) :=
  match f.cardinality with
  | .repeated => if values.isEmpty then none else some (f.name, .array values)
  | _ => values.head?.map (f.name, ·)

theorem grouped_repeated (hc : f.cardinality = .repeated) (values : List Json) :
    grouped f values = if values.isEmpty then none else some (f.name, .array values) := by
  simp only [grouped, hc]

theorem grouped_singular (hc : f.cardinality ≠ .repeated) (values : List Json) :
    grouped f values = values.head?.map (f.name, ·) := by
  unfold grouped
  split
  · rename_i h
    exact absurd h hc
  · rfl

/-- The elements of a repeated field become one array, if what follows bears another name. -/
theorem gather_repeated {isMap : Field → Bool} (hm : isMap f = false)
    (hc : f.cardinality = .repeated) (values : List Json)
    (hne : ∀ m ∈ Message.gather isMap tail, m.1 ≠ f.name) (hv : values ≠ []) :
    Message.gather isMap (values.map (f, ·) ++ tail) =
      (f.name, .array values) :: Message.gather isMap tail := by
  induction values with
  | nil => exact absurd rfl hv
  | cons v rest ih =>
    rw [List.map_cons, List.cons_append, Message.gather]
    simp only [hm, hc, Bool.false_eq_true, ↓reduceIte]
    cases rest with
    | nil =>
      rw [List.map_nil, List.nil_append]
      split
      · rename_i name items others hg
        have hname : name ≠ f.name := hne (name, .array items) (by simp [hg])
        rw [if_neg hname]
      · rfl
    | cons w more =>
      rw [ih (by simp)]
      simp

theorem gather_flatMap {isMap : Field → Bool} {fields : List Field} (js : Field → List Json)
    (hm : ∀ f ∈ fields, isMap f = false ∧ f.extensionName = none)
    (hd : (fields.map (·.name)).Nodup)
    (hone : ∀ f ∈ fields, f.cardinality = .repeated ∨ (js f).length ≤ 1) :
    Message.gather isMap (fields.flatMap fun f => (js f).map (f, ·)) =
      fields.filterMap fun f => grouped f (js f) := by
  induction fields with
  | nil => rfl
  | cons f rest ih =>
    rw [List.forall_mem_cons] at hm hone
    rw [List.map_cons, List.nodup_cons] at hd
    have ih := ih hm.2 hd.2 hone.2
    rw [List.flatMap_cons, List.filterMap_cons]
    by_cases hc : f.cardinality = .repeated
    · by_cases hv : js f = []
      · simp [hv, ih, grouped, hc]
      · have hne : ∀ m ∈ Message.gather isMap (rest.flatMap fun f => (js f).map (f, ·)),
            m.1 ≠ f.name := by
          rw [ih]
          intro m hm' heq
          obtain ⟨g, hg, hgm⟩ := List.mem_filterMap.mp hm'
          have hname : m.1 = g.name := by
            unfold grouped at hgm
            split at hgm
            · split at hgm
              · cases hgm
              · cases hgm
                rfl
            · obtain ⟨j, -, rfl⟩ := Option.map_eq_some_iff.mp hgm
              rfl
          exact hd.1 (List.mem_map.mpr ⟨g, hg, hname.symm.trans heq⟩)
        rw [gather_repeated hm.1.1 hc (js f) hne hv, ih]
        simp [grouped, hc, hv]
    · have hlen := hone.1.resolve_left hc
      have hg := grouped_singular hc
      rcases hjs : js f with _ | ⟨j, _ | ⟨k, more⟩⟩
      · simp [hg, ih]
      · simp [Message.gather, hm.1.1, hc, Message.memberName, hm.1.2, hg, ih]
      · simp [hjs] at hlen

-- ---------------------------------------------------------------------------
-- Written messages
-- ---------------------------------------------------------------------------

theorem isMap_eq_false (hs : s.Regular) (f : Field) : Message.isMap s f = false := by
  cases ht : Message.typeOf? s f with
  | none => simp [Message.isMap, ht]
  | some t =>
    have hm : t ∈ s.messages := by
      unfold Message.typeOf? at ht
      split at ht
      · exact message?_mem ht
      · exact message?_mem ht
      · cases ht
    simp [Message.isMap, ht, (hs.messages t hm).single]

theorem names_nodup (ht : t.Regular) : (t.fields.map (·.name)).Nodup := by
  refine List.pairwise_map.mpr ((List.pairwise_map.mp ht.keyed.1).imp fun hne heq => ?_)
  rw [heq] at hne
  exact hne rfl

theorem fieldsJson_settled (ht : t.Regular) {list : List (Field × Value)}
    (hf : ∀ e ∈ list, e.1 ∈ t.fields) :
    Message.fieldsJson s t
        ((Message.ofList (list.map fun e => (e.1.number, e.2))).settled s t) =
      (list.filter fun e => !Message.countsAsUnset e.1 e.2).map fun e =>
        (e.1, Message.fieldJson s e.1 (e.2.settled s e.1.kind)) := by
  induction list with
  | nil => rfl
  | cons e rest ih =>
    obtain ⟨f, v⟩ := e
    rw [List.forall_mem_cons] at hf
    have hn : t.field? f.number = some f := (field?_eq_some ht).mpr ⟨hf.1, rfl⟩
    have ih := ih hf.2
    cases hu : Message.countsAsUnset f v with
    | true => simpa [Message.ofList, Message.settled, hn, hu] using ih
    | false => simpa [Message.ofList, Message.settled, Message.fieldsJson, hn, hu] using ih

/-- The values that a reader sees of a field. -/
def seen (s : Schema) (f : Field) (kept : List Value) : List Json :=
  (kept.filter fun v => !Message.countsAsUnset f v).map fun v =>
    Message.fieldJson s f (v.settled s f.kind)

theorem fieldsJson_written (ht : t.Regular) (kept : Field → List Value) :
    Message.fieldsJson s t ((Message.ofList
        (t.fields.flatMap fun f => (kept f).map (f.number, ·))).settled s t) =
      t.fields.flatMap fun f => (seen s f (kept f)).map (f, ·) := by
  have hlist : (t.fields.flatMap fun f => (kept f).map (f.number, ·)) =
      (t.fields.flatMap fun f => (kept f).map (f, ·)).map fun e => (e.1.number, e.2) := by
    simp [List.map_flatMap, Function.comp_def]
  have hmem : ∀ e ∈ t.fields.flatMap fun f => (kept f).map (f, ·), e.1 ∈ t.fields := by
    intro e he
    obtain ⟨f, hf, he⟩ := List.mem_flatMap.mp he
    obtain ⟨v, -, rfl⟩ := List.mem_map.mp he
    exact hf
  rw [hlist, fieldsJson_settled ht hmem, List.filter_flatMap, List.map_flatMap]
  simp [seen, List.filter_map, Function.comp_def]

-- ---------------------------------------------------------------------------
-- Readers
-- ---------------------------------------------------------------------------

/-- What is seen of a form in a slot. -/
def Form.jsons (s : Schema) : Slot → Form → List Json
  | .many kind, .list items => dictionaries s kind items
  | slot, x => [x.dictionary s slot.kind]

theorem grouped_seen (hs : s.Regular) (hm : ∀ x, found = some x → Form.Writes s f.slot x values)
    (hj : ∀ x, found = some x → values.map (fun v => Message.fieldJson s f (v.settled s f.kind)) =
      x.jsons s f.slot)
    (hw : f.Keeps s found.isSome values kept) :
    grouped f (seen s f kept) = found.bind fun x =>
      if x.isUnset s f then none else some (f.name, x.dictionary s f.kind) := by
  rw [seen, Keeps.filter hw]
  cases found with
  | none => cases h : f.cardinality <;> simp [grouped, h]
  | some x =>
    have hm := hm x rfl
    have hj := hj x rfl
    rcases kind_slot f with ⟨hslot, hc⟩ | ⟨hslot, hc⟩
    · rw [hslot] at hm hj
      have hkeep : values.filter (fun v => !Message.countsAsUnset f v) = values := by
        simp [Message.countsAsUnset, hc]
      simp only [Option.isSome_some, ↓reduceIte, hkeep, hj, Option.bind_some]
      cases hm with
      | nil => simp [Form.jsons, Form.dictionaries, grouped, hc, Form.isUnset]
      | cons =>
        simp [Form.jsons, Form.dictionaries, Form.dictionary, grouped, hc, Form.isUnset]
    · rw [hslot] at hm hj
      obtain ⟨v, rfl⟩ := Writes.singleton hm
      have hu : Message.countsAsUnset f v = x.isUnset s f := by
        rw [Message.countsAsUnset, Writes.isDefault hs hm]
        cases h : f.cardinality <;> simp_all [Form.isUnset]
      have hg := grouped_singular hc
      have hx : x.jsons s (.one f.kind) = [x.dictionary s f.kind] := by
        simp [Form.jsons, Slot.kind]
      rw [hx] at hj
      simp only [Option.isSome_some, ↓reduceIte, Option.bind_some, hg, List.filter_cons, hu]
      cases x.isUnset s f
      · simpa using hj
      · rfl

/-- At most one entry is seen of a field that is not repeated. -/
theorem length_seen_le (hm : ∀ x, found = some x → Form.Writes s f.slot x values)
    (hw : f.Keeps s found.isSome values kept) :
    f.cardinality = .repeated ∨ (seen s f kept).length ≤ 1 := by
  rcases kind_slot f with ⟨-, hc⟩ | ⟨hslot, -⟩
  · exact .inl hc
  · have hkept := Keeps.atMostOne hw fun hmem => by
      obtain ⟨x, hx⟩ := Option.isSome_iff_exists.mp hmem
      have hx := hm x hx
      rw [hslot] at hx
      exact Writes.singleton hx
    rw [seen, List.length_map]
    refine .inr (Nat.le_trans (List.length_filter_le _ _) ?_)
    rcases hkept with he | ⟨v, he⟩ <;> simp [he]

/-- What an encoder wrote for a form reads as the dictionary of the form. -/
theorem Writes.jsons (hs : s.Regular) (h : Form.Writes s slot x vs) (hf : f.kind = slot.kind) :
    vs.map (fun v => Message.fieldJson s f (v.settled s f.kind)) = x.jsons s slot := by
  induction h generalizing f with
  | bool => simp [Value.settled, Message.fieldJson, Message.leafJson, Form.jsons, Form.dictionary]
  | text h =>
    simp [Value.settled, Message.fieldJson, Message.leafJson, Form.jsons, Form.dictionary,
      Json.ofString, ofString_of_toString? h]
  | number =>
    simp [Value.settled, Message.fieldJson, Message.leafJson, Form.jsons, Form.dictionary,
      Slot.kind]
  | index hx =>
    simp [Value.settled, Message.fieldJson, Message.leafJson, hf, Form.jsons, Form.dictionary,
      Slot.kind, Message.isWide, hx]
  | choice he hv =>
    simp [Value.settled, Message.fieldJson, Message.leafJson, hf, Form.jsons, Form.dictionary,
      Slot.kind, he, (hs.enums _ (enum?_mem he)).named _ hv, Json.ofString, Form.choice]
  | nil => rfl
  | cons hx hr ihx ihr =>
    have h1 := ihx hf
    have h2 := ihr hf
    simp only [Form.jsons, Form.dictionaries, List.map_cons, List.map_nil, List.cons.injEq,
      and_true] at h1 h2 ⊢
    exact ⟨h1, h2⟩
  | @record name t members values kept ht hk hm hw ih =>
    have hr := hs.messages t (message?_mem ht)
    have hgather := gather_flatMap (fun g => seen s g (kept g))
      (fun g hg => ⟨isMap_eq_false hs g, (hr.valid g hg).2⟩) (names_nodup hr)
      fun g hg => length_seen_le (hm g hg) (hw g hg)
    have htype : Message.typeOf? s f = some t := by simp [Message.typeOf?, hf, Slot.kind, ht]
    have hmembers : t.fields.filterMap (fun g => grouped g (seen s g (kept g))) =
        t.fields.filterMap (fun g => Form.memberDictionary s g members) := by
      have hmap : t.fields.map (fun g => grouped g (seen s g (kept g))) =
          t.fields.map (fun g => Form.memberDictionary s g members) := by
        refine List.map_congr_left fun g hg => ?_
        rw [Form.memberDictionary_eq]
        exact grouped_seen hs (hm g hg) (fun x hl => ih g hg x hl (by simp)) (hw g hg)
      simpa [List.filterMap_map, Function.comp_def] using congrArg (List.filterMap id) hmap
    simp [Value.settled, hf, Slot.kind, ht, Message.fieldJson, htype, fieldsJson_written hr,
      hgather, hmembers, Form.jsons, Form.dictionary]

end Treewire.Script
