import Treewire.Proofs.Agreement
import Treewire.Proofs.Keys
import Treewire.Proofs.Printing

/-!
# Equal dictionaries

`Json.Same` is how data compare: the order of members does not count, and a number equals every
number of the same quantity, be it an integer, a floating-point number or a truth value. So the two
zeros are the same, and NaN is not the same as itself. `same_iff_agrees` says that this does not
blur dictionaries: they are the same exactly if their messages agree on every field, provided that
floating-point fields have no presence. A positive zero is then left out, and a negative one is not.
-/

namespace Treewire

namespace Json

-- ---------------------------------------------------------------------------
-- Comparing data
-- ---------------------------------------------------------------------------

/-- What numbers are compared by. -/
inductive Quantity where
  | finite (q : ℚ)
  | infinite (negative : Bool)

/-- The quantity of a finite floating-point number. -/
def signed (negative : Bool) (m : Nat) (e : Int) : ℚ :=
  (if negative then -1 else 1) * (m * 2 ^ e)

/-- The quantity that a number or a truth value stands for. A NaN stands for none. -/
def quantity? : Json → Option Quantity
  | .bool b => some (.finite (if b then 1 else 0))
  | .int i => some (.finite i)
  | .float x =>
    match x.value with
    | .finite negative m e => some (.finite (signed negative m e))
    | .infinite negative => some (.infinite negative)
    | .nan => none
  | _ => none

inductive Same : Json → Json → Prop
  | null : Same .null .null
  | number (h : v.quantity? = some q) (h' : w.quantity? = some q) : Same v w
  | text : Same (.text t) (.text t)
  | array (hl : items.length = others.length)
      (h : ∀ (i : Nat) v w, items[i]? = some v → others[i]? = some w → Same v w) :
      Same (.array items) (.array others)
  | object (hk : ∀ key, (members.lookup key).isSome = (others.lookup key).isSome)
      (h : ∀ key v w, members.lookup key = some v → others.lookup key = some w → Same v w) :
      Same (.object members) (.object others)

variable {v w : Json}

/-- What a document can hold is the same as itself. -/
theorem Same.of_legible (h : Legible v) : Same v v := by
  induction h with
  | null => exact .null
  | bool b => exact .number rfl rfl
  | int i => exact .number rfl rfl
  | @float x negative m e hx =>
    have hq : (Json.float x).quantity? = some (.finite (signed negative m e)) := by
      rw [quantity?, hx]
    exact .number hq hq
  | text cs => exact .text
  | array _ ih =>
    refine .array rfl fun i v w hv hw => ?_
    cases hv.symm.trans hw
    exact ih v (List.mem_of_getElem? hv)
  | object _ ih =>
    refine .object (fun _ => rfl) fun key v w hv hw => ?_
    cases hv.symm.trans hw
    obtain ⟨before, after, rfl, -⟩ := List.lookup_eq_some_iff.mp hv
    exact ih (key, v) (by simp)

theorem Same.text_inv {t u : Text} (h : Same (.text t) (.text u)) : t = u := by
  cases h with
  | number h _ => cases h
  | text => rfl

theorem Same.string_inv {one other : String} (h : Same (.ofString one) (.ofString other)) :
    one = other :=
  Text.ofString_injective h.text_inv

theorem Same.not_text {t : Text} {q : Quantity} (hq : v.quantity? = some q)
    (h : Same v (.text t) ∨ Same (.text t) v) : False := by
  rcases h with h | h
  · cases h with
    | number _ h => cases h
    | text => cases hq
  · cases h with
    | number h _ => cases h
    | text => cases hq

theorem Same.array_inv {items others : List Json} (h : Same (.array items) (.array others)) :
    items.length = others.length ∧
      ∀ (i : Nat) v w, items[i]? = some v → others[i]? = some w → Same v w := by
  cases h with
  | number h _ => cases h
  | array hl h => exact ⟨hl, h⟩

theorem Same.object_inv {members others : List (String × Json)}
    (h : Same (.object members) (.object others)) :
    (∀ key, (members.lookup key).isSome = (others.lookup key).isSome) ∧
      ∀ key v w, members.lookup key = some v → others.lookup key = some w → Same v w := by
  cases h with
  | number h _ => cases h
  | object hk h => exact ⟨hk, h⟩

theorem Same.quantity_eq {q r : Quantity} (hq : v.quantity? = some q) (hr : w.quantity? = some r)
    (h : Same v w) : q = r := by
  cases h with
  | number h h' => exact Option.some.inj (hq.symm.trans (h.trans (h'.symm.trans hr)))
  | null => cases hq
  | text => cases hq
  | array => cases hq
  | object => cases hq

end Json

-- ---------------------------------------------------------------------------
-- Numbers
-- ---------------------------------------------------------------------------

namespace Binary64

variable {x y : Binary64} {m n : Nat} {d e : Int}

theorem bits_of_infinite (hx : x.value = .infinite negative) :
    x.bits.toNat / 2 ^ 63 % 2 = negative.toNat ∧ x.bits.toNat % 2 ^ 63 = 2047 * 2 ^ 52 := by
  have hlt := x.bits.toNat_lt
  unfold value BinaryFormat.unpack at hx
  dsimp only at hx
  have htop : BinaryFormat.double.topField = 2047 := rfl
  have hsign : BinaryFormat.double.signBit = 2 ^ 63 := rfl
  have hfraction : Nat.pow 2 BinaryFormat.double.fractionBits = 2 ^ 52 := rfl
  have hexponent : Nat.pow 2 BinaryFormat.double.exponentBits = 2 ^ 11 := rfl
  rw [htop, hsign, hfraction, hexponent] at hx
  split at hx
  · rename_i hfield
    split at hx
    · rename_i hzero
      obtain rfl := BinaryValue.infinite.inj hx
      refine ⟨?_, by omega⟩
      rcases Nat.mod_two_eq_zero_or_one (x.bits.toNat / 2 ^ 63) with h | h
      · rw [h]
        rfl
      · rw [h]
        rfl
    · cases hx
  · split at hx
    · cases hx
    · cases hx

theorem eq_of_infinite (hx : x.value = .infinite negative) (hy : y.value = .infinite negative) :
    x = y := by
  obtain ⟨hsign, hrest⟩ := bits_of_infinite hx
  obtain ⟨hsign', hrest'⟩ := bits_of_infinite hy
  have hlt := x.bits.toNat_lt
  have hlt' := y.bits.toNat_lt
  have heq : x.bits = y.bits := UInt64.toNat_inj.mp (by omega)
  exact congrArg Binary64.mk heq

/-- A finite number is given by its sign and its magnitude. -/
theorem eq_of_magnitude (hx : x.value = .finite negative m d) (hy : y.value = .finite negative n e)
    (h : (m : ℚ) * 2 ^ d = n * 2 ^ e) : x = y := by
  have pos (k : Int) : (0 : ℚ) < 2 ^ k := by positivity
  by_cases hm : m = 0
  · subst hm
    have hn : n = 0 := by
      rw [Nat.cast_zero, zero_mul, eq_comm, mul_eq_zero] at h
      exact_mod_cast h.resolve_right (pos e).ne'
    subst hn
    have hxz : ofDecimal negative 0 0 = x := ofDecimal_zero hx
    exact hxz.symm.trans (ofDecimal_zero hy)
  · have hn : n ≠ 0 := by
      rintro rfl
      rw [Nat.cast_zero, zero_mul, mul_eq_zero] at h
      exact hm (by exact_mod_cast h.resolve_right (pos d).ne')
    have hrx := represents_of_value hx hm
    have hry := represents_of_value hy hn
    -- The magnitude rounds to the bits of both.
    have hden := Quotient.scaled_den_pos Nat.two_pos m d
    have hvalue := Quotient.scaled_value Nat.two_pos m d
    have hnum := Quotient.scaled_num_pos Nat.two_pos hrx.positive d
    push_cast at hvalue
    have hbits := Decimal.round_of_contains hrx hnum hden
      (hvalue ▸ Decimal.contains_self hrx.positive)
    have hbits' := Decimal.round_of_contains hry hnum hden
      (hvalue ▸ h ▸ Decimal.contains_self hry.positive)
    rw [← eq_of_value hx, ← eq_of_value hy, ← hbits, ← hbits']

/-- Two numbers of one quantity are equal, unless they are the two zeros. -/
theorem eq_of_signed {minus minus' : Bool} (hx : x.value = .finite minus m d)
    (hy : y.value = .finite minus' n e) (h : Json.signed minus m d = Json.signed minus' n e)
    (hz : m = 0 → minus = minus') : x = y := by
  have pos (k : Int) : (0 : ℚ) < 2 ^ k := by positivity
  have hm : (0 : ℚ) ≤ m * 2 ^ d := mul_nonneg (Nat.cast_nonneg m) (pos d).le
  have hn : (0 : ℚ) ≤ n * 2 ^ e := mul_nonneg (Nat.cast_nonneg n) (pos e).le
  unfold Json.signed at h
  by_cases hs : minus = minus'
  · subst hs
    refine eq_of_magnitude hx hy ?_
    cases minus
    · simpa using h
    · simpa using h
  · have hzero : (m : ℚ) * 2 ^ d = 0 := by
      cases minus <;> cases minus' <;> simp at hs h <;> linarith
    rw [mul_eq_zero] at hzero
    exact absurd (hz (by exact_mod_cast hzero.resolve_right (pos d).ne')) hs

/-- A zero that is no default is negative. -/
theorem negative_of_zero (hx : x.value = .finite negative 0 e) (h : x.bits ≠ 0) :
    negative = true := by
  cases negative with
  | true => rfl
  | false =>
    have hbits : ofDecimal false 0 0 = x := ofDecimal_zero hx
    rw [← hbits] at h
    exact absurd rfl h

end Binary64

/-- Whether no floating-point field has presence. -/
def Schema.ImplicitDoubles (s : Schema) : Prop :=
  ∀ t ∈ s.messages, ∀ f ∈ t.fields, f.kind = .scalar .double → f.cardinality = .implicit

namespace Message

open Json (Same)

variable {s : Schema} {t : MessageType} {f : Field} {m n : Message} {v w : Value}

/-- A number is written as such, or by its name. -/
theorem doubleJson_cases (x : Binary64) :
    (∃ negative m e, x.value = .finite negative m e ∧ doubleJson x = .float x ∧
      (Json.float x).quantity? = some (.finite (Json.signed negative m e))) ∨
    doubleJson x = .ofString (Json.floatText x) ∧
      (x.value = .nan ∨ ∃ negative, x.value = .infinite negative) := by
  cases hx : x.value with
  | finite negative m e =>
    refine .inl ⟨negative, m, e, rfl, ?_, ?_⟩
    · simp only [doubleJson, hx]
    · simp only [Json.quantity?, hx]
  | infinite negative =>
    refine .inr ⟨?_, .inr ⟨negative, rfl⟩⟩
    simp only [doubleJson, hx]
  | nan =>
    refine .inr ⟨?_, .inl rfl⟩
    simp only [doubleJson, hx]

theorem leveled_of_name {x y : Binary64}
    (hx : x.value = .nan ∨ ∃ negative, x.value = .infinite negative)
    (hy : y.value = .nan ∨ ∃ negative, y.value = .infinite negative)
    (h : Json.floatText x = Json.floatText y) : x.leveled = y.leveled := by
  unfold Json.floatText at h
  rcases hx with hx | ⟨negative, hx⟩ <;> rcases hy with hy | ⟨negative', hy⟩ <;>
    simp only [hx, hy] at h
  · rw [Binary64.leveled_of_nan hx, Binary64.leveled_of_nan hy]
  · cases negative' <;> exact absurd h (by decide)
  · cases negative <;> exact absurd h (by decide)
  · have hsign : negative = negative' := by
      cases negative <;> cases negative' <;> first | rfl | exact absurd h (by decide)
    subst hsign
    rw [Binary64.eq_of_infinite hx hy]

/-- Numbers that are set although they have no presence are the same only if they agree. -/
theorem leveled_of_same {x y : Binary64} (hx : x.bits ≠ 0) (hy : y.bits ≠ 0)
    (h : Same (doubleJson x) (doubleJson y)) : x.leveled = y.leveled := by
  rcases doubleJson_cases x with ⟨minus, m, d, hxv, hxj, hq⟩ | ⟨hxj, hxv⟩ <;>
    rcases doubleJson_cases y with ⟨minus', n, e, hyv, hyj, hr⟩ | ⟨hyj, hyv⟩ <;>
      rw [hxj, hyj] at h
  · have hsigned := Json.Quantity.finite.inj (h.quantity_eq hq hr)
    refine congrArg _ (Binary64.eq_of_signed hxv hyv hsigned fun hm => ?_)
    subst hm
    have hn : n = 0 := by
      have pos : (0 : ℚ) < 2 ^ e := by positivity
      unfold Json.signed at hsigned
      cases minus <;> cases minus' <;> simpa [pos.ne', eq_comm] using hsigned
    subst hn
    rw [Binary64.negative_of_zero hxv hx, Binary64.negative_of_zero hyv hy]
  · exact (Same.not_text hq (.inl h)).elim
  · exact (Same.not_text hr (.inr h)).elim
  · exact leveled_of_name hxv hyv h.string_inv

-- ---------------------------------------------------------------------------
-- Integers
-- ---------------------------------------------------------------------------

theorem toString_inj {i j : Int} (h : toString i = toString j) : i = j := by
  have hi := (Json.spells_int i).reads
  rw [h, (Json.spells_int j).reads] at hi
  cases hi
  rfl

theorem nameOf?_inj {e : EnumType} {i j : Int} (he : e.Regular) (hi : e.nameOf? i = some name)
    (hj : e.nameOf? j = some name) : i = j :=
  Script.number_unique he (Script.mem_of_nameOf? hi) (Script.mem_of_nameOf? hj)

/-- The name of a number, or no name, says which number it is. -/
theorem choice_of_same (hs : s.Regular) {i j : Int} (h : Same (leafJson s (.enum name) (.int i))
    (leafJson s (.enum name) (.int j))) : i = j := by
  simp only [leafJson] at h
  cases hi : (s.enum? name).bind (·.nameOf? i) with
  | none =>
    cases hj : (s.enum? name).bind (·.nameOf? j) with
    | none =>
      simp only [hi, hj] at h
      have hq := Json.Quantity.finite.inj (h.quantity_eq rfl rfl)
      exact_mod_cast hq
    | some b =>
      simp only [hi, hj] at h
      exact (Same.not_text rfl (.inl h)).elim
  | some a =>
    cases hj : (s.enum? name).bind (·.nameOf? j) with
    | none =>
      simp only [hi, hj] at h
      exact (Same.not_text rfl (.inr h)).elim
    | some b =>
      simp only [hi, hj] at h
      obtain rfl := h.string_inv
      obtain ⟨e, he, hi⟩ := Option.bind_eq_some_iff.mp hi
      rw [he, Option.bind_some] at hj
      exact nameOf?_inj (hs.enums e (Script.enum?_mem he)) hi hj

-- ---------------------------------------------------------------------------
-- Dictionaries laid out by fields
-- ---------------------------------------------------------------------------

theorem fieldsJson_eq (s : Schema) (t : MessageType) (m : Message) :
    fieldsJson s t m = m.toList.filterMap fun e =>
      (t.field? e.1).map fun f => (f, fieldJson s f e.2) := by
  induction m using entries_induction with
  | empty => rfl
  | entry number value rest ih =>
    rw [fieldsJson, toList, List.filterMap_cons]
    cases t.field? number with
    | none => exact ih
    | some f => rw [ih]; rfl

/-- What a dictionary shows of the values of a field. -/
def shown (s : Schema) (f : Field) (m : Message) : List Json :=
  (m.values f.number).map (fieldJson s f)

theorem length_shown (s : Schema) (f : Field) (m : Message) :
    (shown s f m).length = (m.values f.number).length := List.length_map _

theorem getElem?_shown {i : Nat} (h : (m.values f.number)[i]? = some v) :
    (shown s f m)[i]? = some (fieldJson s f v) := by
  rw [shown, List.getElem?_map, h, Option.map_some]

theorem shown_length_le (ht : t.Regular) (hm : m.Instance s t) (hf : f ∈ t.fields) :
    f.cardinality = .repeated ∨ (shown s f m).length ≤ 1 := by
  rw [length_shown]
  exact (em _).imp_right fun hc => hm.values_length_le ht hf hc

theorem toJson_eq (hs : s.Regular) (ht : t ∈ s.messages) (hm : m.Instance s t) :
    m.toJson s t = .object (t.fields.filterMap fun f => Script.grouped f (shown s f m)) := by
  have hr := hs.messages t ht
  have hfields : fieldsJson s t m = t.fields.flatMap fun f => (shown s f m).map (f, ·) := by
    rw [fieldsJson_eq, hm.toList_eq hr, List.filterMap_flatMap]
    refine List.flatMap_congr fun f hf => ?_
    have hfield : t.field? f.number = some f := (Script.field?_eq_some hr).mpr ⟨hf, rfl⟩
    simp only [List.filterMap_map, Function.comp_def, hfield, Option.map_some,
      List.filterMap_eq_map', shown, List.map_map]
  rw [toJson, hfields, Script.gather_flatMap (fun f => shown s f m)
    (fun f hf => ⟨Script.isMap_eq_false hs f, (hr.valid f hf).2⟩) (Script.names_nodup hr)
    fun f hf => shown_length_le hr hm hf]

theorem grouped_name {js : List Json} {member : String × Json}
    (h : Script.grouped f js = some member) : member.1 = f.name := by
  unfold Script.grouped at h
  split at h
  · split at h
    · cases h
    · cases h
      rfl
  · obtain ⟨j, -, rfl⟩ := Option.map_eq_some_iff.mp h
    rfl

/-- Under the name of a field stands what its values are grouped to. -/
theorem lookup_grouped {fields : List Field} (js : Field → List Json)
    (hd : (fields.map (·.name)).Nodup) (hf : f ∈ fields) :
    (fields.filterMap fun f => Script.grouped f (js f)).lookup f.name =
      (Script.grouped f (js f)).map (·.2) := by
  induction fields with
  | nil => cases hf
  | cons g rest ih =>
    rw [List.map_cons, List.nodup_cons] at hd
    rw [List.filterMap_cons]
    rcases List.mem_cons.mp hf with rfl | hf
    · cases hg : Script.grouped f (js f) with
      | none =>
        refine List.lookup_eq_none_iff.mpr fun member hm => ?_
        obtain ⟨g, hgm, hg⟩ := List.mem_filterMap.mp hm
        rw [grouped_name hg, bne_iff_ne]
        exact fun heq => hd.1 (List.mem_map.mpr ⟨g, hgm, heq.symm⟩)
      | some member =>
        obtain ⟨name, j⟩ := member
        obtain rfl : name = f.name := grouped_name hg
        exact List.lookup_cons_self
    · have ih := ih hd.2 hf
      cases hg : Script.grouped g (js g) with
      | none => exact ih
      | some member =>
        have hne : f.name ≠ member.1 := by
          rw [grouped_name hg]
          exact fun heq => hd.1 (List.mem_map.mpr ⟨f, hf, heq⟩)
        dsimp only
        rw [List.lookup_cons, beq_false_of_ne hne]
        exact ih

/-- Fields that are grouped to the same have the same values. -/
theorem same_of_grouped {js ks : List Json} (hj : f.cardinality = .repeated ∨ js.length ≤ 1)
    (hk : f.cardinality = .repeated ∨ ks.length ≤ 1)
    (hsome : ((Script.grouped f js).map (·.2)).isSome = ((Script.grouped f ks).map (·.2)).isSome)
    (h : ∀ v w, (Script.grouped f js).map (·.2) = some v →
      (Script.grouped f ks).map (·.2) = some w → Same v w) :
    js.length = ks.length ∧
      ∀ (i : Nat) v w, js[i]? = some v → ks[i]? = some w → Same v w := by
  by_cases hc : f.cardinality = .repeated
  · simp only [Script.grouped_repeated hc] at hsome h
    rcases js with _ | ⟨j, js⟩ <;> rcases ks with _ | ⟨k, ks⟩
    · exact ⟨rfl, fun i v w hv => by cases hv⟩
    · cases hsome
    · cases hsome
    · exact (h _ _ rfl rfl).array_inv
  · have hj := hj.resolve_left hc
    have hk := hk.resolve_left hc
    simp only [Script.grouped_singular hc] at hsome h
    rcases js with _ | ⟨j, _ | ⟨j', js⟩⟩
    · rcases ks with _ | ⟨k, ks⟩
      · exact ⟨rfl, fun i v w hv => by cases hv⟩
      · cases hsome
    · rcases ks with _ | ⟨k, _ | ⟨k', ks⟩⟩
      · cases hsome
      · refine ⟨rfl, fun i v w hv hw => ?_⟩
        rcases i with _ | i
        · cases hv
          cases hw
          exact h _ _ rfl rfl
        · cases hv
      · simp at hk
    · simp at hj

-- ---------------------------------------------------------------------------
-- Dictionaries tell messages apart
-- ---------------------------------------------------------------------------

/-- Whether the dictionary of a message is that of no other, apart from the bits of NaNs. -/
def ShowsAll (s : Schema) (m : Message) : Prop :=
  ∀ (n : Message) t, t ∈ s.messages → m.Instance s t → n.Instance s t →
    Same (m.toJson s t) (n.toJson s t) → m.leveled = n.leveled

/-- Values of a field that are shown as the same are equal once leveled. -/
theorem leveled_of_fieldJson (hs : s.Regular) (hd : s.ImplicitDoubles) (ht : t ∈ s.messages)
    (hf : f ∈ t.fields) (hv : Suits s f v) (hw : Suits s f w)
    (ih : ∀ sub, v = .message sub → ShowsAll s sub)
    (h : Same (fieldJson s f v) (fieldJson s f w)) : v.leveled = w.leveled := by
  have hplain := (hs.messages t ht).plain f hf
  have htyped := typed_of_fits hplain hv.fits
  have htyped' := typed_of_fits hplain hw.fits
  have hset (x : Binary64) (hk : f.kind = .scalar .double) (hx : Suits s f (.double x)) :
      x.bits ≠ 0 := by
    have hkept := hx.kept
    rw [countsAsUnset, hd t ht f hf hk, Value.isDefault] at hkept
    simpa using hkept
  generalize hk : f.kind = kind at htyped htyped'
  cases htyped with
  | bool =>
    cases htyped'
    rename_i b b'
    have hq := Json.Quantity.finite.inj (h.quantity_eq rfl rfl)
    cases b <;> cases b' <;> first | rfl | simp at hq
  | string =>
    cases htyped'
    rw [Same.string_inv h]
  | double =>
    cases htyped'
    exact congrArg Value.double (leveled_of_same (hset _ hk hv) (hset _ hk hw) h)
  | int64 =>
    cases htyped'
    simp only [fieldJson, leafJson, hk, isWide, if_true] at h
    rw [toString_inj h.string_inv]
  | enum =>
    cases htyped'
    simp only [fieldJson, hk] at h
    rw [choice_of_same hs h]
  | message htype =>
    cases htyped'
    simp only [fieldJson, typeOf?, hk, htype] at h
    have hmem := Script.message?_mem htype
    exact congrArg Value.message
      (ih _ rfl _ _ hmem (hv.nested hk htype) (hw.nested hk htype) h)

theorem showsAll (hs : s.Regular) (hd : s.ImplicitDoubles) (m : Message) : ShowsAll s m := by
  induction m using nested_induction with
  | step m ih =>
    intro n t ht hm hn h
    have hr := hs.messages t ht
    rw [toJson_eq hs ht hm, toJson_eq hs ht hn] at h
    obtain ⟨hk, h⟩ := h.object_inv
    have field (f : Field) (hf : f ∈ t.fields) := by
      have hsome := hk f.name
      have hsame := h f.name
      simp only [lookup_grouped (fun f => shown s f m) (Script.names_nodup hr) hf,
        lookup_grouped (fun f => shown s f n) (Script.names_nodup hr) hf] at hsome hsame
      exact same_of_grouped (shown_length_le hr hm hf) (shown_length_le hr hn hf) hsome hsame
    refine hm.leveled_ext hr hn (fun f hf => ?_) fun f hf i v w hv hw => ?_
    · rw [← length_shown s, (field f hf).1, length_shown]
    · have hvmem := List.mem_of_getElem? hv
      exact leveled_of_fieldJson hs hd ht hf (hm.suits hr hf hvmem)
        (hn.suits hr hf (List.mem_of_getElem? hw))
        (fun sub heq => ih _ (mem_toList_of_values hvmem) sub heq)
        ((field f hf).2 i _ _ (getElem?_shown hv) (getElem?_shown hw))

/-- The dictionaries of two values of a type are the same exactly if these agree. -/
theorem same_iff_agrees (hs : s.Regular) (hd : s.ImplicitDoubles) (ht : t ∈ s.messages)
    (hm : m.Instance s t) (hn : n.Instance s t) :
    Same (m.toJson s t) (n.toJson s t) ↔ m.Agrees s t n := by
  constructor
  · intro h
    exact (agrees_iff_leveled hs ht hm hn).mpr (showsAll hs hd m n t ht hm hn h)
  · intro h
    rw [h.toJson_eq hs ht hm hn]
    exact .of_legible (legible_toJson s t n)

end Message

end Treewire
