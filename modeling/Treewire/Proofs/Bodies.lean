import Treewire.Proofs.Truncation

/-!
# The bodies of messages

Which octets are the body of a message, said without a reader: records one behind the other, each
with its tag, and a group from one end to the other. Numbers may be padded. The reader finds records
in bodies and in nothing else, and finds the records that the body is put together from
(`records?_eq_some_iff`); so two bodies in a row are read as one (`records?_append`).
-/

namespace Treewire.Wire

open Message (Content.ofMark?)

-- ---------------------------------------------------------------------------
-- Numbers
-- ---------------------------------------------------------------------------

/-- The octets of a number, at most so many, each with seven bits of it. All octets but the last
have the top bit set. -/
inductive IsVarint : Nat → Nat → Bytes → Prop
  | last (hb : b.toNat < 0x80) : IsVarint (limit + 1) b.toNat [b]
  | more (hb : 0x80 ≤ b.toNat) (hr : IsVarint limit high rest) :
      IsVarint (limit + 1) (b.toNat - 0x80 + 0x80 * high) (b :: rest)

theorem IsVarint.ne_nil (h : IsVarint limit n octets) : octets ≠ [] := by
  cases h <;> exact List.cons_ne_nil _ _

theorem varint?_eq_some_iff : varint? limit bytes = some (n, rest) ↔
    ∃ octets, bytes = octets ++ rest ∧ IsVarint limit n octets := by
  constructor
  · intro h
    induction limit generalizing bytes n with
    | zero => cases h
    | succ limit ih =>
      cases bytes with
      | nil => cases h
      | cons b tail =>
        rw [varint?] at h
        split at h
        · cases h
          exact ⟨[b], rfl, .last ‹_›⟩
        · obtain ⟨⟨high, after⟩, hr, he⟩ := Option.map_eq_some_iff.mp h
          cases he
          obtain ⟨octets, rfl, ho⟩ := ih hr
          exact ⟨b :: octets, rfl, .more (Nat.le_of_not_lt ‹_›) ho⟩
  · rintro ⟨octets, rfl, h⟩
    induction h with
    | last hb => rw [List.singleton_append, varint?, if_pos hb]
    | more hb _ ih =>
      rw [List.cons_append, varint?, if_neg (Nat.not_lt.mpr hb), ih]
      rfl

/-- The number in octets of eight bits each, least significant first. -/
def littleEndian : Bytes → Nat
  | [] => 0
  | b :: rest => b.toNat + 0x100 * littleEndian rest

theorem fixed?_eq_some_iff : fixed? k bytes = some (n, rest) ↔
    ∃ octets, bytes = octets ++ rest ∧ octets.length = k ∧ littleEndian octets = n := by
  constructor
  · intro h
    induction k generalizing bytes n with
    | zero =>
      cases h
      exact ⟨[], rfl, rfl, rfl⟩
    | succ k ih =>
      cases bytes with
      | nil => cases h
      | cons b tail =>
        obtain ⟨⟨high, after⟩, hr, he⟩ := Option.map_eq_some_iff.mp h
        cases he
        obtain ⟨octets, rfl, rfl, rfl⟩ := ih hr
        exact ⟨b :: octets, rfl, rfl, rfl⟩
  · rintro ⟨octets, rfl, rfl, rfl⟩
    induction octets with
    | nil => rfl
    | cons b octets ih =>
      rw [List.cons_append, List.length_cons, fixed?, ih]
      rfl

theorem block?_eq_some_iff : block? n bytes = some (block, rest) ↔
    bytes = block ++ rest ∧ block.length = n := by
  constructor
  · intro h
    rw [block?, Option.ite_none_right_eq_some] at h
    obtain ⟨hn, he⟩ := h
    cases he
    exact ⟨(List.take_append_drop n bytes).symm, List.length_take_of_le hn⟩
  · rintro ⟨rfl, rfl⟩
    exact block?_append block rest

-- ---------------------------------------------------------------------------
-- Items
-- ---------------------------------------------------------------------------

/-- The octets of a tag. -/
structure IsTag (number wireType : Nat) (octets : Bytes) : Prop where
  valid : IsNumber number
  below : wireType < 8
  spelled : IsVarint 5 (8 * number + wireType) octets

/-- The octets that come after a tag. Of a varint that is too large the low 64 bits count. -/
inductive IsMark : Mark → Bytes → Prop
  | varint (h : IsVarint 10 n octets) : IsMark (.varint (UInt64.ofNat n)) octets
  | fixed64 (h : octets.length = 8) : IsMark (.fixed64 (UInt64.ofNat (littleEndian octets))) octets
  | fixed32 (h : octets.length = 4) : IsMark (.fixed32 (UInt32.ofNat (littleEndian octets))) octets
  | block (hl : IsVarint 5 block.length octets) (hs : block.length < 0x80000000) :
      IsMark (.block block) (octets ++ block)
  | openGroup : IsMark .openGroup []
  | closeGroup : IsMark .closeGroup []

inductive IsItem : Item → Bytes → Prop
  | mk {tag octets : Bytes} (ht : IsTag number mark.wireType tag) (hm : IsMark mark octets) :
      IsItem (number, mark) (tag ++ octets)

theorem tag?_eq_some_iff : tag? bytes = some ((number, wireType), rest) ↔
    ∃ octets, bytes = octets ++ rest ∧ IsTag number wireType octets := by
  constructor
  · intro h
    unfold tag? at h
    split at h
    · rename_i n after hv
      obtain ⟨⟨hlt, hpos⟩, he⟩ := Option.ite_none_right_eq_some.mp h
      cases he
      obtain ⟨octets, rfl, ho⟩ := varint?_eq_some_iff.mp hv
      have hn : 8 * (n / 8) + n % 8 = n := Nat.div_add_mod n 8
      refine ⟨octets, rfl, ⟨Nat.pos_of_ne_zero hpos, ?_⟩, Nat.mod_lt n (by decide), ?_⟩
      · omega
      · rwa [hn]
    · cases h
  · rintro ⟨octets, rfl, ⟨hpos, hlt⟩, hw, ho⟩
    have hd : (8 * number + wireType) / 8 = number := by omega
    have hm : (8 * number + wireType) % 8 = wireType := by omega
    have htag : 8 * number + wireType < 0x100000000 ∧ number ≠ 0 := by omega
    unfold tag?
    rw [varint?_eq_some_iff.mpr ⟨octets, rfl, ho⟩]
    simp only [hd, hm, if_pos htag]

theorem length?_eq_some_iff : length? bytes = some (n, rest) ↔
    ∃ octets, bytes = octets ++ rest ∧ IsVarint 5 n octets ∧ n < 0x80000000 := by
  constructor
  · intro h
    unfold length? at h
    split at h
    · rename_i hv
      obtain ⟨hlt, he⟩ := Option.ite_none_right_eq_some.mp h
      cases he
      obtain ⟨octets, rfl, ho⟩ := varint?_eq_some_iff.mp hv
      exact ⟨octets, rfl, ho, hlt⟩
    · cases h
  · rintro ⟨octets, rfl, ho, hlt⟩
    unfold length?
    rw [varint?_eq_some_iff.mpr ⟨octets, rfl, ho⟩]
    exact if_pos hlt

theorem isMark_of_mark? (h : mark? wireType bytes = some (mark, rest)) :
    mark.wireType = wireType ∧ ∃ octets, bytes = octets ++ rest ∧ IsMark mark octets := by
  unfold mark? at h
  split at h
  · obtain ⟨⟨n, after⟩, hr, he⟩ := Option.map_eq_some_iff.mp h
    cases he
    obtain ⟨octets, rfl, ho⟩ := varint?_eq_some_iff.mp hr
    exact ⟨rfl, octets, rfl, .varint ho⟩
  · obtain ⟨⟨n, after⟩, hr, he⟩ := Option.map_eq_some_iff.mp h
    cases he
    obtain ⟨octets, rfl, ho, rfl⟩ := fixed?_eq_some_iff.mp hr
    exact ⟨rfl, octets, rfl, .fixed64 ho⟩
  · obtain ⟨⟨n, after⟩, hl, hb⟩ := Option.bind_eq_some_iff.mp h
    obtain ⟨⟨block, behind⟩, hr, he⟩ := Option.map_eq_some_iff.mp hb
    cases he
    obtain ⟨octets, rfl, ho, hs⟩ := length?_eq_some_iff.mp hl
    obtain ⟨rfl, rfl⟩ := block?_eq_some_iff.mp hr
    exact ⟨rfl, octets ++ block, (List.append_assoc ..).symm, .block ho hs⟩
  · cases h
    exact ⟨rfl, [], rfl, .openGroup⟩
  · cases h
    exact ⟨rfl, [], rfl, .closeGroup⟩
  · obtain ⟨⟨n, after⟩, hr, he⟩ := Option.map_eq_some_iff.mp h
    cases he
    obtain ⟨octets, rfl, ho, rfl⟩ := fixed?_eq_some_iff.mp hr
    exact ⟨rfl, octets, rfl, .fixed32 ho⟩
  · cases h

theorem mark?_of_isMark (h : IsMark mark octets) :
    mark? mark.wireType (octets ++ rest) = some (mark, rest) := by
  cases h with
  | varint h =>
    have hread : varint? 10 (octets ++ rest) = some (_, rest) :=
      varint?_eq_some_iff.mpr ⟨octets, rfl, h⟩
    simp only [mark?, Mark.wireType, hread, Option.map_some]
  | fixed64 h =>
    have hread : fixed? 8 (octets ++ rest) = some (_, rest) :=
      fixed?_eq_some_iff.mpr ⟨octets, rfl, h, rfl⟩
    simp only [mark?, Mark.wireType, hread, Option.map_some]
  | fixed32 h =>
    have hread : fixed? 4 (octets ++ rest) = some (_, rest) :=
      fixed?_eq_some_iff.mpr ⟨octets, rfl, h, rfl⟩
    simp only [mark?, Mark.wireType, hread, Option.map_some]
  | @block octets block hl hs =>
    have hlength := length?_eq_some_iff.mpr ⟨octets, List.append_assoc _ block rest, hl, hs⟩
    simp only [mark?, Mark.wireType, hlength, Option.bind_some, block?_append, Option.map_some]
  | openGroup => rfl
  | closeGroup => rfl

theorem item?_eq_some_iff : item? bytes = some (item, rest) ↔
    ∃ octets, bytes = octets ++ rest ∧ IsItem item octets := by
  constructor
  · intro h
    obtain ⟨⟨⟨number, wireType⟩, after⟩, ht, hm⟩ := Option.bind_eq_some_iff.mp h
    obtain ⟨⟨mark, behind⟩, hr, he⟩ := Option.bind_eq_some_iff.mp hm
    cases he
    obtain ⟨tag, rfl, htag⟩ := tag?_eq_some_iff.mp ht
    obtain ⟨rfl, octets, rfl, hmark⟩ := isMark_of_mark? hr
    exact ⟨tag ++ octets, (List.append_assoc ..).symm, .mk htag hmark⟩
  · rintro ⟨_, rfl, @⟨_, _, tag, octets, htag, hmark⟩⟩
    have ht := tag?_eq_some_iff.mpr ⟨tag, List.append_assoc tag octets rest, htag⟩
    rw [item?, ht]
    simp [mark?_of_isMark hmark]

/-- The form that the format prefers is one of the forms that an item may have. -/
theorem isItem_itemOctets (hn : IsNumber number) (hs : mark.octets.length < 0x80000000) :
    IsItem (number, mark) (itemOctets number mark) := by
  have hread : item? (itemOctets number mark ++ []) = _ := item?_itemOctets hn hs
  obtain ⟨octets, he, hi⟩ := item?_eq_some_iff.mp hread
  rwa [List.append_cancel_right he]

theorem IsItem.ne_nil (h : IsItem item octets) : octets ≠ [] := by
  obtain ⟨⟨-, -, hv⟩, -⟩ := h
  have hne := hv.ne_nil
  simp [hne]

/-- An item in front is read as such, whatever follows. -/
theorem IsItem.items? (h : IsItem item octets) :
    items? (octets ++ rest) = (items? rest).map (item :: ·) := by
  have hread : item? (octets ++ rest) = some (item, rest) :=
    item?_eq_some_iff.mpr ⟨octets, rfl, h⟩
  have hlt : rest.length < (octets ++ rest).length := by
    have := List.length_pos_iff.mpr h.ne_nil
    rw [List.length_append]
    omega
  rw [Wire.items?, if_neg (List.append_ne_nil_of_left_ne_nil h.ne_nil rest), hread]
  exact if_pos hlt

theorem items?_cons (h : items? bytes = some (item :: items)) :
    ∃ octets rest, bytes = octets ++ rest ∧ IsItem item octets ∧ items? rest = some items := by
  rw [items?] at h
  split at h
  · cases h
  · split at h
    · cases h
    · rename_i found rest hread
      split at h
      · obtain ⟨others, hothers, he⟩ := Option.map_eq_some_iff.mp h
        cases he
        obtain ⟨octets, rfl, ho⟩ := item?_eq_some_iff.mp hread
        exact ⟨octets, rest, rfl, ho, hothers⟩
      · cases h

theorem items?_eq_nil (h : items? bytes = some []) : bytes = [] := by
  rw [items?] at h
  split at h
  · assumption
  · split at h
    · cases h
    · split at h
      · obtain ⟨others, -, he⟩ := Option.map_eq_some_iff.mp h
        cases he
      · cases h

-- ---------------------------------------------------------------------------
-- Records
-- ---------------------------------------------------------------------------

/-- The octets that some records are written with, one behind the other. -/
inductive IsBody : List Record → Bytes → Prop
  | nil : IsBody [] []
  | leaf (hi : IsItem (number, mark) octets) (hc : Content.ofMark? mark = some content)
      (hr : IsBody records rest) : IsBody ((number, content) :: records) (octets ++ rest)
  | group (ho : IsItem (number, .openGroup) front) (hi : IsBody nested body)
      (hc : IsItem (number, .closeGroup) back) (hr : IsBody records rest) :
      IsBody ((number, .group nested) :: records) (front ++ (body ++ (back ++ rest)))

theorem IsBody.append (h : IsBody records bytes) (h' : IsBody more rest) :
    IsBody (records ++ more) (bytes ++ rest) := by
  induction h with
  | nil => exact h'
  | leaf hi hc _ ih =>
    rw [List.cons_append, List.append_assoc]
    exact .leaf hi hc ih
  | group ho hi hc _ _ ih =>
    simp only [List.cons_append, List.append_assoc]
    exact .group ho hi hc ih

theorem nest?_leaf (hc : Content.ofMark? mark = some content) (items : List Item) :
    nest? done outer ((number, mark) :: items) = nest? ((number, content) :: done) outer items := by
  cases mark <;> cases hc <;> rfl

/-- A body in front is cut into items, and they are nested to its records, whatever follows. -/
theorem IsBody.nests (h : IsBody records bytes) : ∃ items,
    (∀ rest, items? (bytes ++ rest) = (items? rest).map (items ++ ·)) ∧
      ∀ done outer more, nest? done outer (items ++ more) =
        nest? (records.reverse ++ done) outer more := by
  induction h with
  | nil => exact ⟨[], fun rest => by simp, fun done outer more => rfl⟩
  | @leaf number mark octets content records rest hi hc _ ih =>
    obtain ⟨items, hcut, hnest⟩ := ih
    refine ⟨(number, mark) :: items, fun rest => ?_, fun done outer more => ?_⟩
    · rw [List.append_assoc, hi.items?, hcut, Option.map_map]
      rfl
    · rw [List.cons_append, nest?_leaf hc, hnest]
      simp
  | @group number front nested body back records rest ho _ hc _ ihi ih =>
    obtain ⟨within, hcutin, hnestin⟩ := ihi
    obtain ⟨items, hcut, hnest⟩ := ih
    refine ⟨(number, .openGroup) :: (within ++ (number, .closeGroup) :: items),
      fun rest => ?_, fun done outer more => ?_⟩
    · simp only [List.append_assoc]
      rw [ho.items?, hcutin, hc.items?, hcut]
      simp only [Option.map_map, Function.comp_def, List.append_assoc, List.cons_append]
    · rw [List.cons_append, nest?, List.append_assoc, hnestin, List.append_nil, List.cons_append,
        nest?]
      simp only [if_true, List.reverse_reverse]
      rw [hnest]
      simp

/-- What is left of a body within some open groups: `done` holds the records of the innermost one,
`outer` the groups around it, as `nest?` has them. -/
inductive IsRest : List Record → List (Nat × List Record) → Bytes → List Record → Prop
  | last (hb : IsBody more bytes) : IsRest done [] bytes (done.reverse ++ more)
  | close (hb : IsBody nested body) (hc : IsItem (number, .closeGroup) back)
      (hr : IsRest ((number, .group (done.reverse ++ nested)) :: before) outer rest records) :
      IsRest done ((number, before) :: outer) (body ++ (back ++ rest)) records

/-- A record that may stand before any body may stand before what is left of one. -/
theorem IsRest.cons {record : Record}
    (h : ∀ more rest, IsBody more rest → IsBody (record :: more) (octets ++ rest))
    (hr : IsRest (record :: done) outer rest records) :
    IsRest done outer (octets ++ rest) records := by
  cases hr with
  | last hb =>
    rw [List.reverse_cons, List.append_assoc]
    exact .last (h _ _ hb)
  | close hb hc hr =>
    rw [List.reverse_cons, List.append_assoc] at hr
    rw [← List.append_assoc]
    exact .close (h _ _ hb) hc hr

theorem isRest_of_nest? (hi : items? bytes = some items)
    (hn : nest? done outer items = some records) : IsRest done outer bytes records := by
  induction items generalizing bytes done outer with
  | nil =>
    obtain rfl := items?_eq_nil hi
    cases outer with
    | nil =>
      cases hn
      simpa using IsRest.last .nil
    | cons => cases hn
  | cons item items ih =>
    obtain ⟨octets, rest, rfl, ho, hrest⟩ := items?_cons hi
    obtain ⟨number, mark⟩ := item
    have leaf (content : Content) (hc : Content.ofMark? mark = some content) :
        IsRest done outer (octets ++ rest) records := by
      rw [nest?_leaf hc] at hn
      exact .cons (fun _ _ hb => .leaf ho hc hb) (ih hrest hn)
    cases mark with
    | openGroup =>
      cases ih hrest hn with
      | @close nested body _ back _ _ _ _ _ hb hc hr =>
        have group (more : List Record) (after : Bytes) (hm : IsBody more after) :
            IsBody ((number, .group nested) :: more) (octets ++ (body ++ back) ++ after) := by
          simpa only [List.append_assoc] using IsBody.group ho hb hc hm
        simpa only [List.append_assoc] using IsRest.cons group hr
    | closeGroup =>
      cases outer with
      | nil => cases hn
      | cons group outer =>
        obtain ⟨opened, before⟩ := group
        rw [nest?] at hn
        obtain ⟨rfl, hn⟩ := Option.ite_none_right_eq_some.mp hn
        have hbehind := ih hrest hn
        rw [← List.append_nil done.reverse] at hbehind
        exact .close .nil ho hbehind
    | _ => exact leaf _ rfl

/-- The records that are read are those that the octets are the body of. -/
theorem records?_eq_some_iff : records? bytes = some records ↔ IsBody records bytes := by
  constructor
  · intro h
    obtain ⟨items, hi, hn⟩ := Option.bind_eq_some_iff.mp h
    cases isRest_of_nest? hi hn with
    | last hb => exact hb
  · intro h
    obtain ⟨items, hcut, hnest⟩ := h.nests
    have hi := hcut []
    have hn := hnest [] [] []
    rw [List.append_nil, items?_nil, Option.map_some, List.append_nil] at hi
    rw [List.append_nil, List.append_nil] at hn
    rw [records?, hi, Option.bind_some, hn]
    simp [nest?]

/-- Two bodies in a row are read as one. -/
theorem records?_append (h : records? bytes = some records) (h' : records? rest = some more) :
    records? (bytes ++ rest) = some (records ++ more) :=
  records?_eq_some_iff.mpr
    ((records?_eq_some_iff.mp h).append (records?_eq_some_iff.mp h'))

end Treewire.Wire
